import ExprPrinter.Proofs.Document.Composition

/-!
# The units of a document

Three ways to look into a document.  `units` are all units in it, at any depth.
`loose` are the texts in no unit at all, and so the loose texts of the children
of a unit are the texts directly below that unit, also through runs.  `readings`
are all texts in reading order, each with the units that it stands in.  The
readings make up the visible text: `visible_eq_readings`.
-/

namespace ExprPrinter

/-- A unit of a document: its path and its children. -/
structure Labelled (α : Type) where
  path : String
  children : List (Document α)

/-- A text of a document, and the units that it stands in, the innermost first. -/
structure Reading (α : Type) where
  text : String
  around : List (Labelled α)

/-- A unit with the content of each slot changed. -/
def Labelled.map {α β : Type} (f : α → β) (u : Labelled α) : Labelled β :=
  ⟨u.path, Document.mapAll f u.children⟩

namespace Document

variable {α β : Type}

mutual

/-- The units of a document, in document order. -/
def units : Document α → List (Labelled α)
  | text _ => []
  | tagged path ds => ⟨path, ds⟩ :: unitsAll ds
  | run ds => unitsAll ds
  | slot _ => []

/-- The units of several documents. -/
def unitsAll : List (Document α) → List (Labelled α)
  | [] => []
  | d :: ds => units d ++ unitsAll ds

end

mutual

/-- The texts of a document that stand in none of its units. -/
def loose : Document α → List String
  | text s => [s]
  | tagged _ _ => []
  | run ds => looseAll ds
  | slot _ => []

/-- The texts of several documents that stand in none of their units. -/
def looseAll : List (Document α) → List String
  | [] => []
  | d :: ds => loose d ++ looseAll ds

end

mutual

/-- The texts of a document in reading order, with the given units around the whole. -/
def readingsIn (around : List (Labelled α)) : Document α → List (Reading α)
  | text s => [⟨s, around⟩]
  | tagged path ds => readingsInAll (⟨path, ds⟩ :: around) ds
  | run ds => readingsInAll around ds
  | slot _ => []

/-- The texts of several documents in reading order. -/
def readingsInAll (around : List (Labelled α)) : List (Document α) → List (Reading α)
  | [] => []
  | d :: ds => readingsIn around d ++ readingsInAll around ds

end

/-- The texts of a document in reading order. -/
def readings (d : Document α) : List (Reading α) :=
  d.readingsIn []

/-- A unit of several documents is a unit of one of them. -/
theorem mem_unitsAll {u : Labelled α} {ds : List (Document α)} :
    u ∈ unitsAll ds ↔ ∃ d ∈ ds, u ∈ d.units := by
  induction ds with
  | nil => simp [unitsAll]
  | cons d ds ih => simp [unitsAll, ih]

/-- A loose text of several documents is one of one of them. -/
theorem mem_looseAll {s : String} {ds : List (Document α)} :
    s ∈ looseAll ds ↔ ∃ d ∈ ds, s ∈ d.loose := by
  induction ds with
  | nil => simp [looseAll]
  | cons d ds ih => simp [looseAll, ih]

mutual

/-- Mapping the slots maps the units. -/
theorem units_map (f : α → β) : ∀ d : Document α, (d.map f).units = d.units.map (Labelled.map f)
  | text _ => rfl
  | tagged path ds => by
    rw [map, units, units, List.map_cons, unitsAll_mapAll f ds]
    rfl
  | run ds => unitsAll_mapAll f ds
  | slot _ => rfl

/-- The same for several documents. -/
theorem unitsAll_mapAll (f : α → β) :
    ∀ ds : List (Document α), unitsAll (mapAll f ds) = (unitsAll ds).map (Labelled.map f)
  | [] => rfl
  | d :: ds => by
    rw [mapAll, unitsAll, unitsAll, units_map f d, unitsAll_mapAll f ds, List.map_append]

end

mutual

/-- Mapping the slots keeps the loose texts. -/
theorem loose_map (f : α → β) : ∀ d : Document α, (d.map f).loose = d.loose
  | text _ => rfl
  | tagged _ _ => rfl
  | run ds => looseAll_mapAll f ds
  | slot _ => rfl

/-- The same for several documents. -/
theorem looseAll_mapAll (f : α → β) :
    ∀ ds : List (Document α), looseAll (mapAll f ds) = looseAll ds
  | [] => rfl
  | d :: ds => by rw [mapAll, looseAll, looseAll, loose_map f d, looseAll_mapAll f ds]

end

mutual

/-- The texts of a document, wherever it stands, make its visible text. -/
theorem join_readingsIn (around : List (Labelled α)) :
    ∀ d : Document α, String.join ((d.readingsIn around).map Reading.text) = d.visible
  | text s => by
    rw [visible_text, readingsIn, List.map_cons, List.map_nil, String.join_cons, String.join_nil,
      String.append_empty]
  | tagged path ds => by
    rw [visible_tagged, readingsIn]
    exact join_readingsInAll _ ds
  | run ds => by
    rw [visible_run, readingsIn]
    exact join_readingsInAll around ds
  | slot a => by
    rw [visible_slot, readingsIn, List.map_nil, String.join_nil]

/-- The same for several documents. -/
theorem join_readingsInAll (around : List (Labelled α)) :
    ∀ ds : List (Document α),
      String.join ((readingsInAll around ds).map Reading.text) = String.join (ds.map visible)
  | [] => rfl
  | d :: ds => by
    rw [readingsInAll, List.map_append, String.join_append, join_readingsIn around d,
      join_readingsInAll around ds, List.map_cons, String.join_cons]

end

/-- The visible text of a document is made up of its texts in reading order. -/
theorem visible_eq_readings (d : Document α) :
    d.visible = String.join (d.readings.map Reading.text) :=
  (join_readingsIn [] d).symm

end Document

end ExprPrinter
