import ExprPrinter.Proofs.Layout.Parts
import ExprPrinter.Proofs.Rendering

/-!
# The paths of a document

A property of tag paths, said of all units of a document.  The units of a
layout are those of the categories, and none of them is an error unit:
`proper_layout`.  The units of every document that the markup printer makes are
those of the categories too: `everyPath_finished`.
-/

namespace ExprPrinter

namespace Document

variable {α β : Type}

mutual

/-- Every unit of the document has a path with the property. -/
def EveryPath (P : String → Prop) : Document α → Prop
  | text _ => True
  | tagged path ds => P path ∧ EveryPathAll P ds
  | run ds => EveryPathAll P ds
  | slot _ => True

/-- Every unit of the documents has a path with the property. -/
def EveryPathAll (P : String → Prop) : List (Document α) → Prop
  | [] => True
  | d :: ds => EveryPath P d ∧ EveryPathAll P ds

end

variable {P : String → Prop}

@[simp] theorem everyPathAll_append (ds es : List (Document α)) :
    EveryPathAll P (ds ++ es) ↔ EveryPathAll P ds ∧ EveryPathAll P es := by
  induction ds with
  | nil => simp [EveryPathAll]
  | cons d ds ih => simp [EveryPathAll, ih, and_assoc]

/-- What holds of the paths in a list of documents holds of those in each of them. -/
theorem everyPathAll_iff (ds : List (Document α)) :
    EveryPathAll P ds ↔ ∀ d ∈ ds, EveryPath P d := by
  induction ds with
  | nil => simp [EveryPathAll]
  | cons d ds ih => simp [EveryPathAll, ih]

mutual

/-- What follows for paths follows for all paths of a document. -/
theorem everyPath_mono {Q : String → Prop} (h : ∀ path, P path → Q path) :
    ∀ d : Document α, EveryPath P d → EveryPath Q d
  | text _, _ => by
    rw [EveryPath]
    trivial
  | tagged path ds, hd => by
    rw [EveryPath] at hd ⊢
    exact ⟨h path hd.1, everyPathAll_mono h ds hd.2⟩
  | run ds, hd => by
    rw [EveryPath] at hd ⊢
    exact everyPathAll_mono h ds hd
  | slot _, _ => by
    rw [EveryPath]
    trivial

/-- The same for several documents. -/
theorem everyPathAll_mono {Q : String → Prop} (h : ∀ path, P path → Q path) :
    ∀ ds : List (Document α), EveryPathAll P ds → EveryPathAll Q ds
  | [], _ => by
    rw [EveryPathAll]
    trivial
  | d :: ds, hds => by
    rw [EveryPathAll] at hds ⊢
    exact ⟨everyPath_mono h d hds.1, everyPathAll_mono h ds hds.2⟩

end

mutual

/-- Mapping the slots keeps the paths. -/
theorem everyPath_map (f : α → β) :
    ∀ d : Document α, EveryPath P (d.map f) ↔ EveryPath P d
  | text _ => by simp [map, EveryPath]
  | tagged _ ds => by simp [map, EveryPath, everyPathAll_mapAll f ds]
  | run ds => by simp [map, EveryPath, everyPathAll_mapAll f ds]
  | slot _ => by simp [map, EveryPath]

/-- The same for several documents. -/
theorem everyPathAll_mapAll (f : α → β) :
    ∀ ds : List (Document α), EveryPathAll P (mapAll f ds) ↔ EveryPathAll P ds
  | [] => by simp [mapAll, EveryPathAll]
  | d :: ds => by simp [mapAll, EveryPathAll, everyPath_map f d, everyPathAll_mapAll f ds]

end

end Document

namespace Category

/-- A path that belongs to a category. -/
def IsPath (path : String) : Prop :=
  ∃ c : Category, path = c.path

/-- A path that belongs to a category other than that of error units. -/
def IsLabel (path : String) : Prop :=
  ∃ c : Category, c ≠ error ∧ path = c.path

/-- A label is the path of a category. -/
theorem IsLabel.isPath {path : String} (h : IsLabel path) : IsPath path := by
  obtain ⟨c, _, hpath⟩ := h
  exact ⟨c, hpath⟩

/-- The path of error units belongs to no other category. -/
theorem IsLabel.ne_error {path : String} (h : IsLabel path) : path ≠ error.path := by
  obtain ⟨c, hc, rfl⟩ := h
  cases c with
  | error => exact absurd rfl hc
  | _ => decide

end Category

/-- No atom is an error unit. -/
theorem Expr.leaf_ne_error {x : Expr} {c : Category} {s : String}
    (h : x.form? = some (.leaf c s)) : c ≠ .error := by
  have hnode : ∀ k xs, Form.ofNode? k xs = some (.leaf c s) → c ≠ .error := by
    intro k xs hk
    cases k with
    | quote =>
      simp only [Form.ofNode?] at hk
      split at hk
      · cases hk
      · cases hk
        decide
      · cases hk
    | _ =>
      simp only [Form.ofNode?, Form.conditional?, Form.definition?] at hk
      repeat' split at hk
      all_goals cases hk
  cases x with
  | node head xs =>
    obtain ⟨k, _, hk⟩ := Option.bind_eq_some_iff.mp h
    exact hnode k xs hk
  | sym name =>
    have hc : Category.ofSymbol name = c := by
      simp only [form?, Form.symbol, Option.some.injEq, Form.leaf.injEq] at h
      exact h.1
    rw [← hc]
    exact Category.ofSymbol_ne_error name
  | quoted x =>
    cases x with
    | sym name =>
      cases h
      decide
    | _ => cases h
  | _ => cases h <;> decide

namespace Layout

open Document

/-- All paths of a layout belong to categories, and there are no error units. -/
abbrev Proper (l : Layout) : Prop :=
  EveryPath Category.IsLabel l

/-- A token that is not of the category of errors has a proper path. -/
theorem proper_token {c : Category} (hc : c ≠ .error) (s : String) : Proper (token c s) := by
  simp only [token, Proper, EveryPath, EveryPathAll, and_true]
  exact ⟨c, hc, rfl⟩

/-- So have all parts of layouts. -/
theorem proper_of_isPart {l : Layout} (h : IsPart l) : Proper l := by
  induction h with
  | token hc s => exact proper_token hc s
  | spacing _ =>
    rw [Proper, EveryPath]
    trivial
  | slot _ =>
    rw [Proper, EveryPath]
    trivial
  | run _ ih =>
    rw [Proper, EveryPath, everyPathAll_iff]
    exact ih

/-- All paths of the layout of an expression belong to categories, and there are no error units. -/
theorem proper_layout {x : Expr} {f : Form} (h : x.form? = some f) : Proper f.layout := by
  rcases f.layout_cases with ⟨c, s, rfl⟩ | ⟨c, parts, hparts⟩
  · exact proper_token (Expr.leaf_ne_error h) s
  · have hmark : EveryPathAll Category.IsLabel
        ((frontMark c.path).toList.map fun s => (.text s : Layout)) := by
      cases frontMark c.path <;> simp [EveryPathAll, EveryPath]
    have hall : EveryPathAll Category.IsLabel parts :=
      (everyPathAll_iff parts).mpr fun l hl => proper_of_isPart (hparts.areParts l hl)
    rw [hparts.layout_eq, unit, Proper, EveryPath]
    exact ⟨⟨c, hparts.noError, rfl⟩, (everyPathAll_append _ _).mpr ⟨hmark, hall⟩⟩

end Layout

namespace Markup

open Document

variable (width : Int)

/-- All paths of a finished document belong to categories, if those of its layout do. -/
theorem everyPath_finish (d : Placed) (hd : EveryPath Category.IsPath d) :
    EveryPath Category.IsPath (finish width d) := by
  refine finish.induct
    (fun d => EveryPath Category.IsPath d → EveryPath Category.IsPath (finish width d))
    (fun ds => EveryPathAll Category.IsPath ds → EveryPathAll Category.IsPath (finishAll width ds))
    ?text ?tagged ?run ?indent ?form ?gap ?nil ?cons d hd
  case text =>
    intro s _
    rw [finish, EveryPath]
    trivial
  case tagged =>
    intro path ds ih h
    rw [EveryPath] at h
    rw [finish, EveryPath]
    exact ⟨h.1, ih h.2⟩
  case run =>
    intro ds ih h
    rw [EveryPath] at h
    rw [finish, EveryPath]
    exact ih h
  case indent =>
    intro level _
    rw [finish, EveryPath]
    trivial
  case form =>
    intro x level f hf ih _
    rw [finish_form width hf]
    apply ih
    apply everyPath_mono fun _ => Category.IsLabel.isPath
    exact (everyPath_map _ _).mpr (Layout.proper_layout hf)
  case gap =>
    intro x level hf _
    rw [finish_gap width hf, errorUnit, EveryPath, EveryPathAll, EveryPathAll, EveryPath]
    exact ⟨⟨.error, rfl⟩, trivial, trivial⟩
  case nil =>
    intro _
    rw [finishAll, EveryPathAll]
    trivial
  case cons =>
    intro d ds hd hds h
    rw [EveryPathAll] at h
    rw [finishAll, EveryPathAll]
    exact ⟨hd h.1, hds h.2⟩

/-- All paths of the document of an expression belong to categories. -/
theorem everyPath_finished (level : Int) (x : Expr) :
    EveryPath Category.IsPath (finished width level x) := by
  apply everyPath_finish
  rw [EveryPath]
  trivial

/-- Indentation adds no path. -/
theorem everyPath_indented {P : String → Prop} (level : Int) {d : Markup} (hd : EveryPath P d) :
    EveryPath P (indented width level d) := by
  rw [indented]
  by_cases hempty : (indentation width level).isEmpty = true
  · rw [if_pos hempty]
    exact hd
  · rw [if_neg hempty]
    simp [EveryPath, EveryPathAll, hd]

end Markup

end ExprPrinter
