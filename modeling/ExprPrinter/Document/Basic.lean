/-!
# Documents

A document is text, a unit labelled with a tag path, or an unlabelled run of
documents.  Line breaks and indentation are ordinary text.  A document may
also have *slots*, places that hold something else than text: the layout of a
form has slots for its indentation and its subexpressions.  A finished
document has none, and its type says so: it is a `Document Empty`.

`weigh` adds up the weights of all slots, and `size` counts units and texts.
Loops that work through documents end because one of the two falls.
-/

namespace ExprPrinter

/-- Documents with slots in `α`. -/
inductive Document (α : Type) where
  | text (s : String)
  | tagged (path : String) (children : List (Document α))
  | run (children : List (Document α))
  | slot (a : α)

/-- The separator's items between every two neighbours of a list. -/
def interpose {α : Type} (separator : List α) : List α → List α
  | [] => []
  | [x] => [x]
  | x :: y :: rest => x :: (separator ++ interpose separator (y :: rest))

namespace Document

variable {α β : Type}

/-- Whether a document is an empty text. -/
def isEmptyText : Document α → Bool
  | text s => s.isEmpty
  | _ => false

/-- Whether a unit with these children is left out of markup: all of them are empty texts. -/
def blank (children : List (Document α)) : Bool :=
  children.all isEmptyText

mutual

/-- A document with the content of each slot changed. -/
def map (f : α → β) : Document α → Document β
  | text s => text s
  | tagged path ds => tagged path (mapAll f ds)
  | run ds => run (mapAll f ds)
  | slot a => slot (f a)

/-- Documents with the content of each slot changed. -/
def mapAll (f : α → β) : List (Document α) → List (Document β)
  | [] => []
  | d :: ds => map f d :: mapAll f ds

end

mutual

/-- The sum of the weights of all slots. -/
def weigh (w : α → Nat) : Document α → Nat
  | text _ => 0
  | tagged _ ds => weighAll w ds
  | run ds => weighAll w ds
  | slot a => w a

/-- The sum of the weights of all slots of several documents. -/
def weighAll (w : α → Nat) : List (Document α) → Nat
  | [] => 0
  | d :: ds => weigh w d + weighAll w ds

end

mutual

/-- The number of texts and slots, with two for each unit and run. -/
def size : Document α → Nat
  | text _ => 1
  | tagged _ ds => 2 + sizeAll ds
  | run ds => 2 + sizeAll ds
  | slot _ => 1

/-- The sizes of several documents together. -/
def sizeAll : List (Document α) → Nat
  | [] => 0
  | d :: ds => size d + sizeAll ds

end

/-- Mapping a list of documents is mapping each of them. -/
theorem mapAll_eq_map (f : α → β) (ds : List (Document α)) : mapAll f ds = ds.map (map f) := by
  induction ds with
  | nil => rfl
  | cons d ds ih => rw [mapAll, ih, List.map_cons]

/-- Weights add up over lists of documents. -/
theorem weighAll_append (w : α → Nat) (ds es : List (Document α)) :
    weighAll w (ds ++ es) = weighAll w ds + weighAll w es := by
  induction ds with
  | nil => simp [weighAll]
  | cons d ds ih => simp [weighAll, ih, Nat.add_assoc]

/-- Sizes add up over lists of documents. -/
theorem sizeAll_append (ds es : List (Document α)) :
    sizeAll (ds ++ es) = sizeAll ds + sizeAll es := by
  induction ds with
  | nil => simp [sizeAll]
  | cons d ds ih => simp [sizeAll, ih, Nat.add_assoc]

/-- No document is of size zero. -/
theorem size_pos (d : Document α) : 0 < d.size := by
  cases d <;> simp only [size] <;> omega

mutual

/-- A document with its slots mapped weighs what the mapped slots weigh. -/
theorem weigh_map (f : α → β) (w : β → Nat) :
    ∀ d : Document α, (d.map f).weigh w = d.weigh (fun a => w (f a))
  | text _ => by simp [map, weigh]
  | tagged _ ds => by simp [map, weigh, weighAll_mapAll f w ds]
  | run ds => by simp [map, weigh, weighAll_mapAll f w ds]
  | slot _ => by simp [map, weigh]

/-- The same for several documents. -/
theorem weighAll_mapAll (f : α → β) (w : β → Nat) :
    ∀ ds : List (Document α), weighAll w (mapAll f ds) = weighAll (fun a => w (f a)) ds
  | [] => by simp [mapAll, weighAll]
  | d :: ds => by simp [mapAll, weighAll, weigh_map f w d, weighAll_mapAll f w ds]

end

end Document

end ExprPrinter
