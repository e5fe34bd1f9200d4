import ExprPrinter.Expr.Basic

/-!
# What a value holds

The components of a value are the values that it directly holds, in the order
in which it holds them, a key before its value.  They are smaller than the
value, so whatever goes from a value to its components comes to an end.
-/

namespace ExprPrinter

/-- The parts of a plain container, as they stand, a key before its value. -/
def Datum.parts : Datum Expr → List Expr
  | .tuple items => items
  | .list items => items
  | .dict entries => entries.flatMap fun e => [e.1, e.2]
  | .table _ entries => entries.flatMap fun e => [e.1, e.2]
  | _ => []

namespace Expr

/-- Whether a value is plain data and no expression. -/
def isPlain : Expr → Bool
  | plain _ => true
  | _ => false

/-- The values that a value directly holds. -/
def components : Expr → List Expr
  | quoted x => [x]
  | pair a b => [a, b]
  | tuple items => items
  | list items => items
  | mapping entries => entries
  | node _ xs => xs
  | plain d => d.parts
  | _ => []

/-- A key or value of a mapping is smaller than the list of its entries. -/
theorem sizeOf_lt_of_mem_entries {entries : List (Expr × Expr)} {x : Expr}
    (h : x ∈ entries.flatMap fun e => [e.1, e.2]) : sizeOf x < sizeOf entries := by
  obtain ⟨⟨k, v⟩, he, hx⟩ := List.mem_flatMap.mp h
  have hlt : sizeOf (k, v) < sizeOf entries := List.sizeOf_lt_of_mem he
  simp only [Prod.mk.sizeOf_spec] at hlt
  have hsides : x = k ∨ x = v := (List.mem_cons.mp hx).imp_right List.mem_singleton.mp
  rcases hsides with rfl | rfl <;> omega

/-- A part of a plain container is smaller than the container. -/
theorem sizeOf_lt_of_mem_datumParts {d : Datum Expr} {x : Expr} (h : x ∈ d.parts) :
    sizeOf x < sizeOf (plain d) := by
  cases d with
  | tuple items =>
    have hlt : sizeOf x < sizeOf items := List.sizeOf_lt_of_mem h
    simp only [plain.sizeOf_spec, Datum.tuple.sizeOf_spec]
    omega
  | list items =>
    have hlt : sizeOf x < sizeOf items := List.sizeOf_lt_of_mem h
    simp only [plain.sizeOf_spec, Datum.list.sizeOf_spec]
    omega
  | dict entries =>
    have hlt : sizeOf x < sizeOf entries := sizeOf_lt_of_mem_entries h
    simp only [plain.sizeOf_spec, Datum.dict.sizeOf_spec]
    omega
  | table o entries =>
    have hlt : sizeOf x < sizeOf entries := sizeOf_lt_of_mem_entries h
    simp only [plain.sizeOf_spec, Datum.table.sizeOf_spec]
    omega
  | _ => cases h

/-- A component is smaller than the value that holds it. -/
theorem sizeOf_lt_of_mem_components {x y : Expr} (h : y ∈ x.components) :
    sizeOf y < sizeOf x := by
  cases x with
  | quoted z =>
    cases List.mem_singleton.mp h
    simp only [quoted.sizeOf_spec]
    omega
  | pair a b =>
    have hsides : y = a ∨ y = b := (List.mem_cons.mp h).imp_right List.mem_singleton.mp
    simp only [pair.sizeOf_spec]
    rcases hsides with rfl | rfl <;> omega
  | tuple items =>
    have hlt : sizeOf y < sizeOf items := List.sizeOf_lt_of_mem h
    simp only [tuple.sizeOf_spec]
    omega
  | list items =>
    have hlt : sizeOf y < sizeOf items := List.sizeOf_lt_of_mem h
    simp only [list.sizeOf_spec]
    omega
  | mapping entries =>
    have hlt : sizeOf y < sizeOf entries := List.sizeOf_lt_of_mem h
    simp only [mapping.sizeOf_spec]
    omega
  | node head xs =>
    have hlt : sizeOf y < sizeOf xs := List.sizeOf_lt_of_mem h
    simp only [node.sizeOf_spec]
    omega
  | plain d => exact sizeOf_lt_of_mem_datumParts h
  | _ => cases h

end Expr

end ExprPrinter
