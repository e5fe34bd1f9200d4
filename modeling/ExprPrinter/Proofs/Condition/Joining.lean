import ExprPrinter.Proofs.Condition.Reader
import ExprPrinter.Form

/-!
# Conditions with an operator between them

What two conditions become if an operator is written between their texts, and
no brackets around them.  With `||` the alternatives of both stand in one list.
With `&&` they are glued together: the last alternative of the one and the first
of the other become one alternative, and that is all that happens to the others.

Both ways of joining are associative, and the empty list is neutral for both, so
that it does not matter how operands are grouped: `Connective.joinAll_append`.
The tokens of what is joined have the operator between them,
`Connective.tokens_joinAll`.
-/

namespace ExprPrinter

open Condition

/-! ## Gluing and appending -/

namespace Condition

/-- Alternatives with `&&` between them: what stands next to the operator is one alternative. -/
def glue : Alternatives → Alternatives → Alternatives
  | [], b => b
  | [row], [] => [row]
  | [row], next :: b => (row ++ next) :: b
  | row :: second :: a, b => row :: glue (second :: a) b

/-- Gluing nothing on changes nothing. -/
theorem glue_nil (a : Alternatives) : glue a [] = a := by
  induction a with
  | nil => rfl
  | cons row a ih =>
    cases a with
    | nil => rfl
    | cons second a => rw [glue, ih]

/-- Only the last row of the first alternatives is glued. -/
theorem glue_cons {a : Alternatives} (h : a ≠ []) (row : List Factor) (b : Alternatives) :
    glue (row :: a) b = row :: glue a b := by
  cases a with
  | nil => exact absurd rfl h
  | cons second a => rfl

/-- Something glued to something is something. -/
theorem glue_ne_nil {a : Alternatives} (h : a ≠ []) (b : Alternatives) : glue a b ≠ [] := by
  rcases a with _ | ⟨row, _ | ⟨second, a⟩⟩
  · exact absurd rfl h
  · cases b with
    | nil => exact h
    | cons next b => exact List.cons_ne_nil _ _
  · exact List.cons_ne_nil _ _

/-- It makes no difference which seam is glued first. -/
theorem glue_assoc (a b c : Alternatives) : glue (glue a b) c = glue a (glue b c) := by
  induction a with
  | nil => rfl
  | cons row a ih =>
    cases a with
    | nil =>
      rcases b with _ | ⟨next, _ | ⟨second, b⟩⟩
      · rfl
      · cases c with
        | nil => rfl
        | cons first c => rw [glue, glue, glue, glue, List.append_assoc]
      · rfl
    | cons second a =>
      rw [glue, glue, glue_cons (glue_ne_nil (List.cons_ne_nil _ _) _), ih]

end Condition

namespace Connective

/-- Alternatives with the operator between them. -/
def join : Connective → Alternatives → Alternatives → Alternatives
  | conjunction => glue
  | disjunction => List.append

/-- Several conditions with the operator between them. -/
def joinAll (c : Connective) (as : List Alternatives) : Alternatives :=
  as.foldr c.join []

/-- The operator as a token. -/
def token : Connective → Token
  | conjunction => .both
  | disjunction => .either

variable (c : Connective)

/-- A connective is written with blanks around its word. -/
theorem token_spelling : c.token.spelling = (" " ++ c.kind.name ++ " ").toList := by
  cases c <;> rfl

/-- Joining nothing on changes nothing. -/
theorem join_nil (a : Alternatives) : c.join a [] = a := by
  cases c with
  | conjunction => exact glue_nil a
  | disjunction => exact List.append_nil a

/-- Joining something to nothing gives that. -/
theorem nil_join (a : Alternatives) : c.join [] a = a := by
  cases c <;> rfl

/-- A connective joins three conditions in either order. -/
theorem join_assoc (a b d : Alternatives) : c.join (c.join a b) d = c.join a (c.join b d) := by
  cases c with
  | conjunction => exact glue_assoc a b d
  | disjunction => exact List.append_assoc a b d

/-- Several conditions are joined by joining the first to the others. -/
theorem joinAll_cons (a : Alternatives) (as : List Alternatives) :
    c.joinAll (a :: as) = c.join a (c.joinAll as) :=
  rfl

/-- Two lists of conditions may be joined apart. -/
theorem joinAll_append (as bs : List Alternatives) :
    c.joinAll (as ++ bs) = c.join (c.joinAll as) (c.joinAll bs) := by
  induction as with
  | nil => exact (nil_join c _).symm
  | cons a as ih => rw [List.cons_append, joinAll_cons, ih, joinAll_cons, join_assoc]

end Connective

/-! ## Tokens -/

namespace Condition

/-- Between two lists that are separated within stands one separator more. -/
theorem intercalate_append {α : Type} (separator : List α) {as bs : List (List α)} (ha : as ≠ [])
    (hb : bs ≠ []) :
    separator.intercalate (as ++ bs) =
      separator.intercalate as ++ separator ++ separator.intercalate bs := by
  induction as with
  | nil => exact absurd rfl ha
  | cons a as ih =>
    cases as with
    | nil =>
      rw [List.singleton_append, List.intercalate_cons_of_ne_nil hb, List.intercalate_singleton]
    | cons b as =>
      rw [List.cons_append, List.intercalate_cons_of_ne_nil (by simp), ih (List.cons_ne_nil _ _),
        List.intercalate_cons_cons]
      simp only [List.append_assoc]

/-- Two rows one after the other are read with a conjunction between them. -/
theorem tokensOfRow_append {row next : List Factor} (hrow : row ≠ []) (hnext : next ≠ []) :
    tokensOfRow (row ++ next) = tokensOfRow row ++ .both :: tokensOfRow next := by
  rw [tokensOfRow, List.map_append,
    intercalate_append _ (by simpa using hrow) (by simpa using hnext), List.append_assoc]
  rfl

/-- Two lists of alternatives one after the other are read with a disjunction between them. -/
theorem tokens_append {a b : Alternatives} (ha : a ≠ []) (hb : b ≠ []) :
    tokens (a ++ b) = tokens a ++ .either :: tokens b := by
  rw [tokens, List.map_append, intercalate_append _ (by simpa using ha) (by simpa using hb),
    List.append_assoc]
  rfl

/-- A single alternative is written as its row. -/
theorem tokens_singleton (row : List Factor) : tokens [row] = tokensOfRow row := by
  rw [tokens, List.map_cons, List.map_nil, List.intercalate_singleton]

/-- A single factor is written as it is. -/
theorem tokens_factor (f : Factor) : tokens [[f]] = f.tokens := by
  rw [tokens_singleton, tokensOfRow, List.map_cons, List.map_nil, List.intercalate_singleton]

/-- One alternative more is written in front of a disjunction. -/
theorem tokens_cons {a : Alternatives} (h : a ≠ []) (row : List Factor) :
    tokens (row :: a) = tokensOfRow row ++ .either :: tokens a := by
  rw [← List.singleton_append, tokens_append (List.cons_ne_nil _ _) h, tokens_singleton]

/-- What is glued is written with a conjunction at the seam. -/
theorem tokens_glue {a b : Alternatives} (ha : ProperAlternatives a) (hb : ProperAlternatives b) :
    tokens (glue a b) = tokens a ++ .both :: tokens b := by
  obtain ⟨hsome, hrows, -⟩ := ha
  induction a with
  | nil => exact absurd rfl hsome
  | cons row a ih =>
    cases a with
    | nil =>
      -- the one place where two alternatives meet: their factors are written in one row
      rcases b with _ | ⟨next, b⟩
      · exact absurd rfl hb.some
      have hjoined := tokensOfRow_append (hrows row List.mem_cons_self)
        (hb.rows next List.mem_cons_self)
      rw [glue, tokens_singleton]
      by_cases hlast : b = []
      · rw [hlast, tokens_singleton, tokens_singleton, hjoined]
      · rw [tokens_cons hlast, tokens_cons hlast, hjoined, List.append_assoc, List.cons_append]
    | cons second a =>
      have hmore := ih (List.cons_ne_nil _ _) fun r hr => hrows r (List.mem_cons_of_mem _ hr)
      rw [glue, tokens_cons (glue_ne_nil (List.cons_ne_nil _ _) _), hmore,
        tokens_cons (List.cons_ne_nil _ _), List.append_assoc, List.cons_append]

/-- Proper alternatives remain so if there are more of them. -/
theorem properAlternatives_append {a b : Alternatives} (ha : ProperAlternatives a)
    (hb : ProperAlternatives b) : ProperAlternatives (a ++ b) where
  some := by simpa using fun h _ => ha.some h
  rows row hrow := (List.mem_append.mp hrow).elim (ha.rows row) (hb.rows row)
  factors row hrow := (List.mem_append.mp hrow).elim (ha.factors row) (hb.factors row)

/-- One row of proper factors is proper. -/
theorem properAlternatives_singleton {row : List Factor} (hne : row ≠ [])
    (h : ∀ f ∈ row, Proper f) : ProperAlternatives [row] where
  some := List.cons_ne_nil _ _
  rows r hr := by rwa [List.mem_singleton.mp hr]
  factors r hr := by rwa [List.mem_singleton.mp hr]

/-- A proper factor alone is proper. -/
theorem properAlternatives_factor {f : Factor} (h : Proper f) : ProperAlternatives [[f]] := by
  apply properAlternatives_singleton (List.cons_ne_nil _ _)
  intro g hg
  rw [List.mem_singleton.mp hg]
  exact h

/-- A row of what is glued is a row of one side, or it is the seam. -/
theorem mem_glue {a b : Alternatives} {row : List Factor} (h : row ∈ glue a b) :
    row ∈ a ∨ row ∈ b ∨ ∃ first ∈ a, ∃ second ∈ b, row = first ++ second := by
  induction a with
  | nil => exact .inr (.inl h)
  | cons last a ih =>
    cases a with
    | nil =>
      cases b with
      | nil => exact .inl h
      | cons next b =>
        rcases List.mem_cons.mp h with rfl | hb
        · exact .inr (.inr ⟨last, List.mem_cons_self, next, List.mem_cons_self, rfl⟩)
        · exact .inr (.inl (List.mem_cons_of_mem _ hb))
    | cons second a =>
      rcases List.mem_cons.mp h with rfl | hmore
      · exact .inl List.mem_cons_self
      · rcases ih hmore with ha | hb | ⟨first, hfirst, hjoined⟩
        · exact .inl (List.mem_cons_of_mem _ ha)
        · exact .inr (.inl hb)
        · exact .inr (.inr ⟨first, List.mem_cons_of_mem _ hfirst, hjoined⟩)

/-- Proper alternatives remain so when they are glued. -/
theorem properAlternatives_glue {a b : Alternatives} (ha : ProperAlternatives a)
    (hb : ProperAlternatives b) : ProperAlternatives (glue a b) where
  some := glue_ne_nil ha.some b
  rows row hrow := by
    rcases mem_glue hrow with h | h | ⟨first, hfirst, second, -, rfl⟩
    · exact ha.rows row h
    · exact hb.rows row h
    · exact List.append_ne_nil_of_left_ne_nil (ha.rows first hfirst) second
  factors row hrow f hf := by
    rcases mem_glue hrow with h | h | ⟨first, hfirst, second, hsecond, rfl⟩
    · exact ha.factors row h f hf
    · exact hb.factors row h f hf
    · rcases List.mem_append.mp hf with hf | hf
      · exact ha.factors first hfirst f hf
      · exact hb.factors second hsecond f hf

end Condition

namespace Connective

variable (c : Connective)

/-- Joining by a connective gives proper alternatives. -/
theorem properAlternatives_join {a b : Alternatives} (ha : ProperAlternatives a)
    (hb : ProperAlternatives b) : ProperAlternatives (c.join a b) := by
  cases c with
  | conjunction => exact properAlternatives_glue ha hb
  | disjunction => exact properAlternatives_append ha hb

/-- What a connective joins is written with its word in between. -/
theorem tokens_join {a b : Alternatives} (ha : ProperAlternatives a) (hb : ProperAlternatives b) :
    tokens (c.join a b) = tokens a ++ c.token :: tokens b := by
  cases c with
  | conjunction => exact tokens_glue ha hb
  | disjunction => exact tokens_append ha.some hb.some

/-- The same for a list of conditions that is not empty. -/
theorem properAlternatives_joinAll {as : List Alternatives} (hne : as ≠ [])
    (h : ∀ a ∈ as, ProperAlternatives a) : ProperAlternatives (c.joinAll as) := by
  induction as with
  | nil => exact absurd rfl hne
  | cons a as ih =>
    have ha := h a List.mem_cons_self
    rw [joinAll_cons]
    by_cases hlast : as = []
    · rw [hlast]
      exact (c.join_nil a).symm ▸ ha
    · exact c.properAlternatives_join ha (ih hlast fun b hb => h b (List.mem_cons_of_mem _ hb))

/-- The same for several conditions, with the word between any two of them. -/
theorem tokens_joinAll {as : List Alternatives} (h : ∀ a ∈ as, ProperAlternatives a) :
    tokens (c.joinAll as) = [c.token].intercalate (as.map tokens) := by
  induction as with
  | nil => rfl
  | cons a as ih =>
    have ha := h a List.mem_cons_self
    have hmore := fun b hb => h b (List.mem_cons_of_mem _ hb)
    rw [joinAll_cons]
    by_cases hlast : as = []
    · rw [hlast, List.map_cons, List.map_nil, List.intercalate_singleton]
      exact congrArg tokens (c.join_nil a)
    · have hproper := c.properAlternatives_joinAll hlast hmore
      rw [c.tokens_join ha hproper, ih hmore, List.map_cons,
        List.intercalate_cons_of_ne_nil (by simpa using hlast), List.append_assoc]
      rfl

end Connective

end ExprPrinter
