import ExprPrinter.Expr.Lift
import ExprPrinter.Proofs.AtWork
import ExprPrinter.Proofs.Warnings
import Mathlib.Order.Nat

/-!
# Lifting plain data

Lifting goes through plain containers, from left to right and from a key to its
value, and stops at expressions, whatever these hold.  `Expr.reach` lists the values
that it comes to in this way.  If there is an oddity among them, then lifting fails
with the first one: `failure?_lift`.  A host lifts what is not nested too deep for
its calls, and gives up otherwise: `liftsOn`.

Otherwise the result is made of literals, which stand for the plain data, around
expressions that were there before: `lifted_lift`.  So plain data is left over only
inside of those, and if there were none, then everything in the result has a form,
and all printers render it as far as the host grants what is due to it.
-/

namespace ExprPrinter

namespace Expr

/-- The oddity that a value is, if it is one. -/
def oddity? : Expr → Option Oddity
  | plain (.oddity o) => some o
  | _ => none

/-- What is inside a value, through plain containers only. -/
inductive Reaches : Expr → Expr → Prop
  | refl (x : Expr) : Reaches x x
  | step {d : Datum Expr} {x y : Expr} (hx : x ∈ d.parts) (h : Reaches x y) : Reaches (plain d) y

/-- What counts as an oddity is one. -/
theorem eq_of_oddity? {y : Expr} {o : Oddity} (h : y.oddity? = some o) : y = plain (.oddity o) := by
  unfold oddity? at h
  split at h <;> cases h
  rfl

/-! ## Induction through plain containers -/

/-- What holds of every expression, and of plain data if it holds of its parts, holds of every
value. -/
theorem plain_induction {P : Expr → Prop} (model : ∀ x, x.isPlain = false → P x)
    (plain : ∀ d : Datum Expr, (∀ x ∈ d.parts, P x) → P (plain d)) (v : Expr) : P v := by
  induction hn : sizeOf v using Nat.strongRecOn generalizing v with
  | ind n ih =>
    cases v with
    | plain d =>
      apply plain
      intro x hx
      have hlt := sizeOf_lt_of_mem_datumParts hx
      exact ih (sizeOf x) (by omega) x rfl
    | _ => exact model _ rfl

/-! ## What lifting comes to -/

mutual

/-- The values that are inside a value through plain containers, itself included, from left to
right. -/
def reach : Expr → List Expr
  | plain d => plain d :: reachDatum d
  | x => [x]

/-- The values inside plain data. -/
def reachDatum : Datum Expr → List Expr
  | .tuple items => reachAll items
  | .list items => reachAll items
  | .dict entries => reachEntries entries
  | .table _ entries => reachEntries entries
  | _ => []

/-- The values inside several values. -/
def reachAll : List Expr → List Expr
  | [] => []
  | x :: xs => reach x ++ reachAll xs

/-- The values inside the entries of a mapping. -/
def reachEntries : List (Expr × Expr) → List Expr
  | [] => []
  | (k, v) :: rest => reach k ++ reach v ++ reachEntries rest

end

/-- The values inside several values are listed one after the other. -/
theorem reachAll_eq_flatMap (xs : List Expr) : reachAll xs = xs.flatMap reach := by
  induction xs with
  | nil => rfl
  | cons x xs ih => rw [reachAll, ih, List.flatMap_cons]

/-- The values inside entries are listed with each key before its value. -/
theorem reachEntries_eq_flatMap (entries : List (Expr × Expr)) :
    reachEntries entries = (entries.flatMap fun e => [e.1, e.2]).flatMap reach := by
  induction entries with
  | nil => rfl
  | cons e entries ih =>
    rw [reachEntries, ih, List.flatMap_cons, List.flatMap_append, List.flatMap_cons,
      List.flatMap_singleton]

/-- Lifting comes to a container first, and then to its parts. -/
theorem reach_plain (d : Datum Expr) : reach (plain d) = plain d :: d.parts.flatMap reach := by
  cases d with
  | tuple items => rw [reach, reachDatum, reachAll_eq_flatMap, Datum.parts]
  | list items => rw [reach, reachDatum, reachAll_eq_flatMap, Datum.parts]
  | dict entries => rw [reach, reachDatum, reachEntries_eq_flatMap, Datum.parts]
  | table o entries => rw [reach, reachDatum, reachEntries_eq_flatMap, Datum.parts]
  | _ => rfl

/-- It does not go into expressions. -/
theorem reach_of_not_isPlain {x : Expr} (h : x.isPlain = false) : reach x = [x] := by
  cases x with
  | plain d => cases h
  | _ => rfl

/-- The list has exactly the values that are inside through plain containers. -/
theorem mem_reach_iff (v y : Expr) : y ∈ v.reach ↔ Reaches v y := by
  induction v using plain_induction with
  | model x hx =>
    rw [reach_of_not_isPlain hx, List.mem_singleton]
    constructor
    · rintro rfl
      exact .refl y
    · intro h
      cases h with
      | refl => rfl
      | step _ _ => cases hx
  | plain d ih =>
    rw [reach_plain, List.mem_cons, List.mem_flatMap]
    constructor
    · rintro (rfl | ⟨x, hx, hy⟩)
      · exact .refl _
      · exact .step hx ((ih x hx).mp hy)
    · intro h
      cases h with
      | refl => exact .inl rfl
      | step hx hy => exact .inr ⟨_, hx, (ih _ hx).mpr hy⟩

/-! ## Results of lifting -/

/-- Whether a value is a literal, whatever it holds, of one of the sorts that plain data has. -/
def isLiteral : Expr → Bool
  | nil | bool _ | int _ | float _ | ratio _ _ | str _ => true
  | pair _ _ | tuple _ | list _ | mapping _ => true
  | _ => false

/-- Literals around expressions that are inside a given value. -/
inductive Lifted (v : Expr) : Expr → Prop
  | kept {x : Expr} (hx : Reaches v x) (hmodel : x.isPlain = false) : Lifted v x
  | built {x : Expr} (hx : x.isLiteral = true) (h : ∀ y ∈ x.components, Lifted v y) : Lifted v x

/-- Values taken two at a time as pairs. -/
def paired : List Expr → List Expr
  | k :: v :: rest => pair k v :: paired rest
  | _ => []

/-- A pair is made of two of the values. -/
theorem mem_paired {xs : List Expr} {y : Expr} (h : y ∈ paired xs) :
    ∃ k ∈ xs, ∃ v ∈ xs, y = pair k v := by
  fun_induction paired xs with
  | case1 k v rest ih =>
    rcases List.mem_cons.mp h with rfl | hrest
    · exact ⟨k, by simp, v, by simp, rfl⟩
    · obtain ⟨a, ha, b, hb, rfl⟩ := ih hrest
      exact ⟨a, by simp [ha], b, by simp [hb], rfl⟩
  | case2 => cases h

/-- Entries are lifted as the list of their keys and values is. -/
theorem liftEntries_eq (entries : List (Expr × Expr)) :
    liftEntries entries = (liftAll (entries.flatMap fun e => [e.1, e.2])).map paired := by
  induction entries with
  | nil => rfl
  | cons e entries ih =>
    obtain ⟨k, v⟩ := e
    rw [List.flatMap_cons, List.cons_append, List.cons_append, List.nil_append, liftEntries, liftAll,
      liftAll, ih]
    cases lift k with
    | error o => rfl
    | ok key =>
      cases lift v with
      | error o => rfl
      | ok value => cases liftAll (entries.flatMap fun e => [e.1, e.2]) <;> rfl

/-- The entries of a mapping are lifted on a host as the list of their keys and values is. -/
theorem mapM_liftOn_entries (calls : Nat) (entries : List (Expr × Expr)) :
    (entries.mapM fun (e : Expr × Expr) => do
        let key ← liftOn calls e.1
        let value ← liftOn calls e.2
        return pair key value) =
      ((entries.flatMap fun e => [e.1, e.2]).mapM (liftOn calls)).map paired := by
  induction entries with
  | nil => rfl
  | cons e entries ih =>
    rw [List.flatMap_cons, List.cons_append, List.cons_append, List.nil_append, List.mapM_cons,
      List.mapM_cons, List.mapM_cons, ih]
    cases liftOn calls e.1 with
    | error o => rfl
    | ok key =>
      cases liftOn calls e.2 with
      | error o => rfl
      | ok value => cases (entries.flatMap fun e => [e.1, e.2]).mapM (liftOn calls) <;> rfl

/-- **One step of lifting.**  Plain data is an oddity, or its parts are lifted one after the other
and a literal is built of what they become.  On a host there are two calls less for the parts. -/
theorem lift_plain_cases (d : Datum Expr) :
    (∃ o, d = .oddity o) ∨ (plain d).oddity? = none ∧
      ∃ build : List Expr → Expr, lift (plain d) = (liftAll d.parts).map build ∧
        (∀ calls, liftOn (calls + 2) (plain d) = (d.parts.mapM (liftOn calls)).map build) ∧
        ∀ v ws, (∀ w ∈ ws, Lifted v w) → Lifted v (build ws) := by
  cases d with
  | oddity o => exact .inl ⟨o, rfl⟩
  | tuple items =>
    refine .inr ⟨rfl, tuple, rfl, fun calls => ?_, fun v ws h => .built rfl h⟩
    rw [liftOn, Datum.parts]
  | list items =>
    refine .inr ⟨rfl, list, rfl, fun calls => ?_, fun v ws h => .built rfl h⟩
    rw [liftOn, Datum.parts]
  | dict entries | table o entries =>
    refine .inr ⟨rfl, fun ws => mapping (paired ws), ?_, fun calls => ?_,
      fun v ws h => .built rfl fun y hy => ?_⟩
    · rw [lift, liftDatum, liftEntries_eq, Datum.parts]
      cases liftAll (entries.flatMap fun e => [e.1, e.2]) <;> rfl
    · rw [liftOn, mapM_liftOn_entries, Datum.parts]
      cases (entries.flatMap fun e => [e.1, e.2]).mapM (liftOn calls) <;> rfl
    · obtain ⟨a, ha, b, hb, rfl⟩ := mem_paired hy
      refine .built rfl fun z hz => ?_
      rcases List.mem_cons.mp hz with rfl | hz
      · exact h _ ha
      · rw [List.mem_singleton.mp hz]
        exact h _ hb
  | _ =>
    -- an atom has no parts, and neither has its literal
    refine .inr ⟨rfl, fun _ => _, rfl, fun calls => ?_, fun v ws h => .built rfl fun y hy => ?_⟩
    · rw [liftOn]
      rfl
    · cases hy

/-- An expression is lifted to itself. -/
theorem lift_of_not_isPlain {x : Expr} (h : x.isPlain = false) : x.lift = .ok x := by
  cases x with
  | plain d => cases h
  | _ => rfl

/-! ## Failures -/

/-- What a computation fails with, if it fails. -/
def failure? {ε α : Type} : Except ε α → Option ε
  | .error e => some e
  | .ok _ => none

/-- What is made of a result does not change the failure. -/
theorem failure?_map {ε α β : Type} (g : α → β) (r : Except ε α) :
    failure? (r.map g) = failure? r := by
  cases r <;> rfl

/-- A computation fails with an error if this is its result. -/
theorem failure?_eq_some {ε α : Type} {r : Except ε α} {e : ε} :
    failure? r = some e ↔ r = .error e := by
  cases r <;> simp [failure?]

/-- Values lifted one after the other fail as the first of them that does. -/
theorem failure?_liftAll {xs : List Expr}
    (h : ∀ x ∈ xs, failure? x.lift = x.reach.findSome? oddity?) :
    failure? (liftAll xs) = (xs.flatMap reach).findSome? oddity? := by
  induction xs with
  | nil => rfl
  | cons x xs ih =>
    have hx := h x List.mem_cons_self
    have hxs := ih fun y hy => h y (List.mem_cons_of_mem _ hy)
    rw [List.flatMap_cons, List.findSome?_append, ← hx, ← hxs, liftAll]
    cases lift x with
    | error o => rfl
    | ok y => cases liftAll xs <;> rfl

/-- Lifting fails with the first oddity that it comes to. -/
theorem failure?_lift (v : Expr) : failure? v.lift = v.reach.findSome? oddity? := by
  induction v using plain_induction with
  | model x hx =>
    have hnone : x.oddity? = none := by
      cases x with
      | plain d => cases hx
      | _ => rfl
    rw [lift_of_not_isPlain hx, reach_of_not_isPlain hx, List.findSome?_singleton, hnone]
    rfl
  | plain d ih =>
    rcases lift_plain_cases d with ⟨o, rfl⟩ | ⟨hnone, build, hlift, _, _⟩
    · rfl
    · rw [hlift, failure?_map, failure?_liftAll ih, reach_plain, List.findSome?_cons, hnone]

/-! ## Successes -/

/-- What several values are lifted to is what each of them is lifted to. -/
theorem mem_of_liftAll {xs ws : List Expr} (h : liftAll xs = .ok ws) :
    ∀ w ∈ ws, ∃ x ∈ xs, x.lift = .ok w := by
  induction xs generalizing ws with
  | nil =>
    cases h
    intro w hw
    cases hw
  | cons x xs ih =>
    rw [liftAll] at h
    cases hx : lift x with
    | error o =>
      rw [hx] at h
      cases h
    | ok y =>
      cases hxs : liftAll xs with
      | error o =>
        rw [hx, hxs] at h
        cases h
      | ok ys =>
        rw [hx, hxs] at h
        cases h
        intro w hw
        rcases List.mem_cons.mp hw with rfl | hrest
        · exact ⟨x, List.mem_cons_self, hx⟩
        · obtain ⟨z, hz, hlift⟩ := ih hxs w hrest
          exact ⟨z, List.mem_cons_of_mem _ hz, hlift⟩

/-- What is made from a part of a container is made from the container. -/
theorem Lifted.of_part {d : Datum Expr} {x w : Expr} (hx : x ∈ d.parts) (h : Lifted x w) :
    Lifted (plain d) w := by
  induction h with
  | kept hreach hmodel => exact .kept (.step hx hreach) hmodel
  | built hliteral _ ih => exact .built hliteral ih

/-- What a value is lifted to is made of literals around expressions inside of it. -/
theorem lifted_lift (v : Expr) : ∀ w, v.lift = .ok w → Lifted v w := by
  induction v using plain_induction with
  | model x hx =>
    intro w hw
    rw [lift_of_not_isPlain hx] at hw
    cases hw
    exact .kept (.refl x) hx
  | plain d ih =>
    intro w hw
    rcases lift_plain_cases d with ⟨o, rfl⟩ | ⟨_, build, hlift, _, hbuild⟩
    · cases hw
    · rw [hlift] at hw
      cases hparts : liftAll d.parts with
      | error o =>
        rw [hparts] at hw
        cases hw
      | ok ws =>
        rw [hparts] at hw
        cases hw
        apply hbuild
        intro w hw
        obtain ⟨x, hx, hxw⟩ := mem_of_liftAll hparts w hw
        exact (ih x hx w hxw).of_part hx

/-- The values on a way down from one value to another inside of it, both included. -/
inductive Way : Expr → Expr → List Expr → Prop
  | here (x : Expr) : Way x x [x]
  | down {x y z : Expr} {way : List Expr} (hy : y ∈ x.components) (h : Way y z way) :
      Way x z (x :: way)

/-- Every way down to plain data comes through an expression that was there before. -/
theorem Lifted.exists_kept {v w y : Expr} {way : List Expr} (h : Lifted v w) (hway : Way w y way)
    (hplain : y.isPlain = true) : ∃ m ∈ way, m.isPlain = false ∧ Reaches v m := by
  induction h generalizing way with
  | @kept x hx hmodel =>
    have hfirst : x ∈ way := by
      cases hway <;> exact List.mem_cons_self
    exact ⟨x, hfirst, hmodel, hx⟩
  | built hliteral _ ih =>
    cases hway with
    | here =>
      cases y with
      | plain d => cases hliteral
      | _ => cases hplain
    | down hy hrest =>
      obtain ⟨m, hm, hkept⟩ := ih _ hy hrest
      exact ⟨m, List.mem_cons_of_mem _ hm, hkept⟩

/-- A literal has a form, and the parts of its script are what it holds. -/
theorem exists_form_of_isLiteral {x : Expr} (h : x.isLiteral = true) :
    ∃ f : Form, x.form? = some f ∧ f.script.parts = x.components := by
  cases x with
  | tuple items => exact ⟨_, rfl, Script.parts_enclosed "(" items "," ")"⟩
  | list items => exact ⟨_, rfl, Script.parts_enclosed "[" items "," "]"⟩
  | mapping entries => exact ⟨_, rfl, Script.parts_mapping entries⟩
  | uint | char | sym | quoted | node | plain => cases h
  | _ => exact ⟨_, rfl, rfl⟩

/-- If nothing was an expression before, then everything has a form. -/
theorem Lifted.gaps_eq_nil {v w : Expr} (h : Lifted v w)
    (hplain : ∀ y, Reaches v y → y.isPlain = true) (level : Int) : w.gaps level = [] := by
  induction h generalizing level with
  | kept hx hmodel =>
    rw [hplain _ hx] at hmodel
    cases hmodel
  | built hliteral _ ih =>
    obtain ⟨f, hf, hparts⟩ := exists_form_of_isLiteral hliteral
    apply gaps_of_parts hf
    rw [hparts]
    exact ih

/-! ## On a host -/

/-- How deep a value is nested in plain containers, itself included. -/
def nesting : Expr → Nat
  | plain d => (d.parts.attach.map fun x => x.1.nesting).foldr max 0 + 1
  | _ => 1
termination_by x => sizeOf x
decreasing_by exact sizeOf_lt_of_mem_datumParts x.2

/-- A container is nested once more than the deepest of its parts. -/
theorem nesting_plain (d : Datum Expr) :
    (plain d).nesting = (d.parts.map nesting).foldr max 0 + 1 := by
  rw [nesting, List.attach_map_val (f := nesting)]

/-- Every value is nested once at least. -/
theorem nesting_pos (x : Expr) : 0 < x.nesting := by
  unfold nesting
  split <;> omega

/-- An expression is not nested deeper, whatever it holds. -/
theorem nesting_of_not_isPlain {x : Expr} (h : x.isPlain = false) : x.nesting = 1 := by
  unfold nesting
  split
  · cases h
  · rfl

/-- There are enough calls for plain data if there are enough for its parts inside of them. -/
theorem two_mul_nesting_plain_le_iff (d : Datum Expr) (calls : Nat) :
    2 * (plain d).nesting ≤ calls + 2 ↔ ∀ x ∈ d.parts, 2 * x.nesting ≤ calls := by
  rw [nesting_plain]
  constructor
  · intro h x hx
    have hle : x.nesting ≤ (d.parts.map nesting).foldr max 0 :=
      List.le_max_of_le' 0 (List.mem_map_of_mem hx) (Nat.le_refl _)
    omega
  · intro h
    have hle : (d.parts.map nesting).foldr max 0 ≤ calls / 2 := by
      refine List.max_le_of_forall_le (d.parts.map nesting) (calls / 2) fun n hn => ?_
      obtain ⟨x, hx, rfl⟩ := List.mem_map.mp hn
      have hx := h x hx
      omega
    omega

/-- With so many calls, some values are lifted one after the other as they are without a host, for
which there have to be enough calls unless it fails before; or the host gives up, for want of
calls. -/
def LiftsAllOn (calls : Nat) (xs : List Expr) : Prop :=
  (xs.mapM (liftOn calls) = (liftAll xs).mapError .unliftable ∧
    ((∃ ws, liftAll xs = .ok ws) → ∀ x ∈ xs, 2 * x.nesting ≤ calls)) ∨
  ((∃ x ∈ xs, calls < 2 * x.nesting) ∧
    xs.mapM (liftOn calls) = .error (.breakdown .tooDeepToLift))

/-- The same for one value. -/
def LiftsOn (calls : Nat) (x : Expr) : Prop :=
  (liftOn calls x = x.lift.mapError .unliftable ∧
    ((∃ w, x.lift = .ok w) → 2 * x.nesting ≤ calls)) ∨
  (calls < 2 * x.nesting ∧ liftOn calls x = .error (.breakdown .tooDeepToLift))

/-- If it is so for each of some values, then for all, one after the other. -/
theorem liftsAllOn_of_forall {calls : Nat} {xs : List Expr} (h : ∀ x ∈ xs, LiftsOn calls x) :
    LiftsAllOn calls xs := by
  induction xs with
  | nil => exact .inl ⟨rfl, fun _ x hx => by cases hx⟩
  | cons x xs ih =>
    have hrest := ih fun y hy => h y (List.mem_cons_of_mem _ hy)
    unfold LiftsAllOn
    rw [List.mapM_cons, liftAll]
    rcases h x List.mem_cons_self with ⟨hx, hfits⟩ | ⟨hdeep, hx⟩
    · rw [hx]
      cases hlift : x.lift with
      | error o => exact .inl ⟨rfl, fun ⟨ws, hws⟩ => by cases hws⟩
      | ok y =>
        rcases hrest with ⟨hxs, hfitsAll⟩ | ⟨⟨z, hz, hdeep⟩, hxs⟩
        · rw [hxs]
          cases hall : liftAll xs with
          | error o => exact .inl ⟨rfl, fun ⟨ws, hws⟩ => by cases hws⟩
          | ok ys =>
            refine .inl ⟨rfl, fun _ => ?_⟩
            exact List.forall_mem_cons.mpr ⟨hfits ⟨y, hlift⟩, hfitsAll ⟨ys, hall⟩⟩
        · refine .inr ⟨⟨z, List.mem_cons_of_mem _ hz, hdeep⟩, ?_⟩
          rw [hxs]
          rfl
    · refine .inr ⟨⟨x, List.mem_cons_self, hdeep⟩, ?_⟩
      rw [hx]
      rfl

/-- Two calls are enough for an expression. -/
theorem liftOn_of_not_isPlain {x : Expr} (h : x.isPlain = false) (calls : Nat) :
    liftOn (calls + 2) x = .ok x := by
  cases x with
  | plain d => cases h
  | _ => rfl

/-- Less than two calls are not enough for anything. -/
theorem liftOn_of_lt_two {calls : Nat} (h : calls < 2) (x : Expr) :
    liftOn calls x = .error (.breakdown .tooDeepToLift) := by
  match calls with
  | 0 => rfl
  | 1 => rfl

/-- **Lifting on a host.**  Every value is lifted as it is without a host, or there are not enough
calls. -/
theorem liftsOn (calls : Nat) (v : Expr) : LiftsOn calls v := by
  induction v using plain_induction generalizing calls with
  | model x hx =>
    have hnesting := nesting_of_not_isPlain hx
    match calls with
    | 0 | 1 => exact .inr ⟨by omega, liftOn_of_lt_two (by omega) x⟩
    | calls + 2 =>
      refine .inl ⟨?_, fun _ => by omega⟩
      rw [liftOn_of_not_isPlain hx, lift_of_not_isPlain hx]
      rfl
  | plain d ih =>
    have hpos := (plain d).nesting_pos
    match calls with
    | 0 | 1 => exact .inr ⟨by omega, liftOn_of_lt_two (by omega) _⟩
    | calls + 2 =>
      have hle := two_mul_nesting_plain_le_iff d calls
      rcases lift_plain_cases d with ⟨o, rfl⟩ | ⟨_, build, hlift, hliftOn, _⟩
      · exact .inl ⟨rfl, fun ⟨w, hw⟩ => by cases hw⟩
      · rcases liftsAllOn_of_forall fun x hx => ih x hx calls with ⟨hparts, hfits⟩ | ⟨hdeep, hparts⟩
        · refine .inl ⟨?_, fun ⟨w, hw⟩ => hle.mpr (hfits ?_)⟩
          · rw [hliftOn, hparts, hlift]
            cases liftAll d.parts <;> rfl
          · rw [hlift] at hw
            cases hall : liftAll d.parts with
            | error o =>
              rw [hall] at hw
              cases hw
            | ok ws => exact ⟨ws, rfl⟩
        · obtain ⟨x, hx, hdeep⟩ := hdeep
          refine .inr ⟨Nat.lt_of_not_le fun hfits => ?_, ?_⟩
          · have hxfits := hle.mp hfits x hx
            omega
          · rw [hliftOn, hparts]
            rfl

/-- What is lifted on a host is lifted without one, and there were enough calls. -/
theorem lift_of_lift_host {host : Host} {v w : Expr} (h : host.lift v = .ok w) :
    2 * v.nesting ≤ host.calls ∧ v.lift = .ok w := by
  have hliftOn : liftOn host.calls v = .ok w := h
  rcases liftsOn host.calls v with ⟨hlift, hfits⟩ | ⟨_, hlift⟩
  · rw [hlift] at hliftOn
    cases hv : v.lift with
    | error o =>
      rw [hv] at hliftOn
      cases hliftOn
    | ok y =>
      rw [hv] at hliftOn
      cases hliftOn
      exact ⟨hfits ⟨w, hv⟩, rfl⟩
  · rw [hlift] at hliftOn
    cases hliftOn

end Expr

open ExprPrinter.Expr

/-- What a strict printer makes of an expression in which everything has a form: a result without
warnings, or the host refuses something that is due to the expression. -/
theorem Config.renderAt_of_no_gap (c : Config) {mode : Mode} {choices : Choices} (site : Site)
    {w : Expr} {level : Int} (hgaps : w.gaps level = []) :
    (∃ output : Output, (c.printer mode choices).renderAt site w level = .ok (output, [])) ∨
      ∃ (d : Demand) (b : Breakdown), d.IsDue (choices.width.getD c.indentWidth) w level ∧
        site.host.refusal? d = some b ∧
        (c.printer mode choices).renderAt site w level = .error (.breakdown b) := by
  rw [renderAt_printer]
  rcases (c.renderer mode choices).renderOn_cases site.host w level with
    ⟨_, hrender⟩ | ⟨before, d, after, b, hasked, _, hd, hrender⟩
  · left
    obtain ⟨output, hok⟩ := Renderer.exists_render_of_no_gap level w (c.renderer mode choices) hgaps
    rw [hrender, hok]
    exact ⟨output, rfl⟩
  · have hmem : d ∈ (c.renderer mode choices).asked w level := hasked ▸ by simp
    exact .inr ⟨d, b, Renderer.isDue_of_mem_asked hmem, hd, hrender⟩

/-- **Lifting fails at oddities and nowhere else.**  A value is lifted unless an oddity is inside of
it through plain containers, mappings of foreign types included.  If lifting fails, then with the
first oddity from left to right, a key coming before its value, and the message names its type.  This
is what a host does that has two calls for each level of nesting; another one may give up instead,
and it lifts nothing for which it has not enough calls.

If lifting succeeds, then on every way down to plain data in the result there is an expression that
was inside the value before.  If there were no such expressions, then the printers of all modes,
strict or not, render the result, at every level and with every width, and warn of nothing, unless
the host refuses something that is due to the result. -/
theorem lifting_fails_at_first_oddity (v : Expr) (host : Host) :
    (∀ y, y ∈ v.reach ↔ Reaches v y) ∧
    ((∃ o, v.lift = .error o) ↔ ∃ o, Reaches v (plain (.oddity o))) ∧
    (∀ o, v.lift = .error o ↔ ∃ (before : List Expr) (y : Expr) (after : List Expr),
      v.reach = before ++ y :: after ∧ y.oddity? = some o ∧ ∀ z ∈ before, z.oddity? = none) ∧
    (∀ (y : Expr) (o : Oddity), y.oddity? = some o →
      (Fault.unliftable o).message = "cannot lift " ++ y.sort ++ " into an expression") ∧
    (2 * v.nesting ≤ host.calls → host.lift v = v.lift.mapError .unliftable) ∧
    (host.lift v = v.lift.mapError .unliftable ∨
      host.lift v = .error (.breakdown .tooDeepToLift)) ∧
    ∀ w, host.lift v = .ok w →
      2 * v.nesting ≤ host.calls ∧ v.lift = .ok w ∧
      (∀ y way, Way w y way → y.isPlain = true → ∃ m ∈ way, m.isPlain = false ∧ Reaches v m) ∧
      ((∀ y, Reaches v y → y.isPlain = true) →
        ∀ (c : Config) (mode : Mode) (choices : Choices) (site : Site) (level : Int),
          (∃ output : Output, (c.printer mode choices).renderAt site w level = .ok (output, [])) ∨
            ∃ (d : Demand) (b : Breakdown), d.IsDue (choices.width.getD c.indentWidth) w level ∧
              site.host.refusal? d = some b ∧
              (c.printer mode choices).renderAt site w level = .error (.breakdown b)) := by
  have hfails : ∀ o, v.lift = .error o ↔ v.reach.findSome? oddity? = some o := by
    intro o
    rw [← failure?_lift, failure?_eq_some]
  refine ⟨mem_reach_iff v, ?_, fun o => ?_, fun y o hy => ?_, fun hcalls => ?_, ?_,
    fun w hw => ?_⟩
  · constructor
    · rintro ⟨o, ho⟩
      obtain ⟨y, hy, hoddity⟩ := List.exists_of_findSome?_eq_some ((hfails o).mp ho)
      rw [eq_of_oddity? hoddity, mem_reach_iff] at hy
      exact ⟨o, hy⟩
    · rintro ⟨o, ho⟩
      have hsome : (v.reach.findSome? oddity?).isSome = true :=
        List.findSome?_isSome_iff.mpr ⟨_, (mem_reach_iff v _).mpr ho, rfl⟩
      obtain ⟨first, hfirst⟩ := Option.isSome_iff_exists.mp hsome
      exact ⟨first, (hfails first).mpr hfirst⟩
  · rw [hfails, List.findSome?_eq_some_iff]
  · rw [eq_of_oddity? hy]
    rfl
  · rcases liftsOn host.calls v with ⟨hlift, _⟩ | ⟨hdeep, _⟩
    · exact hlift
    · omega
  · rcases liftsOn host.calls v with ⟨hlift, _⟩ | ⟨_, hlift⟩
    · exact .inl hlift
    · exact .inr hlift
  · obtain ⟨hfits, hlift⟩ := lift_of_lift_host hw
    refine ⟨hfits, hlift, fun y way hway hplain => ?_, fun hplain c mode choices site level => ?_⟩
    · exact (lifted_lift v w hlift).exists_kept hway hplain
    · exact c.renderAt_of_no_gap site ((lifted_lift v w hlift).gaps_eq_nil hplain level)

-- A key comes before its value, however deep the oddity is in it.
example (o p : Oddity) :
    lift (plain (.dict [(plain (.tuple [nil, plain (.oddity o)]), plain (.oddity p))])) = .error o :=
  rfl

/-- A tuple of nothing is lifted, and then rendered strictly as HTML. -/
theorem lifted_tuple_rendered :
    Host.lift {} (plain (.tuple [plain .absent])) = .ok (tuple [nil]) ∧
    ∃ output : Output,
      (Config.printer {} .html { strict := some true }).renderAt {} (tuple [nil]) 2 =
        .ok (output, []) := by
  obtain ⟨_, _, _, _, hhost, _, hok⟩ :=
    lifting_fails_at_first_oddity (plain (.tuple [plain .absent])) {}
  have hlift : Host.lift {} (plain (.tuple [plain .absent])) = .ok (tuple [nil]) :=
    hhost (by simp [nesting_plain, Datum.parts])
  obtain ⟨_, _, _, hrender⟩ := hok _ hlift
  refine ⟨hlift, ?_⟩
  have hplain : ∀ y, Reaches (plain (.tuple [plain .absent])) y → y.isPlain = true := by
    intro y hy
    cases hy with
    | refl => rfl
    | step hx h =>
      cases List.mem_singleton.mp hx
      cases h with
      | refl => rfl
      | step hx _ => cases hx
  rcases hrender hplain {} .html { strict := some true } {} 2 with hdone | ⟨d, b, hdue, hrefused, _⟩
  · exact hdone
  · have hgranted : Host.refusal? {} d = none := by
      refine Host.refusal?_of_isDue ?decimals ?plain ?lines hdue
      case decimals =>
        intro y hy n hn
        rcases eq_of_isWithin_of_components rfl rfl hy with rfl | rfl <;> cases hn
      case plain =>
        intro y hy hyplain
        rcases eq_of_isWithin_of_components rfl rfl hy with rfl | rfl <;> cases hyplain
      case lines => simp [depth_eq, components]
    cases hrefused.symm.trans hgranted

/-- A mapping of any foreign type is lifted.  And what was lifted is not always rendered strictly:
the line of the only entry of this dictionary begins with no spaces, but with too large a negative
number of them to be counted. -/
theorem lifted_entry_breaks_down :
    (∀ o : Oddity, Host.lift {} (plain (.table o [])) = .ok (mapping [])) ∧
    ∃ w : Expr, Host.lift {} (plain (.dict [(plain (.int 1), plain (.int 2))])) = .ok w ∧
      (Config.printer {} .text
          { width := some (-1000000000000000000000000000000), strict := some true }).renderAt {} w 0 =
        .error (.breakdown .countOverflow) := by
  refine ⟨fun o => rfl, mapping [pair (int 1) (int 2)], rfl, ?_⟩
  have hasked (width : Int) : PlainText.asked .plainText true width
      [.slot (.sub (mapping [pair (int 1) (int 2)]) 0)] = .spaces (1 * width) :: _ :=
    PlainText.asked_form_cons _ _ _ (f := .mapping [pair (int 1) (int 2)]) rfl 0 []
  rw [Config.renderAt_printer]
  show Host.granting {} (_ :: PlainText.asked .plainText true _
    [.slot (.sub (mapping [pair (int 1) (int 2)]) 0)]) _ = _
  rw [hasked]
  rfl

end ExprPrinter
