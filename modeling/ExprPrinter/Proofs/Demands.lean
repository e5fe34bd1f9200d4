import ExprPrinter.Demand
import ExprPrinter.Proofs.Form.Containment
import ExprPrinter.Proofs.Markup.Assembly

/-!
# What is asked of a host

`asked` lists all that a printer asks of its host for a list of pieces, in the
order in which it asks.  A value without a form is spelled by the plain-text
printer, and a strict printer asks for nothing more after that.

The list comes from the forms of the values alone, and does not know of any
host.  Nothing else is asked for than what the values inside of an expression
give rise to: their integers, plain data to be inspected, and the indentation
of their lines, which is not deeper than they are: `isDue_of_mem_asked`.
-/

namespace ExprPrinter

namespace PlainText

/-- What a printer asks for while it goes through a list of pieces. -/
def asked (printer : Reporter) (strict : Bool) (width : Int) : Agenda → List Demand
  | [] => []
  | .text _ :: rest => asked printer strict width rest
  | .slot (.indent _) :: rest => asked printer strict width rest
  | .slot (.sub x level) :: rest =>
    x.demands printer width level ++
      match _h : x.form? with
      | some f => asked printer strict width (f.script.place level ++ rest)
      | none =>
        asked .plainText false width (x.fallback.place 0) ++
          if strict then [] else asked printer strict width rest
termination_by agenda => (Script.weigh agenda, agenda.length)
decreasing_by
  · apply Prod.Lex.right' <;> simp
  · apply Prod.Lex.right' <;> simp
  · apply Prod.Lex.left
    simpa using Expr.weigh_script_lt _h level
  · apply Prod.Lex.left
    have hfallback := x.weigh_fallback_lt
    simp only [Script.weigh_place, Script.weigh_sub]
    omega
  · apply Prod.Lex.left
    simpa using x.sizeOf_pos

variable (printer : Reporter) (strict : Bool) (width : Int)

@[simp] theorem asked_nil : asked printer strict width [] = [] := by
  rw [asked]

@[simp] theorem asked_text (s : String) (rest : Agenda) :
    asked printer strict width (.text s :: rest) = asked printer strict width rest := by
  rw [asked]

@[simp] theorem asked_indent (level : Int) (rest : Agenda) :
    asked printer strict width (.slot (.indent level) :: rest) =
      asked printer strict width rest := by
  rw [asked]

/-- For an expression with a form: its own demands, and then those of its script. -/
theorem asked_form_cons {x : Expr} {f : Form} (h : x.form? = some f) (level : Int)
    (rest : Agenda) :
    asked printer strict width (.slot (.sub x level) :: rest) =
      x.demands printer width level ++ asked printer strict width (f.script.place level ++ rest) := by
  rw [asked]
  split
  · next g hg => rw [Option.some.inj (hg.symm.trans h)]
  · next hnone => cases hnone.symm.trans h

/-- For a value without a form: its own demands, those of its spelling, and, unless the printer is
strict, those of the rest. -/
theorem asked_gap_cons {x : Expr} (h : x.form? = none) (level : Int) (rest : Agenda) :
    asked printer strict width (.slot (.sub x level) :: rest) =
      x.demands printer width level ++
        (asked .plainText false width (x.fallback.place 0) ++
          if strict then [] else asked printer strict width rest) := by
  rw [asked]
  split
  · next g hg => cases h.symm.trans hg
  · rfl

/-- What is asked for two lists together is what is asked for the first, and then what is asked for
the second, unless a strict printer does not come to it. -/
theorem asked_append (first second : Agenda) :
    asked printer strict width (first ++ second) =
      asked printer strict width first ++
        if strict = true ∧ gaps first ≠ [] then [] else asked printer strict width second := by
  induction first using agenda_induction with
  | nil => simp
  | text s rest ih => rw [List.cons_append, asked_text, asked_text, gaps_text, ih]
  | indent level rest ih => rw [List.cons_append, asked_indent, asked_indent, gaps_indent, ih]
  | form x level rest f hf ih =>
    rw [List.append_assoc] at ih
    rw [List.cons_append, asked_form_cons printer strict width hf,
      asked_form_cons printer strict width hf, gaps_form_cons hf, ih, List.append_assoc]
  | gap x level rest hf ih _ =>
    rw [List.cons_append, asked_gap_cons printer strict width hf,
      asked_gap_cons printer strict width hf, gaps_gap_cons hf]
    cases strict with
    | true => simp
    | false => simpa using ih

/-- A printer that is not strict comes to everything. -/
theorem asked_append_lenient (first second : Agenda) :
    asked printer false width (first ++ second) =
      asked printer false width first ++ asked printer false width second := by
  simp [asked_append]

/-- For a sentinel, only its spelling makes demands. -/
theorem asked_sentinel_append (x : Expr) (level : Int) (rest : Agenda) :
    asked printer false width (x.sentinel.place level ++ rest) =
      asked printer false width (x.fallback.place 0) ++ asked printer false width rest := by
  rw [place_sentinel, asked_append_lenient, asked_append_lenient, asked_text]
  simp

/-! ## Layouts -/

/-- The letters of a text ask for nothing. -/
theorem asked_letters_text_append (s : String) (rest : Agenda) :
    asked printer strict width ((Piece.text s).letters ++ rest) =
      asked printer strict width rest := by
  rw [Piece.letters]
  induction s.toList with
  | nil => rfl
  | cons c cs ih => rw [List.map_cons, List.cons_append, asked_text, ih]

/-- It makes no difference where a text is cut. -/
theorem asked_letters_append (agenda rest : Agenda) :
    asked printer strict width (Script.letters agenda ++ rest) =
      asked printer strict width (agenda ++ rest) := by
  induction agenda with
  | nil => rfl
  | cons p more ih =>
    rw [Script.letters_cons, List.append_assoc, List.cons_append]
    cases p with
    | text s => rw [asked_letters_text_append, asked_text, ih]
    | slot s =>
      rw [asked_append, ih]
      exact (asked_append printer strict width [.slot s] (more ++ rest)).symm

/-- A layout makes the demands of the script. -/
theorem asked_layout_append (f : Form) (level : Int) (rest : Agenda) :
    asked printer strict width ((f.layout.place level).letters ++ rest) =
      asked printer strict width (f.script.place level ++ rest) := by
  rw [letters_placed_layout, asked_letters_append]

end PlainText

/-! ## Where demands come from -/

/-- A value that comes up at a level while an expression is printed at another level: it is within
the expression, and either no more steps to the right of it than there is room for, or no more than
that to the right of the left edge. -/
structure ComesUp (x : Expr) (level : Int) (y : Expr) (l : Int) : Prop where
  within : y.IsWithin x
  steps : ∃ k : Nat, k + y.depth ≤ x.depth ∧ (l = level + k ∨ l = k)

namespace ComesUp

variable {x y z : Expr} {level l : Int}

/-- An expression comes up in itself. -/
theorem refl (x : Expr) (level : Int) : ComesUp x level x level :=
  ⟨.refl, 0, by omega, .inl (by simp)⟩

/-- What comes up in the place of a value comes up as well. -/
theorem expand (h : ComesUp x level y l) {m : Margin}
    (hz : Piece.slot (.sub z m) ∈ y.expansion) : ComesUp x level z (m.level l) := by
  have hpart : z ∈ y.expansion.parts := List.mem_filterMap.mpr ⟨_, hz, rfl⟩
  have hinside := Expr.isInside_of_mem_expansion hpart
  have hlt := hinside.depth_lt
  obtain ⟨k, hk, hl⟩ := h.steps
  refine ⟨hinside.to_reflTransGen.trans h.within, ?_⟩
  cases m with
  | here => exact ⟨k, by omega, hl⟩
  | deeper =>
    refine ⟨k + 1, by omega, ?_⟩
    rcases hl with rfl | rfl
    · exact .inl (by simp [Margin.level, Int.add_assoc])
    · exact .inr (by simp [Margin.level])
  | edge => exact ⟨0, by omega, .inr rfl⟩

/-- The level of a line that is begun for a value, too, is not too far to the right. -/
theorem line (h : ComesUp x level y l) (m : Margin) :
    ∃ k : Nat, k ≤ x.depth ∧ (m.level l = level + k ∨ m.level l = k) := by
  have hpos := y.depth_pos
  obtain ⟨k, hk, hl⟩ := h.steps
  cases m with
  | here => exact ⟨k, by omega, hl⟩
  | deeper =>
    refine ⟨k + 1, by omega, ?_⟩
    rcases hl with rfl | rfl
    · exact .inl (by simp [Margin.level, Int.add_assoc])
    · exact .inr (by simp [Margin.level])
  | edge => exact ⟨0, by omega, .inr rfl⟩

end ComesUp

/-- A demand that an expression printed at a level gives rise to. -/
def Demand.IsDue (width : Int) (x : Expr) (level : Int) (d : Demand) : Prop :=
  (∃ y : Expr, y.IsWithin x ∧ ∃ n ∈ y.decimals, d = .decimal n) ∨
    (∃ y : Expr, y.IsWithin x ∧ y.isPlain = true ∧ d = .inspection y) ∨
    ∃ k : Nat, k ≤ x.depth ∧ (d = .spaces ((level + k) * width) ∨ d = .spaces (k * width))

/-- A host refuses nothing that is due to an expression, if it writes the integers of the expression
and inspects the plain data in it, and counts as many spaces as there can be in front of a line. -/
theorem Host.refusal?_of_isDue {host : Host} {width level : Int} {x : Expr} {d : Demand}
    (hdecimals : ∀ y : Expr, y.IsWithin x → ∀ n ∈ y.decimals, n.natAbs < Nat.pow 10 host.digits)
    (hplain : ∀ y : Expr, y.IsWithin x → y.isPlain = true →
      host.inspectionFailure? host.calls y = none)
    (hlines : (level.natAbs + x.depth) * width.natAbs < host.counts)
    (h : d.IsDue width x level) : host.refusal? d = none := by
  have hcount {n : Int} (hn : n.natAbs ≤ level.natAbs + x.depth) :
      host.refusal? (.spaces (n * width)) = none := by
    have hspaces : (n * width).natAbs < host.counts := by
      rw [Int.natAbs_mul]
      exact Nat.lt_of_le_of_lt (Nat.mul_le_mul_right _ hn) hlines
    exact if_pos (by omega)
  rcases h with ⟨y, hy, n, hn, rfl⟩ | ⟨y, hy, hyplain, rfl⟩ | ⟨k, hk, rfl | rfl⟩
  · exact if_pos (hdecimals y hy n hn)
  · exact hplain y hy hyplain
  · exact hcount (by omega)
  · exact hcount (by omega)

/-- The demands of a value that comes up are due to the expression. -/
theorem ComesUp.isDue {x y : Expr} {level l width : Int} (h : ComesUp x level y l)
    {printer : Reporter} {d : Demand} (hd : d ∈ y.demands printer width l) :
    d.IsDue width x level := by
  unfold Expr.demands at hd
  split at hd
  · rcases List.mem_append.mp hd with hdecimal | hspaces
    · obtain ⟨n, hn, rfl⟩ := List.mem_map.mp hdecimal
      exact .inl ⟨y, h.within, n, hn, rfl⟩
    · obtain ⟨m, _, rfl⟩ := List.mem_map.mp hspaces
      obtain ⟨k, hk, hl⟩ := h.line m
      refine .inr (.inr ⟨k, hk, ?_⟩)
      rcases hl with hl | hl
      · exact .inl (by rw [hl])
      · exact .inr (by rw [hl])
  · split at hd
    · next hplain =>
      cases List.mem_singleton.mp hd
      exact .inr (.inl ⟨y, h.within, hplain, rfl⟩)
    · cases hd

namespace PlainText

/-- The subexpressions of an expansion put at a level. -/
theorem exists_of_mem_place {s : Script} {y : Expr} {level l : Int}
    (h : Piece.slot (.sub y l) ∈ s.place level) :
    ∃ m : Margin, Piece.slot (.sub y m) ∈ s ∧ l = m.level level := by
  obtain ⟨p, hp, hmove⟩ := List.mem_map.mp h
  cases p with
  | text t => cases hmove
  | slot t =>
    cases t with
    | indent m => cases hmove
    | sub z m =>
      cases hmove
      exact ⟨m, hp, rfl⟩

/-- What comes up in the place of a value that comes up. -/
theorem comesUp_of_mem_place {x y z : Expr} {level l k : Int} (h : ComesUp x level y l)
    (hz : Piece.slot (.sub z k) ∈ y.expansion.place l) : ComesUp x level z k := by
  obtain ⟨m, hm, rfl⟩ := exists_of_mem_place hz
  exact h.expand hm

/-- If all that is in a list comes up in an expression, then what is asked for the list is due to
the expression. -/
theorem isDue_of_mem_asked {x : Expr} {level width : Int} {d : Demand} {agenda : Agenda}
    (hagenda : ∀ y l, Piece.slot (.sub y l) ∈ agenda → ComesUp x level y l) :
    ∀ printer strict, d ∈ asked printer strict width agenda → d.IsDue width x level := by
  induction agenda using agenda_induction with
  | nil =>
    intro printer strict hd
    rw [asked_nil] at hd
    cases hd
  | text s rest ih =>
    intro printer strict hd
    rw [asked_text] at hd
    exact ih (fun y l hy => hagenda y l (List.mem_cons_of_mem _ hy)) printer strict hd
  | indent l rest ih =>
    intro printer strict hd
    rw [asked_indent] at hd
    exact ih (fun y l hy => hagenda y l (List.mem_cons_of_mem _ hy)) printer strict hd
  | form y l rest f hf ih =>
    intro printer strict hd
    have hy := hagenda y l List.mem_cons_self
    rw [asked_form_cons printer strict width hf] at hd
    rcases List.mem_append.mp hd with hown | hlater
    · exact hy.isDue hown
    · refine ih (fun z k hz => ?_) printer strict hlater
      rcases List.mem_append.mp hz with hscript | hrest
      · rw [← Expr.expansion_of_form hf] at hscript
        exact comesUp_of_mem_place hy hscript
      · exact hagenda z k (List.mem_cons_of_mem _ hrest)
  | gap y l rest hf ihrest ih =>
    intro printer strict hd
    have hy := hagenda y l List.mem_cons_self
    have hrest : ∀ z k, Piece.slot (.sub z k) ∈ rest → ComesUp x level z k :=
      fun z k hz => hagenda z k (List.mem_cons_of_mem _ hz)
    rw [asked_gap_cons printer strict width hf] at hd
    rcases List.mem_append.mp hd with hown | hlater
    · exact hy.isDue hown
    · rcases List.mem_append.mp hlater with hspelling | hafter
      · -- the spelling is asked for as a part of the sentinel
        refine ih (fun z k hz => ?_) .plainText false ?_
        · rcases List.mem_append.mp hz with hsentinel | hz
          · rw [← Expr.expansion_of_gap hf] at hsentinel
            exact comesUp_of_mem_place hy hsentinel
          · exact hrest z k hz
        · rw [asked_sentinel_append]
          exact List.mem_append_left _ hspelling
      · cases strict with
        | true => cases hafter
        | false => exact ihrest hrest printer false hafter

/-- **Everything that is asked for while an expression is printed is due to it.** -/
theorem isDue_of_mem_asked_sub {x : Expr} {level width : Int} {d : Demand} {printer : Reporter}
    {strict : Bool} (h : d ∈ asked printer strict width [.slot (.sub x level)]) :
    d.IsDue width x level := by
  refine isDue_of_mem_asked (fun y l hy => ?_) printer strict h
  cases List.mem_singleton.mp hy
  exact .refl x level

end PlainText

end ExprPrinter
