import ExprPrinter.Proofs.Rendering

/-!
# Strict mode

A strict renderer does the same as one that is not strict, up to the first
value that has no form.  There the other one would begin a sentinel, and the
strict one fails, in every mode with the same failure.  What the other one has
written and warned of says where and how: the text before the sentinel, the
value that its first warning names, and the warnings that follow it, as far as
they come from inside that value.
-/

namespace ExprPrinter

namespace PlainText

variable (width level : Int) (x : Expr)

/-- A strict printer stops at the first gap, and what it has written till then is what the other
printer has before the sentinel. -/
theorem transcript_strict_of_gap {y : Expr} {more : List Expr} (h : x.gaps level = y :: more) :
    ∃ before after : String,
      transcript true width x level = ⟨before, #[], some y⟩ ∧
      indentation width level ++ written width [.slot (.sub x level)] =
        before ++ sentinelText (fallback width y).text ++ after := by
  obtain ⟨before, after, hstrict, hwritten⟩ := outcome_strict_of_gap width h
  refine ⟨indentation width level ++ before, after, ?_, ?_⟩
  · rw [transcript_eq, hstrict]
    rfl
  · simp only [hwritten, String.append_assoc]

/-- The warnings of an expression with a gap begin with one that names the first gap and those
that come from inside it. -/
theorem warned_of_gap {y : Expr} {more : List Expr} (h : x.gaps level = y :: more) :
    ∃ rest : List Warning,
      warned width [.slot (.sub x level)] =
        ⟨.plainText, y.sort⟩ :: ((fallback width y).log.toList ++ rest) := by
  refine ⟨more.flatMap (gapWarnings width), ?_⟩
  rw [warned_eq_gaps, ← Expr.gaps, h, List.flatMap_cons]
  rfl

/-- The makeshift spelling of a value never stops. -/
theorem fallback_eq (y : Expr) :
    fallback width y = ⟨(fallback width y).text, (fallback width y).log.toList.toArray, none⟩ := by
  have hstop : (fallback width y).stop = none :=
    outcome_lenient_stop width (y.fallback.place 0)
  rw [Array.toArray_toList, ← hstop]

end PlainText

/-- **Strict mode cuts the run at its first sentinel.**  For every expression, at every level and
with every width, either nothing is warned of, and strict renderers of all modes put out what the
others do, or they all fail with one failure.  It has the sort that the first warning names, the
spelling in the first sentinel, and the warnings from inside the value; the text before that
sentinel is what the strict printer has written when it stops.  The makeshift spelling of a value
never stops, and is the same for all renderers, strict ones included. -/
theorem strict_cuts_at_first_gap (width level : Int) (x : Expr) :
    ∃ (out : String) (log : List Warning),
      PlainText.render false width x level = .ok (out, log) ∧
      ((log = [] ∧ ∀ mode escape, ∃ output : Output,
          Renderer.render ⟨mode, width, false, escape⟩ x level = .ok (output, []) ∧
          Renderer.render ⟨mode, width, true, escape⟩ x level = .ok (output, [])) ∨
        ∃ (y : Expr) (f before after : String) (inside rest : List Warning),
          y.form? = none ∧
          log = ⟨.plainText, y.sort⟩ :: (inside ++ rest) ∧
          PlainText.fallback width y = ⟨f, inside.toArray, none⟩ ∧
          PlainText.transcript true width x level = ⟨before, #[], some y⟩ ∧
          out = before ++ sentinelText f ++ after ∧
          ∀ mode escape,
            Renderer.render ⟨mode, width, true, escape⟩ x level = .error ⟨y.sort, f, inside⟩) ∧
      ∀ y : Expr, ∃ (f : String) (inside : List Warning),
        PlainText.fallback width y = ⟨f, inside.toArray, none⟩ ∧
        ∀ mode strict escape,
          Renderer.fallback ⟨mode, width, strict, escape⟩ y = (f, inside) := by
  refine ⟨_, _, PlainText.render_lenient width level x, ?_,
    fun y => ⟨_, _, PlainText.fallback_eq width y, fun _ _ _ => rfl⟩⟩
  cases hgaps : x.gaps level with
  | nil =>
    left
    refine ⟨(PlainText.warned_eq_nil_iff width _).mpr hgaps, fun mode escape => ?_⟩
    obtain ⟨output, hlenient⟩ := Renderer.render_lenient_of_no_gap width level x mode escape hgaps
    refine ⟨output, hlenient, ?_⟩
    rw [Renderer.render_strict_of_no_gap width level x mode escape hgaps, hlenient]
  | cons y more =>
    right
    obtain ⟨before, after, hstrict, hout⟩ :=
      PlainText.transcript_strict_of_gap width level x hgaps
    obtain ⟨rest, hlog⟩ := PlainText.warned_of_gap width level x hgaps
    have hnone : y.form? = none :=
      PlainText.form?_of_mem_gaps (hgaps ▸ List.mem_cons_self ..)
    refine ⟨y, (PlainText.fallback width y).text, before, after,
      (PlainText.fallback width y).log.toList, rest, hnone, hlog, PlainText.fallback_eq width y,
      hstrict, hout, fun mode escape => ?_⟩
    rw [Renderer.render_strict_of_gap width level x mode escape hgaps, PlainText.failure]
    simp

end ExprPrinter
