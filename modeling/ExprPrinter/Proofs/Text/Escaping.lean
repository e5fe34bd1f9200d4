import ExprPrinter.Proofs.Text.Reading

/-!
# Escaping by replacement

Escaped text can also be made by replacements over the whole text, one after
the other.  A later replacement then goes through the words that earlier ones
have put in.  It finds nothing to replace in them as long as no word has a
character whose turn is still to come, and then it makes no difference whether
the replacements are made in turn or all at once: `toList_replaceInTurn`.  All
five entities begin with an ampersand, so it has to be the first to go.
-/

namespace ExprPrinter.Text

/-- A character and the word that takes its place. -/
structure Replacement where
  char : Char
  word : String

/-- What becomes of one character. -/
def Replacement.spelling (r : Replacement) (c : Char) : List Char :=
  if c = r.char then r.word.toList else [c]

/-- A text with the word in every place of the character. -/
def Replacement.apply (r : Replacement) (s : String) : String :=
  String.ofList (s.toList.flatMap r.spelling)

/-- A text after some replacements, each made in the whole text that the one before has left. -/
def replaceInTurn (rs : List Replacement) (s : String) : String :=
  rs.foldl (fun t r => r.apply t) s

/-- What becomes of one character if all replacements are made at once. -/
def spellingAtOnce (rs : List Replacement) (c : Char) : List Char :=
  match rs.find? (·.char = c) with
  | some r => r.word.toList
  | none => [c]

/-- No word has a character whose turn is still to come. -/
def InOrder (rs : List Replacement) : Prop :=
  rs.Pairwise fun r later => later.char ∉ r.word.toList

/-! ## In turn and at once -/

/-- Characters that stand for themselves make the same text. -/
theorem flatMap_eq_self {f : Char → List Char} {cs : List Char} (h : ∀ c ∈ cs, f c = [c]) :
    cs.flatMap f = cs :=
  calc cs.flatMap f = cs.flatMap (fun c => [c]) := by
        rw [List.flatMap_def, List.map_congr_left h, ← List.flatMap_def]
    _ = cs := List.flatMap_singleton' cs

/-- A replacement goes by characters. -/
theorem Replacement.toList_apply (r : Replacement) (s : String) :
    (r.apply s).toList = s.toList.flatMap r.spelling := by
  rw [Replacement.apply, String.toList_ofList]

/-- It changes nothing if its character is not there. -/
theorem Replacement.apply_of_not_mem {r : Replacement} {s : String} (h : r.char ∉ s.toList) :
    r.apply s = s := by
  have hkept : ∀ c ∈ s.toList, r.spelling c = [c] := by
    intro c hc
    rw [Replacement.spelling, if_neg]
    rintro rfl
    exact h hc
  rw [Replacement.apply, flatMap_eq_self hkept, String.ofList_toList]

/-- The first replacement is made before the others. -/
theorem replaceInTurn_cons (r : Replacement) (rs : List Replacement) (s : String) :
    replaceInTurn (r :: rs) s = replaceInTurn rs (r.apply s) := rfl

/-- Some replacements are made before the others. -/
theorem replaceInTurn_append (first second : List Replacement) (s : String) :
    replaceInTurn (first ++ second) s = replaceInTurn second (replaceInTurn first s) :=
  List.foldl_append

/-- Replacements that find nothing leave the text as it is. -/
theorem replaceInTurn_of_not_mem {rs : List Replacement} {s : String}
    (h : ∀ r ∈ rs, r.char ∉ s.toList) : replaceInTurn rs s = s := by
  induction rs with
  | nil => rfl
  | cons r rs ih =>
    rw [replaceInTurn_cons, Replacement.apply_of_not_mem (h r List.mem_cons_self)]
    exact ih fun r' hr' => h r' (List.mem_cons_of_mem _ hr')

/-- A character that is not replaced stands for itself. -/
theorem spellingAtOnce_of_not_mem {rs : List Replacement} {c : Char}
    (h : ∀ r ∈ rs, r.char ≠ c) : spellingAtOnce rs c = [c] := by
  have hnone : rs.find? (·.char = c) = none := by
    rw [List.find?_eq_none]
    simpa using h
  rw [spellingAtOnce, hnone]

/-- The first replacement that fits is made. -/
theorem spellingAtOnce_cons (r : Replacement) (rs : List Replacement) (c : Char) :
    spellingAtOnce (r :: rs) c = if c = r.char then r.word.toList else spellingAtOnce rs c := by
  by_cases hc : c = r.char
  · rw [if_pos hc, spellingAtOnce, List.find?_cons_of_pos (by simp [hc])]
  · rw [if_neg hc, spellingAtOnce, List.find?_cons_of_neg (by simpa using Ne.symm hc),
      ← spellingAtOnce]

/-- **In turn is at once.**  If no word has a character whose turn is still to come, then
replacements made one after the other change each character as if they were made at once. -/
theorem toList_replaceInTurn {rs : List Replacement} (h : InOrder rs) (s : String) :
    (replaceInTurn rs s).toList = s.toList.flatMap (spellingAtOnce rs) := by
  induction rs generalizing s with
  | nil => exact (flatMap_eq_self fun c _ => rfl).symm
  | cons r rs ih =>
    obtain ⟨hword, hrest⟩ := List.pairwise_cons.mp h
    -- The later replacements go through the word of the first and leave it as it is.
    have hlater : r.word.toList.flatMap (spellingAtOnce rs) = r.word.toList := by
      refine flatMap_eq_self fun c hc => spellingAtOnce_of_not_mem ?_
      rintro r' hr' rfl
      exact hword r' hr' hc
    have hchar : ∀ c, (r.spelling c).flatMap (spellingAtOnce rs) = spellingAtOnce (r :: rs) c := by
      intro c
      rw [spellingAtOnce_cons, Replacement.spelling]
      by_cases hc : c = r.char
      · rw [if_pos hc, if_pos hc, hlater]
      · rw [if_neg hc, if_neg hc, List.flatMap_singleton]
    rw [replaceInTurn_cons, ih hrest, Replacement.toList_apply, List.flatMap_assoc]
    exact congrArg (fun f => s.toList.flatMap f) (funext hchar)

/-! ## The five entities -/

/-- The five replacements that escape a text, the ampersand first. -/
def entities : List Replacement :=
  [⟨'&', "&amp;"⟩, ⟨'<', "&lt;"⟩, ⟨'>', "&gt;"⟩, ⟨'"', "&quot;"⟩, ⟨'\'', "&#x27;"⟩]

/-- The ampersand is replaced first, so no entity is touched by a later replacement. -/
theorem inOrder_entities : InOrder entities := by
  unfold InOrder
  decide

/-- All five entities at once. -/
theorem spellingAtOnce_entities : spellingAtOnce entities = entity := by
  funext c
  simp only [entities, spellingAtOnce_cons]
  rfl

/-- **Escaping in turn is escaping at once.** -/
theorem replaceInTurn_entities (s : String) : replaceInTurn entities s = escape s := by
  rw [← String.toList_inj, toList_replaceInTurn inOrder_entities, spellingAtOnce_entities,
    toList_escape]

/-- **Escaping keeps all of a text.**  Escaped texts follow each other as the texts do, they have no
angle brackets and no quotes, and decoding their entities in one pass gives the text back.  Escaped
text is what five replacements in turn make of the text, and to repeat any of them but that of the
ampersand changes nothing. -/
theorem escape_decodable_homomorphism (s t : String) :
    escape (s ++ t) = escape s ++ escape t ∧
    (∀ c ∈ ['<', '>', '"', '\''], c ∉ (escape s).toList) ∧
    unescape (escape s) = s ∧
    ∀ again ⊆ entities.tail, replaceInTurn (entities ++ again) s = escape s := by
  refine ⟨escape_append s t, fun c hc => special_not_mem_escape hc s, unescape_escape s, ?_⟩
  intro again hagain
  rw [replaceInTurn_append, replaceInTurn_entities]
  apply replaceInTurn_of_not_mem
  intro r hr
  have hspecial : ∀ r ∈ entities.tail, r.char ∈ ['<', '>', '"', '\''] := by decide
  exact special_not_mem_escape (hspecial r (hagain hr)) s

end ExprPrinter.Text
