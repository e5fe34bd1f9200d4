import ExprPrinter.Text.Entity

/-!
# Reading markup

How a reader gets from markup back to text.  Tags go first: a tag is a less
sign, at least one character that is no greater sign, and then a greater sign.
After that, entities are decoded, in one pass from left to right, so that what
comes out of one entity is never read again as part of another.

Tags and text can be read one after the other as long as no text has a less
sign, and escaped text has none: `strip_tag`, `strip_text` and
`not_mem_escape`.  Decoding undoes escaping: `unescape_escape`.
-/

namespace ExprPrinter.Text

/-! ## Tags -/

/-- What follows the tag of which the less sign has been read, if there is one. -/
def afterTag? (cs : List Char) : Option (List Char) :=
  match cs.takeWhile (· != '>'), cs.dropWhile (· != '>') with
  | _ :: _, _ :: rest => some rest
  | _, _ => none

/-- What is behind a tag is shorter. -/
theorem afterTag?_length {cs rest : List Char} (h : afterTag? cs = some rest) :
    rest.length < cs.length := by
  have hsplit := congrArg List.length (List.takeWhile_append_dropWhile (p := (· != '>')) (l := cs))
  rw [List.length_append] at hsplit
  unfold afterTag? at h
  split at h
  · next d ds c more htake hdrop =>
    cases h
    rw [htake, hdrop, List.length_cons, List.length_cons] at hsplit
    omega
  · cases h

/-- Characters without the tags among them. -/
def strip : List Char → List Char
  | [] => []
  | c :: cs =>
    if c = '<' then
      match _h : afterTag? cs with
      | some rest => strip rest
      | none => c :: strip cs
    else c :: strip cs
termination_by cs => cs.length
decreasing_by
  · have hrest := afterTag?_length _h
    rw [List.length_cons]
    omega
  · exact Nat.lt_succ_self _
  · exact Nat.lt_succ_self _

/-- A text without the tags in it. -/
def stripTags (s : String) : String :=
  String.ofList (strip s.toList)

/-- Only a less sign can begin a tag. -/
theorem strip_cons_of_ne {c : Char} (h : c ≠ '<') (cs : List Char) :
    strip (c :: cs) = c :: strip cs := by
  rw [strip, if_neg h]

/-- Text without a less sign stays. -/
theorem strip_text {cs : List Char} (h : '<' ∉ cs) (rest : List Char) :
    strip (cs ++ rest) = cs ++ strip rest := by
  induction cs with
  | nil => rfl
  | cons c cs ih =>
    rw [List.mem_cons, not_or] at h
    rw [List.cons_append, strip_cons_of_ne (Ne.symm h.1), ih h.2, List.cons_append]

/-- A tag goes up to the first greater sign. -/
theorem afterTag?_append {cs : List Char} (hne : cs ≠ []) (h : '>' ∉ cs) (rest : List Char) :
    afterTag? (cs ++ '>' :: rest) = some rest := by
  have hall : ∀ c ∈ cs, (c != '>') = true := by
    intro c hc
    exact bne_iff_ne.mpr fun heq => h (heq ▸ hc)
  have htake : (cs ++ '>' :: rest).takeWhile (· != '>') = cs := by
    rw [List.takeWhile_append_of_pos hall]
    simp
  have hdrop : (cs ++ '>' :: rest).dropWhile (· != '>') = '>' :: rest := by
    rw [List.dropWhile_append_of_pos hall]
    simp
  obtain ⟨d, ds, rfl⟩ := List.exists_cons_of_ne_nil hne
  rw [afterTag?, htake, hdrop]

/-- A tag goes. -/
theorem strip_tag {cs : List Char} (hne : cs ≠ []) (h : '>' ∉ cs) (rest : List Char) :
    strip ('<' :: cs ++ '>' :: rest) = strip rest := by
  rw [List.cons_append, strip, if_pos rfl]
  split
  · next more hmore =>
    rw [afterTag?_append hne h] at hmore
    rw [Option.some.inj hmore]
  · next hnone =>
    rw [afterTag?_append hne h] at hnone
    cases hnone

/-! ## Entities -/

/-- Characters with the five entities decoded. -/
def decode : List Char → List Char
  | '&' :: 'a' :: 'm' :: 'p' :: ';' :: cs => '&' :: decode cs
  | '&' :: 'l' :: 't' :: ';' :: cs => '<' :: decode cs
  | '&' :: 'g' :: 't' :: ';' :: cs => '>' :: decode cs
  | '&' :: 'q' :: 'u' :: 'o' :: 't' :: ';' :: cs => '"' :: decode cs
  | '&' :: '#' :: 'x' :: '2' :: '7' :: ';' :: cs => '\'' :: decode cs
  | c :: cs => c :: decode cs
  | [] => []

/-- A text with the five entities decoded. -/
def unescape (s : String) : String :=
  String.ofList (decode s.toList)

/-- Only an ampersand can begin an entity. -/
theorem decode_cons_of_ne {c : Char} (h : c ≠ '&') (cs : List Char) :
    decode (c :: cs) = c :: decode cs := by
  rw [decode]
  all_goals intros; exact h ‹_›

/-- The spelling of a character is decoded as that character, whatever follows it. -/
theorem decode_entity (c : Char) (rest : List Char) :
    decode (entity c ++ rest) = c :: decode rest := by
  unfold entity
  split
  · next h => rw [h]; simp [decode]
  split
  · next h => rw [h]; simp [decode]
  split
  · next h => rw [h]; simp [decode]
  split
  · next h => rw [h]; simp [decode]
  split
  · next h => rw [h]; simp [decode]
  · next h _ _ _ _ => exact decode_cons_of_ne h rest

/-- Characters are decoded one by one from their entities. -/
theorem decode_flatMap_entity (cs : List Char) : decode (cs.flatMap entity) = cs := by
  induction cs with
  | nil => simp [decode]
  | cons c cs ih => rw [List.flatMap_cons, decode_entity, ih]

/-- Decoding undoes escaping. -/
theorem unescape_escape (s : String) : unescape (escape s) = s := by
  rw [unescape, toList_escape, decode_flatMap_entity, String.ofList_toList]

/-- A character without an entity stays as it is. -/
theorem entity_of_not_mem {c : Char} (h : c ∉ ['&', '<', '>', '"', '\'']) : entity c = [c] := by
  simp only [List.mem_cons, List.not_mem_nil, or_false, not_or] at h
  obtain ⟨hamp, hlt, hgt, hquot, hapos⟩ := h
  rw [entity, if_neg hamp, if_neg hlt, if_neg hgt, if_neg hquot, if_neg hapos]

/-- No entity has one of the characters that entities are for, except the ampersand. -/
theorem not_mem_entity {q : Char} (hq : q ∈ ['<', '>', '"', '\'']) (c : Char) : q ∉ entity c := by
  by_cases hc : c ∈ ['&', '<', '>', '"', '\'']
  · simp only [List.mem_cons, List.not_mem_nil, or_false] at hq hc
    rcases hc with rfl | rfl | rfl | rfl | rfl
    all_goals rcases hq with rfl | rfl | rfl | rfl <;> decide
  · rw [entity_of_not_mem hc, List.mem_singleton]
    rintro rfl
    exact hc (List.mem_cons_of_mem _ hq)

/-- Escaped text has no angle brackets and no quotes. -/
theorem special_not_mem_escape {q : Char} (hq : q ∈ ['<', '>', '"', '\'']) (s : String) :
    q ∉ (escape s).toList := by
  rw [toList_escape, List.mem_flatMap]
  rintro ⟨c, _, hc⟩
  exact not_mem_entity hq c hc

/-- Escaped text has no less sign. -/
theorem not_mem_escape (s : String) : '<' ∉ (escape s).toList :=
  special_not_mem_escape (by decide) s

end ExprPrinter.Text
