import ExprPrinter.Document.TagPath

/-!
# Tag paths, taken apart from the right

The reader of tag paths looks for the first marker, cuts the path there, and then
goes from marker to marker.  A path can be taken apart in one go as well, from
the right, and `split` does so: a marker begins a segment with the word behind
it, and any other letter belongs to the word behind it.  Both give the same name
and the same segments, and the reader comes to the first id and to all classes
among them: `parse_eq`.
-/

namespace ExprPrinter.TagPath

/-- The name at the front of a path, and its segments. -/
def split : List Char → List Char × List (Char × List Char)
  | [] => ([], [])
  | c :: cs =>
    let (word, segments) := split cs
    if isMarker c then ([], (c, word) :: segments) else (c :: word, segments)

/-- The words of the segments with the given marker, without empty ones. -/
def words (marker : Char) (segments : List (Char × List Char)) : List String :=
  (segments.filter fun s => s.1 == marker && !s.2.isEmpty).map fun s => String.ofList s.2

/-! ## The cut -/

/-- The first marker is at the front, or it is the first one behind the front. -/
theorem cut_cons (c : Char) (cs : List Char) :
    cut (c :: cs) = if isMarker c then 0 else cut cs + 1 := by
  have hfind (marker : Char) : (c :: cs).idxOf? marker =
      if c == marker then some 0 else (cs.idxOf? marker).map (· + 1) := List.idxOf?_cons
  by_cases hid : c = '#'
  · subst hid
    cases hcls : cs.idxOf? '.' <;> simp [cut, hfind, isMarker, hcls]
  · by_cases hcls : c = '.'
    · subst hcls
      simp [cut, hfind, isMarker]
    · have hletter : isMarker c = false := by simp [isMarker, hid, hcls]
      have hfirst := hfind '#'
      have hsecond := hfind '.'
      rw [if_neg (by simpa using hid)] at hfirst
      rw [if_neg (by simpa using hcls)] at hsecond
      -- all places are one further on
      rw [hletter, if_neg Bool.false_ne_true]
      simp only [cut, List.foldl_cons, List.foldl_nil, hfirst, hsecond, List.length_cons]
      cases cs.idxOf? '#' <;> cases cs.idxOf? '.' <;>
        simp only [Option.map_none, Option.map_some, Option.elim_none, Option.elim_some] <;> omega

/-- The path is cut behind the letters that are no markers. -/
theorem take_cut (cs : List Char) : cs.take (cut cs) = cs.takeWhile (!isMarker ·) := by
  induction cs with
  | nil => rfl
  | cons c cs ih =>
    rw [cut_cons, List.takeWhile_cons]
    cases isMarker c with
    | true => rfl
    | false => exact congrArg (c :: ·) ih

/-- What is behind the cut begins with a marker, if there is anything. -/
theorem drop_cut (cs : List Char) : cs.drop (cut cs) = cs.dropWhile (!isMarker ·) := by
  induction cs with
  | nil => rfl
  | cons c cs ih =>
    rw [cut_cons, List.dropWhile_cons]
    cases isMarker c with
    | true => rfl
    | false => exact ih

/-! ## The segments -/

/-- The letters before the first marker are in no segment. -/
theorem segments_dropWhile (cs : List Char) :
    segments (cs.dropWhile (!isMarker ·)) = segments cs := by
  induction cs with
  | nil => rfl
  | cons c cs ih =>
    rw [List.dropWhile_cons, segments]
    cases hc : isMarker c with
    | true =>
      rw [if_neg (by simp), segments, hc]
    | false => exact ih

/-- **Both ways to take a path apart agree.** -/
theorem split_eq (cs : List Char) :
    split cs = (cs.takeWhile (!isMarker ·), segments cs) := by
  induction cs with
  | nil => rfl
  | cons c cs ih =>
    rw [split, ih, List.takeWhile_cons, segments]
    cases isMarker c <;> rfl

/-- Every segment begins with a marker. -/
theorem isMarker_of_mem_segments {cs : List Char} {s : Char × List Char} (h : s ∈ segments cs) :
    isMarker s.1 = true := by
  fun_induction segments cs with
  | case1 => cases h
  | case2 c cs hc ih =>
    rcases List.mem_cons.mp h with rfl | hrest
    · exact hc
    · exact ih hrest
  | case3 c cs hc ih => exact ih h

/-! ## What is noted of the segments -/

/-- Going through the segments, the first id is kept, and all classes are collected. -/
theorem foldl_note {segments : List (Char × List Char)} (h : ∀ s ∈ segments, isMarker s.1 = true)
    (id : Option String) (classes : List String) :
    segments.foldl note (id, classes) =
      (id <|> (words '#' segments).head?, classes ++ words '.' segments) := by
  induction segments generalizing id classes with
  | nil => simp [words]
  | cons s rest ih =>
    obtain ⟨marker, word⟩ := s
    obtain ⟨hmarker, hrest⟩ := List.forall_mem_cons.mp h
    rw [List.foldl_cons, note]
    cases word with
    | nil =>
      rw [if_pos List.isEmpty_nil, ih hrest]
      simp [words]
    | cons c cs =>
      rw [isMarker, Bool.or_eq_true, beq_iff_eq, beq_iff_eq] at hmarker
      rcases hmarker with rfl | rfl
      · rw [if_neg (by simp), if_pos (by simp), ih hrest]
        cases id <;> simp [words]
      · rw [if_neg (by simp), if_neg (by simp), ih hrest]
        simp [words]

/-- **What a path says about an element**, in terms of its name and its segments. -/
theorem parse_eq (path : String) :
    parse path =
      { name :=
          if (split path.toList).1.isEmpty then "span" else String.ofList (split path.toList).1
        id := (words '#' (split path.toList).2).head?
        classes := words '.' (split path.toList).2 } := by
  have hmarkers : ∀ s ∈ segments path.toList, isMarker s.1 = true :=
    fun _ hs => isMarker_of_mem_segments hs
  have hnote := foldl_note hmarkers none []
  simp only [parse, take_cut, drop_cut, segments_dropWhile, hnote, split_eq]
  rfl

/-- The id is the first word that has its marker. -/
theorem id_parse (path : String) :
    (parse path).id = (words '#' (split path.toList).2).head? := by
  rw [parse_eq]

/-- The classes are all the words that have their marker. -/
theorem classes_parse (path : String) :
    (parse path).classes = words '.' (split path.toList).2 := by
  rw [parse_eq]

end ExprPrinter.TagPath
