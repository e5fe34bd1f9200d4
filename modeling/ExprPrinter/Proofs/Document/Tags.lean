import ExprPrinter.Category
import ExprPrinter.Proofs.Document.PathSplitting
import ExprPrinter.Proofs.Text.Reading

/-!
# Tags and their paths

A path is its name and its segments, one after the other, so the tags that are
made of a path have no characters but those of the path and of the attributes'
spelling.  A path without a greater sign makes tags that a reader can tell from
text: `strip_opening` and `strip_closing`.  The paths of the categories are all
of this sort.
-/

namespace ExprPrinter

namespace TagPath

/-- The name at the front of a path and its segments spell the path. -/
theorem unsplit_split (cs : List Char) :
    (split cs).1 ++ (split cs).2.flatMap (fun s => s.1 :: s.2) = cs := by
  induction cs with
  | nil => rfl
  | cons c cs ih =>
    rw [split]
    by_cases hc : isMarker c = true
    · simp [hc, ih]
    · simp [hc, ih]

/-- A character that is not in a path is in none of its words. -/
theorem not_mem_words {c : Char} {cs : List Char} (h : c ∉ cs) (marker : Char) :
    ∀ w ∈ words marker (split cs).2, c ∉ w.toList := by
  intro w hw
  obtain ⟨s, hs, rfl⟩ := List.mem_map.mp hw
  rw [String.toList_ofList]
  intro hc
  apply h
  rw [← unsplit_split cs]
  refine List.mem_append_right _ (List.mem_flatMap.mpr ⟨s, (List.mem_filter.mp hs).1, ?_⟩)
  exact List.mem_cons_of_mem _ hc

/-- A character that is neither in a separator nor in the words is not in what they make. -/
theorem not_mem_intercalate {c : Char} {separator : String} (hs : c ∉ separator.toList)
    {ws : List String} (hws : ∀ w ∈ ws, c ∉ w.toList) :
    c ∉ (separator.intercalate ws).toList := by
  induction ws with
  | nil => simp
  | cons w ws ih =>
    have hw : c ∉ w.toList := hws w (List.mem_cons_self ..)
    cases ws with
    | nil => simpa using hw
    | cons v vs =>
      have hrest := ih fun u hu => hws u (List.mem_cons_of_mem _ hu)
      rw [String.intercalate_cons_cons]
      simp only [String.toList_append, List.mem_append, not_or]
      exact ⟨⟨hw, hs⟩, hrest⟩

variable {path : String}

/-- Every element has a name. -/
theorem name_parse_ne_nil (path : String) : (parse path).name.toList ≠ [] := by
  rw [parse_eq]
  dsimp only
  split
  · decide
  · next h =>
    rw [String.toList_ofList]
    exact fun hnil => h (List.isEmpty_iff.mpr hnil)

/-- There is no greater sign in the name if there is none in the path. -/
theorem not_mem_name (h : '>' ∉ path.toList) : '>' ∉ (parse path).name.toList := by
  rw [parse_eq]
  dsimp only
  split
  · decide
  · rw [String.toList_ofList]
    intro hc
    apply h
    rw [← unsplit_split path.toList]
    exact List.mem_append_left _ hc

/-- Nor in the attribute for the id. -/
theorem not_mem_idAttribute (h : '>' ∉ path.toList) :
    '>' ∉ (parse path).idAttribute.toList := by
  rw [idAttribute]
  split
  · decide
  · next id hid =>
    rw [id_parse] at hid
    have hword : '>' ∉ id.toList := not_mem_words h '#' id (List.mem_of_head? hid)
    simp [hword]

/-- Nor in the attribute for the classes. -/
theorem not_mem_classAttribute (h : '>' ∉ path.toList) :
    '>' ∉ (parse path).classAttribute.toList := by
  rw [classAttribute]
  split
  · decide
  · have hwords : '>' ∉ (" ".intercalate (parse path).classes).toList :=
      not_mem_intercalate (by decide) (classes_parse path ▸ not_mem_words h '.')
    simp only [String.toList_append, List.mem_append, not_or]
    exact ⟨⟨by decide, hwords⟩, by decide⟩

/-- The tag that opens an element goes, if its path has no greater sign. -/
theorem strip_opening (h : '>' ∉ path.toList) (rest : List Char) :
    Text.strip ((parse path).opening.toList ++ rest) = Text.strip rest := by
  have hne : (parse path).name.toList ++ (parse path).idAttribute.toList ++
      (parse path).classAttribute.toList ≠ [] := by
    simp [name_parse_ne_nil path]
  have hmem : '>' ∉ (parse path).name.toList ++ (parse path).idAttribute.toList ++
      (parse path).classAttribute.toList := by
    simp only [List.mem_append, not_or]
    exact ⟨⟨not_mem_name h, not_mem_idAttribute h⟩, not_mem_classAttribute h⟩
  have htag := Text.strip_tag hne hmem rest
  simpa [opening] using htag

/-- The tag that closes an element goes, if its path has no greater sign. -/
theorem strip_closing (h : '>' ∉ path.toList) (rest : List Char) :
    Text.strip ((closing (parse path).name).toList ++ rest) = Text.strip rest := by
  have hmem : '>' ∉ '/' :: (parse path).name.toList := by
    rw [List.mem_cons, not_or]
    exact ⟨by decide, not_mem_name h⟩
  have htag := Text.strip_tag (List.cons_ne_nil '/' _) hmem rest
  simpa [closing] using htag

end TagPath

/-- The path of a category has no greater sign. -/
theorem Category.not_mem_path (c : Category) : '>' ∉ c.path.toList := by
  cases c <;> simp [Category.path]

end ExprPrinter
