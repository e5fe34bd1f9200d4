import ExprPrinter.Proofs.Document.Tags

/-!
# Tags that can be read back

A path is plain if it has nothing but letters, digits, hyphens, underscores and
markers.  The words of such a path, which are its name, its id and its classes,
have no character that ends a word in a tag.  So the tag that opens its element
says all that the path says, whatever follows the tag: `opening_inj`.

The reading is always the same step.  A text without a certain character can
be told from what follows it, if that is nothing or begins with the character:
`append_inj_of_ends`.
-/

namespace ExprPrinter

/-- Nothing, or something that begins with the given character. -/
def Ends (d : Char) (cs : List Char) : Prop :=
  cs = [] ∨ ∃ rest, cs = d :: rest

/-- Something ends at the end. -/
theorem ends_nil (d : Char) : Ends d [] :=
  Or.inl rfl

/-- Something ends at its delimiter. -/
theorem ends_cons (d : Char) (rest : List Char) : Ends d (d :: rest) :=
  Or.inr ⟨rest, rfl⟩

/-- A text without a character can be told from what follows it, if that ends the text. -/
theorem append_inj_of_ends {d : Char} {as bs cs ds : List Char} (ha : d ∉ as) (hb : d ∉ bs)
    (hc : Ends d cs) (hd : Ends d ds) (h : as ++ cs = bs ++ ds) : as = bs ∧ cs = ds := by
  have htake : ∀ {es fs : List Char}, d ∉ es → Ends d fs →
      (es ++ fs).takeWhile (· != d) = es := by
    intro es fs he hf
    have hall : ∀ c ∈ es, (c != d) = true := by
      intro c hc
      exact bne_iff_ne.mpr fun heq => he (heq ▸ hc)
    rw [List.takeWhile_append_of_pos hall]
    rcases hf with rfl | ⟨rest, rfl⟩ <;> simp
  have heq : as = bs := by
    rw [← htake ha hc, h, htake hb hd]
  subst heq
  exact ⟨rfl, List.append_cancel_left h⟩

namespace TagPath

/-- The characters of the words in a plain path. -/
def isWordChar (c : Char) : Bool :=
  c.isAlphanum || c == '-' || c == '_'

/-- A path of letters, digits, hyphens, underscores and markers. -/
def IsPlain (path : String) : Prop :=
  ∀ c ∈ path.toList, isWordChar c = true ∨ isMarker c = true

instance (path : String) : Decidable (IsPlain path) :=
  decidable_of_iff (path.toList.all fun c => isWordChar c || isMarker c) (by simp [IsPlain])

/-- A word of a plain path: it is not empty, and has no marker. -/
def IsWord (w : String) : Prop :=
  w.toList ≠ [] ∧ ∀ c ∈ w.toList, isWordChar c = true

/-! ## The words of a plain path -/

/-- No word of a path has a marker inside. -/
theorem not_marker_of_mem_split (cs : List Char) :
    (∀ c ∈ (split cs).1, isMarker c = false) ∧
      ∀ s ∈ (split cs).2, ∀ c ∈ s.2, isMarker c = false := by
  induction cs with
  | nil => simp [split]
  | cons c cs ih =>
    rw [split]
    dsimp only
    by_cases hc : isMarker c = true
    · rw [if_pos hc]
      refine ⟨by simp, ?_⟩
      intro s hs
      rcases List.mem_cons.mp hs with rfl | hs
      · exact ih.1
      · exact ih.2 s hs
    · rw [if_neg hc]
      refine ⟨?_, ih.2⟩
      intro d hd
      rcases List.mem_cons.mp hd with rfl | hd
      · simpa using hc
      · exact ih.1 d hd

/-- The letters of the words are letters of the path. -/
theorem mem_of_mem_split {cs : List Char} {c : Char} :
    (c ∈ (split cs).1 → c ∈ cs) ∧ ∀ s ∈ (split cs).2, c ∈ s.2 → c ∈ cs := by
  have hsplit := unsplit_split cs
  constructor
  · intro hc
    rw [← hsplit]
    exact List.mem_append_left _ hc
  · intro s hs hc
    rw [← hsplit]
    exact List.mem_append_right _ (List.mem_flatMap.mpr ⟨s, hs, List.mem_cons_of_mem _ hc⟩)

variable {path : String}

/-- The words of a plain path have word characters only. -/
theorem isWord_of_mem_words (h : IsPlain path) {marker : Char} {w : String}
    (hw : w ∈ words marker (split path.toList).2) : IsWord w := by
  obtain ⟨s, hs, rfl⟩ := List.mem_map.mp hw
  obtain ⟨hs, hkept⟩ := List.mem_filter.mp hs
  rw [IsWord, String.toList_ofList]
  refine ⟨?_, ?_⟩
  · intro hnil
    simp [hnil] at hkept
  · intro c hc
    have hmarker := (not_marker_of_mem_split path.toList).2 s hs c hc
    rcases h c (mem_of_mem_split.2 s hs hc) with hword | hmark
    · exact hword
    · rw [hmarker] at hmark
      cases hmark

/-- So has its name, also if it has none and is called a span. -/
theorem isWord_name (h : IsPlain path) : IsWord (parse path).name := by
  refine ⟨name_parse_ne_nil path, ?_⟩
  rw [parse_eq]
  dsimp only
  split
  · have hspan : "span".toList.all isWordChar = true := by decide
    exact List.all_eq_true.mp hspan
  · rw [String.toList_ofList]
    intro c hc
    have hmarker := (not_marker_of_mem_split path.toList).1 c hc
    rcases h c (mem_of_mem_split.1 hc) with hword | hmark
    · exact hword
    · rw [hmarker] at hmark
      cases hmark

/-- So has its id. -/
theorem isWord_id (h : IsPlain path) {w : String} (hw : (parse path).id = some w) : IsWord w :=
  isWord_of_mem_words h (List.mem_of_head? ((id_parse path).symm.trans hw))

/-- So have its classes. -/
theorem isWord_class (h : IsPlain path) : ∀ w ∈ (parse path).classes, IsWord w := by
  rw [classes_parse]
  exact fun _ hw => isWord_of_mem_words h hw

/-- There is no greater sign in a plain path. -/
theorem IsPlain.not_greater (h : IsPlain path) : '>' ∉ path.toList := by
  intro hmem
  rcases h '>' hmem with hword | hmark
  · revert hword
    decide
  · revert hmark
    decide

/-! ## Reading a tag -/

/-- A character that words cannot have is not in this one. -/
theorem IsWord.not_mem {w : String} (h : IsWord w) {d : Char} (hd : isWordChar d = false) :
    d ∉ w.toList := by
  intro hmem
  rw [h.2 d hmem] at hd
  cases hd

/-- What follows the first of some words is nothing, or a blank and the others. -/
theorem toList_intercalate_cons (w : String) (ws : List String) :
    ∃ rest, (" ".intercalate (w :: ws)).toList = w.toList ++ rest ∧ Ends ' ' rest ∧
      ((ws = [] ∧ rest = []) ∨ (ws ≠ [] ∧ rest = ' ' :: (" ".intercalate ws).toList)) := by
  cases ws with
  | nil => exact ⟨[], by simp, ends_nil _, Or.inl ⟨rfl, rfl⟩⟩
  | cons v vs =>
    refine ⟨' ' :: (" ".intercalate (v :: vs)).toList, ?_, ends_cons _ _, Or.inr ⟨by simp, rfl⟩⟩
    rw [String.intercalate_cons_cons]
    simp

/-- Words with blanks between them can be told apart. -/
theorem intercalate_inj {ws vs : List String} (hws : ∀ w ∈ ws, IsWord w) (hvs : ∀ v ∈ vs, IsWord v)
    (hne : ws ≠ []) (hne' : vs ≠ [])
    (h : (" ".intercalate ws).toList = (" ".intercalate vs).toList) : ws = vs := by
  induction ws generalizing vs with
  | nil => exact absurd rfl hne
  | cons w ws ih =>
    obtain ⟨v, vs, rfl⟩ := List.exists_cons_of_ne_nil hne'
    obtain ⟨rest, hw, hends, hrest⟩ := toList_intercalate_cons w ws
    obtain ⟨rest', hv, hends', hrest'⟩ := toList_intercalate_cons v vs
    rw [hw, hv] at h
    obtain ⟨hword, heq⟩ := append_inj_of_ends
      ((hws w List.mem_cons_self).not_mem (by decide))
      ((hvs v List.mem_cons_self).not_mem (by decide)) hends hends' h
    have hwv : w = v := String.toList_inj.mp hword
    rw [hwv]
    rcases hrest with ⟨rfl, rfl⟩ | ⟨hmore, rfl⟩
    · rcases hrest' with ⟨rfl, _⟩ | ⟨_, rfl⟩
      · rfl
      · cases heq
    · rcases hrest' with ⟨_, rfl⟩ | ⟨hmore', rfl⟩
      · cases heq
      · rw [ih (fun u hu => hws u (List.mem_cons_of_mem _ hu))
          (fun u hu => hvs u (List.mem_cons_of_mem _ hu)) hmore hmore' (List.cons.inj heq).2]

/-- An attribute of classes is not one of an id. -/
theorem classAttribute_ne_id (t : TagPath) (cs : List Char) :
    t.classAttribute.toList ≠ ' ' :: 'i' :: cs := by
  rw [classAttribute]
  split <;> simp

/-- The attributes begin with a blank, if there are any. -/
theorem ends_attributes (t : TagPath) :
    Ends ' ' (t.idAttribute.toList ++ t.classAttribute.toList) := by
  rw [idAttribute]
  cases t.id with
  | some w =>
    refine Or.inr ⟨"id=\"".toList ++ w.toList ++ '"' :: t.classAttribute.toList, ?_⟩
    simp
  | none =>
    rw [classAttribute]
    by_cases hnil : t.classes.isEmpty = true
    · left
      simp [hnil]
    · refine Or.inr ⟨"class=\"".toList ++ (" ".intercalate t.classes).toList ++ ['"'], ?_⟩
      simp [hnil]

variable {path' : String}

/-- The classes of a plain path can be read from their attribute. -/
theorem classAttribute_inj (h : IsPlain path) (h' : IsPlain path')
    (heq : (parse path).classAttribute.toList = (parse path').classAttribute.toList) :
    (parse path).classes = (parse path').classes := by
  rw [classAttribute, classAttribute] at heq
  by_cases hnil : (parse path).classes = []
  · by_cases hnil' : (parse path').classes = []
    · rw [hnil, hnil']
    · simp [hnil, hnil'] at heq
  · by_cases hnil' : (parse path').classes = []
    · simp [hnil, hnil'] at heq
    · apply intercalate_inj (isWord_class h) (isWord_class h') hnil hnil'
      simpa [hnil, hnil'] using heq

/-- The attributes say what the id and the classes are. -/
theorem attributes_inj (h : IsPlain path) (h' : IsPlain path')
    (heq : (parse path).idAttribute.toList ++ (parse path).classAttribute.toList =
      (parse path').idAttribute.toList ++ (parse path').classAttribute.toList) :
    (parse path).id = (parse path').id ∧ (parse path).classes = (parse path').classes := by
  rw [idAttribute, idAttribute] at heq
  cases hid : (parse path).id with
  | none =>
    cases hid' : (parse path').id with
    | none =>
      simp only [hid, hid', String.toList_empty, List.nil_append] at heq
      exact ⟨rfl, classAttribute_inj h h' heq⟩
    | some v =>
      simp only [hid, hid', String.toList_append, String.toList_empty, List.nil_append] at heq
      exact absurd heq (classAttribute_ne_id _ _)
  | some w =>
    cases hid' : (parse path').id with
    | none =>
      simp only [hid, hid', String.toList_append, String.toList_empty, List.nil_append] at heq
      exact absurd heq.symm (classAttribute_ne_id _ _)
    | some v =>
      have hcut : w.toList ++ '"' :: (parse path).classAttribute.toList =
          v.toList ++ '"' :: (parse path').classAttribute.toList := by
        simpa [hid, hid'] using heq
      obtain ⟨hword, hclass⟩ := append_inj_of_ends
        ((isWord_id h hid).not_mem (by decide)) ((isWord_id h' hid').not_mem (by decide))
        (ends_cons '"' _) (ends_cons '"' _) hcut
      have hwv : w = v := String.toList_inj.mp hword
      rw [hwv]
      exact ⟨rfl, classAttribute_inj h h' (List.cons.inj hclass).2⟩

/-- What stands between the signs of a tag has no greater sign. -/
theorem not_greater_inside (h : IsPlain path) :
    '>' ∉ (parse path).name.toList ++
      ((parse path).idAttribute.toList ++ (parse path).classAttribute.toList) := by
  have hpath := h.not_greater
  rw [List.mem_append, List.mem_append, not_or, not_or]
  exact ⟨not_mem_name hpath, not_mem_idAttribute hpath, not_mem_classAttribute hpath⟩

/-- **Tags can be read back.**  The tag that opens the element of a plain path says all that the
path says, whatever follows the tag. -/
theorem opening_inj (h : IsPlain path) (h' : IsPlain path') {cs ds : List Char}
    (heq : (parse path).opening.toList ++ cs = (parse path').opening.toList ++ ds) :
    parse path = parse path' ∧ cs = ds := by
  have hshape : ∀ (t : TagPath) (es : List Char), t.opening.toList ++ es =
      '<' :: ((t.name.toList ++ (t.idAttribute.toList ++ t.classAttribute.toList)) ++
        '>' :: es) := by
    intro t es
    simp [opening]
  rw [hshape, hshape] at heq
  obtain ⟨hinside, hafter⟩ := append_inj_of_ends (not_greater_inside h) (not_greater_inside h')
    (ends_cons '>' _) (ends_cons '>' _) (List.cons.inj heq).2
  obtain ⟨hname, hattributes⟩ := append_inj_of_ends
    ((isWord_name h).not_mem (by decide)) ((isWord_name h').not_mem (by decide))
    (ends_attributes _) (ends_attributes _) hinside
  obtain ⟨hid, hclasses⟩ := attributes_inj h h' hattributes
  have hparse : ∀ {t u : TagPath}, t.name = u.name → t.id = u.id → t.classes = u.classes →
      t = u := by
    rintro ⟨n, i, cs⟩ ⟨_, _, _⟩ rfl rfl rfl
    rfl
  exact ⟨hparse (String.toList_inj.mp hname) hid hclasses, (List.cons.inj hafter).2⟩

end TagPath

end ExprPrinter
