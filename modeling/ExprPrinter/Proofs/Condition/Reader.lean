import ExprPrinter.Expr.Basic

/-!
# Reading conditions

How a reader takes the text of a condition: names, calls, brackets, and the two
operators, of which `&&` binds tighter than `||`.  What is read is a list of
alternatives, and every alternative a list of factors: `a && (b || c) || d` has
the two alternatives `a && (b || c)` and `d`, and the second factor of the first
one is a group.

The text is cut into tokens first.  A bracket right behind a name is the opening
of a call, and one token with it.  The tokens then go through a machine that
keeps the alternatives read so far at every open bracket.  It takes nothing that
is not a condition: operands and operators have to alternate, and brackets have
to match.

Everything that can be read has one text with single blanks, and that text reads
as what it was made from, `read_spell`.
-/

namespace ExprPrinter.Condition

/-! ## Conditions as they are read -/

/-- What an operand of `&&` is as it is read.  A list of factors is an alternative, and a list of
alternatives is a condition. -/
inductive Factor where
  | name (s : String)
  | call (callee : String) (arguments : List (List (List Factor)))
  /-- A condition in brackets. -/
  | group (condition : List (List Factor))

/-- The alternatives that stand between the operators `||`, each with its factors. -/
abbrev Alternatives := List (List Factor)

/-- The characters that end a name. -/
def delimiters : List Char := [' ', '(', ')', ',', '&', '|']

/-- The names that can be told apart from what stands around them. -/
def IsName (s : String) : Prop :=
  s ≠ "" ∧ ∀ c ∈ s.toList, c ∉ delimiters

instance (s : String) : Decidable (IsName s) :=
  @instDecidableAnd _ _ (inferInstanceAs (Decidable (s ≠ "")))
    (List.decidableBAll (fun c => c ∉ delimiters) s.toList)

/-- A name has a letter. -/
theorem IsName.toList_ne_nil {s : String} (h : IsName s) : s.toList ≠ [] :=
  fun hnil => h.1 (String.toList_eq_nil_iff.mp hnil)

/-- Factors in which all names are names, and in which no alternative and no condition is empty. -/
inductive Proper : Factor → Prop
  | name {s : String} (h : IsName s) : Proper (.name s)
  | call {callee : String} {arguments : List Alternatives} (h : IsName callee)
      (hsome : ∀ a ∈ arguments, a ≠ []) (hrows : ∀ a ∈ arguments, ∀ row ∈ a, row ≠ [])
      (hfactors : ∀ a ∈ arguments, ∀ row ∈ a, ∀ f ∈ row, Proper f) :
      Proper (.call callee arguments)
  | group {a : Alternatives} (hsome : a ≠ []) (hrows : ∀ row ∈ a, row ≠ [])
      (hfactors : ∀ row ∈ a, ∀ f ∈ row, Proper f) : Proper (.group a)

/-- Alternatives that can be read: at least one, none of them empty, with proper factors. -/
structure ProperAlternatives (a : Alternatives) : Prop where
  some : a ≠ []
  rows : ∀ row ∈ a, row ≠ []
  factors : ∀ row ∈ a, ∀ f ∈ row, Proper f

/-! ## Tokens -/

/-- The tokens of a condition. -/
inductive Token where
  | name (s : String)
  /-- A bracket, with the name right before it if there is one. -/
  | opening (callee : Option String)
  | closing
  | comma
  | both
  | either

namespace Token

/-- How a token is written, with the blanks around it. -/
def spelling : Token → List Char
  | name s => s.toList
  | opening none => ['(']
  | opening (some callee) => callee.toList ++ ['(']
  | closing => [')']
  | comma => [',', ' ']
  | both => [' ', '&', '&', ' ']
  | either => [' ', '|', '|', ' ']

/-- Whether a token begins with a character that ends a name. -/
def delimits : Token → Bool
  | name _ | opening _ => false
  | closing | comma | both | either => true

end Token

/-- The text of several tokens. -/
def spell (ts : List Token) : List Char :=
  ts.flatMap Token.spelling

/-- Tokens are spelled one after the other. -/
theorem spell_cons (t : Token) (ts : List Token) : spell (t :: ts) = t.spelling ++ spell ts :=
  List.flatMap_cons

/-- So are lists of tokens. -/
theorem spell_append (ts us : List Token) : spell (ts ++ us) = spell ts ++ spell us :=
  List.flatMap_append

/-- Tokens in brackets are spelled between the brackets. -/
theorem spell_enclosed (t : Token) (ts : List Token) :
    spell (t :: ts ++ [.closing]) = t.spelling ++ spell ts ++ [')'] := by
  rw [spell_append, spell_cons]
  rfl

/-- Separated tokens are spelled with the spelling of the separator between them. -/
theorem spell_intercalate (t : Token) (tss : List (List Token)) :
    spell ([t].intercalate tss) = t.spelling.intercalate (tss.map spell) := by
  induction tss with
  | nil => rfl
  | cons ts tss ih =>
    cases tss with
    | nil =>
      rw [List.map_cons, List.map_nil, List.intercalate_singleton, List.intercalate_singleton]
    | cons us tss =>
      have htoken : spell [t] = t.spelling := List.append_nil _
      rw [List.intercalate_cons_cons, spell_append, spell_append, ih, htoken, List.map_cons,
        List.map_cons, List.map_cons, List.intercalate_cons_cons]

mutual

/-- The tokens of a factor. -/
def Factor.tokens : Factor → List Token
  | .name s => [.name s]
  | .call callee arguments =>
    .opening (some callee) :: [.comma].intercalate (argumentTokens arguments) ++ [.closing]
  | .group a => .opening none :: [.either].intercalate (rowTokens a) ++ [.closing]

/-- The tokens of each factor of an alternative. -/
def factorTokens : List Factor → List (List Token)
  | [] => []
  | f :: row => f.tokens :: factorTokens row

/-- The tokens of each alternative. -/
def rowTokens : List (List Factor) → List (List Token)
  | [] => []
  | row :: a => [.both].intercalate (factorTokens row) :: rowTokens a

/-- The tokens of each argument. -/
def argumentTokens : List (List (List Factor)) → List (List Token)
  | [] => []
  | a :: arguments => [.either].intercalate (rowTokens a) :: argumentTokens arguments

end

/-- The tokens of one alternative. -/
def tokensOfRow (row : List Factor) : List Token :=
  [.both].intercalate (row.map Factor.tokens)

/-- The tokens of a condition. -/
def tokens (a : Alternatives) : List Token :=
  [.either].intercalate (a.map tokensOfRow)

/-- The factors of a row are written one by one. -/
theorem factorTokens_eq_map (row : List Factor) : factorTokens row = row.map Factor.tokens := by
  induction row with
  | nil => rfl
  | cons f row ih => rw [factorTokens, ih, List.map_cons]

/-- So are the alternatives. -/
theorem rowTokens_eq_map (a : Alternatives) : rowTokens a = a.map tokensOfRow := by
  induction a with
  | nil => rfl
  | cons row a ih => rw [rowTokens, ih, factorTokens_eq_map, List.map_cons, tokensOfRow]

/-- So are the arguments of a call. -/
theorem argumentTokens_eq_map (arguments : List Alternatives) :
    argumentTokens arguments = arguments.map tokens := by
  induction arguments with
  | nil => rfl
  | cons a arguments ih => rw [argumentTokens, ih, rowTokens_eq_map, List.map_cons, tokens]

/-- A call is its name with an opening bracket, the arguments between commas, and a closing bracket.
-/
theorem Factor.tokens_call (callee : String) (arguments : List Alternatives) :
    (Factor.call callee arguments).tokens =
      .opening (some callee) :: [.comma].intercalate (arguments.map Condition.tokens) ++
        [.closing] := by
  rw [Factor.tokens, argumentTokens_eq_map]

/-- A group is its alternatives in brackets. -/
theorem Factor.tokens_group (a : Alternatives) :
    (Factor.group a).tokens = .opening none :: Condition.tokens a ++ [.closing] := by
  rw [Factor.tokens, rowTokens_eq_map, Condition.tokens]

/-! ## From text to tokens -/

/-- The token for a word that has come to its end, if there is a word. -/
def finished (word : List Char) : List Token :=
  if word = [] then [] else [.name (String.ofList word)]

/-- The tokens of a text, if the given word has been read before it. -/
def lexFrom (word : List Char) : List Char → List Token
  | [] => finished word
  | ' ' :: cs => finished word ++ lexFrom [] cs
  | '(' :: cs =>
    .opening (if word = [] then none else some (String.ofList word)) :: lexFrom [] cs
  | ')' :: cs => finished word ++ .closing :: lexFrom [] cs
  | ',' :: cs => finished word ++ .comma :: lexFrom [] cs
  | '&' :: '&' :: cs => finished word ++ .both :: lexFrom [] cs
  | '|' :: '|' :: cs => finished word ++ .either :: lexFrom [] cs
  | c :: cs => lexFrom (word ++ [c]) cs

/-- The tokens of a text. -/
def lex (cs : List Char) : List Token :=
  lexFrom [] cs

/-- No word is finished if none was begun. -/
theorem finished_nil : finished [] = [] :=
  rfl

/-- A name that was begun is finished as a token. -/
theorem finished_name {s : String} (h : IsName s) : finished s.toList = [.name s] := by
  rw [finished, if_neg h.toList_ne_nil, String.ofList_toList]

/-- A letter goes to the word that has been begun. -/
theorem lexFrom_cons_of_not_delimiter {c : Char} (h : c ∉ delimiters) (word cs : List Char) :
    lexFrom word (c :: cs) = lexFrom (word ++ [c]) cs := by
  have hblank : c ≠ ' ' := by rintro rfl; exact h (by decide)
  have hopen : c ≠ '(' := by rintro rfl; exact h (by decide)
  have hclose : c ≠ ')' := by rintro rfl; exact h (by decide)
  have hcomma : c ≠ ',' := by rintro rfl; exact h (by decide)
  have hboth : c ≠ '&' := by rintro rfl; exact h (by decide)
  have heither : c ≠ '|' := by rintro rfl; exact h (by decide)
  rw [lexFrom]
  all_goals simp_all

/-- So do several letters. -/
theorem lexFrom_append_of_not_delimiter {cs : List Char} (h : ∀ c ∈ cs, c ∉ delimiters)
    (word rest : List Char) : lexFrom word (cs ++ rest) = lexFrom (word ++ cs) rest := by
  induction cs generalizing word with
  | nil => rw [List.nil_append, List.append_nil]
  | cons c cs ih =>
    have hrest := ih fun d hd => h d (List.mem_cons_of_mem _ hd)
    rw [List.cons_append, lexFrom_cons_of_not_delimiter (h c List.mem_cons_self), hrest,
      List.append_assoc, List.singleton_append]

/-- Blanks before a text do not count. -/
theorem lex_blanks (n : Nat) (cs : List Char) : lex (List.replicate n ' ' ++ cs) = lex cs := by
  induction n with
  | zero => rfl
  | succ n ih =>
    rw [List.replicate_succ, List.cons_append, lex, lexFrom, finished_nil, List.nil_append]
    exact ih

/-- Whether a name can stand before these tokens, because they end it. -/
def Delimit (ts : List Token) : Prop :=
  ∀ t ∈ ts.head?, t.delimits = true

/-- Tokens delimit what is before them if the first one does. -/
theorem delimit_cons {t : Token} (h : t.delimits = true) (ts : List Token) : Delimit (t :: ts) := by
  intro u hu
  cases hu
  exact h

/-- A word ends where a delimiter follows. -/
theorem lexFrom_spell_of_delimit {ts : List Token} (h : Delimit ts) (word : List Char) :
    lexFrom word (spell ts) = finished word ++ lex (spell ts) := by
  cases ts with
  | nil => exact (List.append_nil _).symm
  | cons t ts =>
    have ht : t.delimits = true := h t rfl
    cases t with
    | name s => cases ht
    | opening callee => cases ht
    | closing => rfl
    | comma => rfl
    | both => rfl
    | either => rfl

/-- A name in front of a delimiter is read as a token. -/
theorem lex_name {s : String} (hs : IsName s) {ts : List Token} (h : Delimit ts) :
    lex (spell (.name s :: ts)) = .name s :: lex (spell ts) := by
  rw [spell_cons, Token.spelling, lex, lexFrom_append_of_not_delimiter hs.2, List.nil_append,
    lexFrom_spell_of_delimit h, finished_name hs, List.singleton_append]

/-- A name with an opening bracket is read as one token. -/
theorem lex_call {callee : String} (hs : IsName callee) (ts : List Token) :
    lex (spell (.opening (some callee) :: ts)) = .opening (some callee) :: lex (spell ts) := by
  rw [spell_cons, Token.spelling, lex, List.append_assoc, lexFrom_append_of_not_delimiter hs.2,
    List.nil_append, List.singleton_append, lexFrom, if_neg hs.toList_ne_nil, String.ofList_toList]
  rfl

/-- An opening bracket without a name is read as a token. -/
theorem lex_opening (ts : List Token) :
    lex (spell (.opening none :: ts)) = .opening none :: lex (spell ts) :=
  rfl

/-- So is a delimiter. -/
theorem lex_delimiter {t : Token} (h : t.delimits = true) (ts : List Token) :
    lex (spell (t :: ts)) = t :: lex (spell ts) := by
  cases t with
  | name s => cases h
  | opening callee => cases h
  | closing => rfl
  | comma => rfl
  | both => rfl
  | either => rfl

/-- The tokens of a text come back from it, whatever follows, if what follows ends a name. -/
def Lexes (ts : List Token) : Prop :=
  ∀ us, Delimit us → lex (spell (ts ++ us)) = ts ++ lex (spell us)

/-- Lists of tokens that can be read back can be so with delimiters between them. -/
theorem lexes_intercalate {t : Token} (ht : t.delimits = true) {tss : List (List Token)}
    (h : ∀ ts ∈ tss, Lexes ts) : Lexes ([t].intercalate tss) := by
  induction tss with
  | nil => exact fun us _ => rfl
  | cons ts tss ih =>
    intro us hus
    have hfirst := h ts List.mem_cons_self
    have hmore := ih fun vs hvs => h vs (List.mem_cons_of_mem _ hvs)
    cases tss with
    | nil =>
      rw [List.intercalate_singleton]
      exact hfirst us hus
    | cons vs tss =>
      rw [List.intercalate_cons_cons, List.append_assoc, List.append_assoc, List.singleton_append,
        hfirst _ (delimit_cons ht _), lex_delimiter ht, hmore us hus, List.append_assoc,
        List.append_assoc, List.singleton_append]

/-- Tokens between brackets come back, if the opening one does. -/
theorem lexes_enclosed {t : Token} {ts : List Token}
    (ht : ∀ us, lex (spell (t :: us)) = t :: lex (spell us)) (hts : Lexes ts) :
    Lexes (t :: ts ++ [.closing]) := by
  intro us hus
  have hclosing : Delimit (.closing :: us) := delimit_cons rfl us
  rw [List.cons_append, List.cons_append, List.append_assoc, List.singleton_append, ht,
    hts _ hclosing, lex_delimiter rfl, List.cons_append, List.append_assoc, List.singleton_append]

/-- A row can be read back if its factors can. -/
theorem lexes_tokensOfRow {row : List Factor} (h : ∀ f ∈ row, Lexes f.tokens) :
    Lexes (tokensOfRow row) := by
  apply lexes_intercalate rfl
  intro ts hts
  obtain ⟨f, hf, rfl⟩ := List.mem_map.mp hts
  exact h f hf

/-- Alternatives can be read back if all their factors can. -/
theorem lexes_tokens {a : Alternatives} (h : ∀ row ∈ a, ∀ f ∈ row, Lexes f.tokens) :
    Lexes (tokens a) := by
  apply lexes_intercalate rfl
  intro ts hts
  obtain ⟨row, hrow, rfl⟩ := List.mem_map.mp hts
  exact lexes_tokensOfRow (h row hrow)

/-- Every proper factor can be read back, by induction on its brackets. -/
theorem lexes_factor {f : Factor} (h : Proper f) : Lexes f.tokens := by
  induction h with
  | name hs => exact fun us hus => lex_name hs hus
  | call hs _ _ _ ih =>
    rw [Factor.tokens_call]
    apply lexes_enclosed (lex_call hs)
    apply lexes_intercalate rfl
    intro ts hts
    obtain ⟨a, ha, rfl⟩ := List.mem_map.mp hts
    exact lexes_tokens (ih a ha)
  | group _ _ _ ih =>
    rw [Factor.tokens_group]
    exact lexes_enclosed lex_opening (lexes_tokens ih)

/-- **From text to tokens.**  The tokens of proper alternatives are read back from their spelling.
-/
theorem lex_spell_tokens {a : Alternatives} (h : ProperAlternatives a) :
    lex (spell (tokens a)) = tokens a := by
  have hlexes := lexes_tokens fun row hrow f hf => lexes_factor (h.factors row hrow f hf)
  have hend := hlexes [] (fun t ht => by cases ht)
  rw [List.append_nil] at hend
  exact hend.trans (List.append_nil _)

/-! ## From tokens to conditions -/

/-- A bracket that is open: the callee if it is that of a call, the arguments read so far, and the
alternatives around it. -/
structure Bracket where
  callee : Option String
  arguments : List Alternatives
  outer : Alternatives

/-- Where the machine is: the alternatives read since the last open bracket, of which the last is
still going on, whether an operand has to come next, and the open brackets, the last one first. -/
structure Reader where
  level : Alternatives := [[]]
  wanting : Bool := true
  brackets : List Bracket := []

/-- Alternatives with a factor added to the last one. -/
def push : Alternatives → Factor → Alternatives
  | [], f => [[f]]
  | [row], f => [row ++ [f]]
  | row :: a, f => row :: push a f

/-- What a token does to the machine.  A token that cannot come here stops it. -/
def Reader.step : Token → Reader → Option Reader
  | .name s, ⟨level, true, brackets⟩ => some ⟨push level (.name s), false, brackets⟩
  | .opening callee, ⟨level, true, brackets⟩ => some ⟨[[]], true, ⟨callee, [], level⟩ :: brackets⟩
  | .both, ⟨level, false, brackets⟩ => some ⟨level, true, brackets⟩
  | .either, ⟨level, false, brackets⟩ => some ⟨level ++ [[]], true, brackets⟩
  | .comma, ⟨level, false, ⟨some callee, arguments, outer⟩ :: brackets⟩ =>
    some ⟨[[]], true, ⟨some callee, arguments ++ [level], outer⟩ :: brackets⟩
  | .closing, ⟨level, false, ⟨none, _, outer⟩ :: brackets⟩ =>
    some ⟨push outer (.group level), false, brackets⟩
  | .closing, ⟨level, false, ⟨some callee, arguments, outer⟩ :: brackets⟩ =>
    some ⟨push outer (.call callee (arguments ++ [level])), false, brackets⟩
  -- only here may a bracket be closed where an operand could come: a call without arguments
  | .closing, ⟨[[]], true, ⟨some callee, [], outer⟩ :: brackets⟩ =>
    some ⟨push outer (.call callee []), false, brackets⟩
  | _, _ => none

/-- What several tokens do to the machine. -/
def Reader.run : List Token → Reader → Option Reader
  | [], r => some r
  | t :: ts, r => (r.step t).bind (run ts)

/-- The condition of which a text is, if it is the text of one. -/
def read (s : String) : Option Alternatives :=
  match Reader.run (lex s.toList) {} with
  | some ⟨level, false, []⟩ => some level
  | _ => none

/-- A factor is pushed onto the last row. -/
theorem push_concat (a : Alternatives) (row : List Factor) (f : Factor) :
    push (a ++ [row]) f = a ++ [row ++ [f]] := by
  induction a with
  | nil => rfl
  | cons first a ih =>
    cases a with
    | nil => rfl
    | cons second a => exact congrArg (first :: ·) ih

namespace Reader

/-- A factor is read where an operand has to come, and added to the last alternative. -/
def Reads (f : Factor) : Prop :=
  ∀ level brackets ts, run (f.tokens ++ ts) ⟨level, true, brackets⟩ =
    run ts ⟨push level f, false, brackets⟩

/-- The factors of an alternative are added to the last one, one after the other. -/
theorem run_row {row : List Factor} (hne : row ≠ []) (h : ∀ f ∈ row, Reads f)
    (a : Alternatives) (last : List Factor) (brackets : List Bracket) (ts : List Token) :
    run (tokensOfRow row ++ ts) ⟨a ++ [last], true, brackets⟩ =
      run ts ⟨a ++ [last ++ row], false, brackets⟩ := by
  induction row generalizing last with
  | nil => exact absurd rfl hne
  | cons f row ih =>
    have hf := h f List.mem_cons_self
    have hrow := fun hmore => ih hmore fun g hg => h g (List.mem_cons_of_mem _ hg)
    -- the last factor has no operator behind it, so it is a case of its own
    cases row with
    | nil =>
      rw [tokensOfRow, List.map_cons, List.map_nil, List.intercalate_singleton, hf, push_concat]
    | cons g row =>
      rw [tokensOfRow, List.map_cons, List.map_cons, List.intercalate_cons_cons, List.append_assoc,
        List.append_assoc, hf, push_concat, List.singleton_append, run, step, Option.bind_some]
      have hmore := hrow (List.cons_ne_nil g row) (last ++ [f])
      rw [List.append_assoc, List.singleton_append] at hmore
      exact hmore

/-- The alternatives of a condition come one after the other. -/
theorem run_tokens {a : Alternatives} (hne : a ≠ []) (hrows : ∀ row ∈ a, row ≠ [])
    (h : ∀ row ∈ a, ∀ f ∈ row, Reads f) (done : Alternatives) (brackets : List Bracket)
    (ts : List Token) :
    run (tokens a ++ ts) ⟨done ++ [[]], true, brackets⟩ =
      run ts ⟨done ++ a, false, brackets⟩ := by
  induction a generalizing done with
  | nil => exact absurd rfl hne
  | cons row a ih =>
    have hrow := run_row (hrows row List.mem_cons_self) (h row List.mem_cons_self) done []
    have hmore := fun hsome => ih hsome (fun r hr => hrows r (List.mem_cons_of_mem _ hr))
      fun r hr => h r (List.mem_cons_of_mem _ hr)
    cases a with
    | nil =>
      rw [tokens, List.map_cons, List.map_nil, List.intercalate_singleton, hrow, List.nil_append]
    | cons next a =>
      rw [tokens, List.map_cons, List.map_cons, List.intercalate_cons_cons, List.append_assoc,
        List.append_assoc, hrow, List.nil_append, List.singleton_append, run, step,
        Option.bind_some]
      have hrest := hmore (List.cons_ne_nil next a) (done ++ [row])
      rw [List.append_assoc, List.append_assoc, List.singleton_append, List.singleton_append]
        at hrest
      rw [List.append_assoc]
      exact hrest

/-- The arguments of a call come one after the other, up to the closing bracket. -/
theorem run_arguments {arguments : List Alternatives} (hne : arguments ≠ [])
    (h : ∀ a ∈ arguments, ∀ brackets ts, run (tokens a ++ ts) ⟨[[]], true, brackets⟩ =
      run ts ⟨a, false, brackets⟩)
    (callee : String) (done : List Alternatives) (outer : Alternatives)
    (brackets : List Bracket) (ts : List Token) :
    run ([.comma].intercalate (arguments.map tokens) ++ .closing :: ts)
        ⟨[[]], true, ⟨some callee, done, outer⟩ :: brackets⟩ =
      run ts ⟨push outer (.call callee (done ++ arguments)), false, brackets⟩ := by
  induction arguments generalizing done with
  | nil => exact absurd rfl hne
  | cons a arguments ih =>
    have ha := h a List.mem_cons_self
    have hmore := fun hsome => ih hsome fun b hb => h b (List.mem_cons_of_mem _ hb)
    cases arguments with
    | nil =>
      rw [List.map_cons, List.map_nil, List.intercalate_singleton, ha, run, step,
        Option.bind_some]
    | cons b arguments =>
      rw [List.map_cons, List.map_cons, List.intercalate_cons_cons, List.append_assoc,
        List.append_assoc, ha, List.singleton_append, run, step, Option.bind_some]
      have hrest := hmore (List.cons_ne_nil b arguments) (done ++ [a])
      rw [List.append_assoc, List.singleton_append] at hrest
      exact hrest

/-- Every proper factor is read as it was written. -/
theorem reads_factor {f : Factor} (h : Proper f) : Reads f := by
  induction h with
  | name hs => exact fun level brackets ts => rfl
  | @call callee arguments hs hsome hrows _ ih =>
    intro level brackets ts
    rw [Factor.tokens_call, List.cons_append, List.cons_append, List.append_assoc,
      List.singleton_append, run, step, Option.bind_some]
    by_cases hne : arguments = []
    · -- the closing bracket comes where the machine still wants an operand
      subst hne
      rfl
    · apply run_arguments hne
      intro a ha
      exact run_tokens (hsome a ha) (hrows a ha) (ih a ha) []
  | @group a hsome hrows _ ih =>
    intro level brackets ts
    have hgroup := run_tokens hsome hrows ih [] (⟨none, [], level⟩ :: brackets) (.closing :: ts)
    rw [List.nil_append, List.nil_append] at hgroup
    rw [Factor.tokens_group, List.cons_append, List.cons_append, List.append_assoc,
      List.singleton_append, run, step, Option.bind_some, hgroup, run, step, Option.bind_some]

end Reader

/-- **Unique reading.**  The text of a condition reads as that condition, behind any number of
blanks. -/
theorem read_spell {a : Alternatives} (h : ProperAlternatives a) {s : String} {n : Nat}
    (hs : s.toList = List.replicate n ' ' ++ spell (tokens a)) : read s = some a := by
  have hfactors := fun row hrow f hf => Reader.reads_factor (h.factors row hrow f hf)
  have hrun := Reader.run_tokens h.some h.rows hfactors [] [] []
  rw [List.append_nil, List.nil_append, List.nil_append] at hrun
  rw [read, hs, lex_blanks, lex_spell_tokens h, hrun, Reader.run]

end ExprPrinter.Condition
