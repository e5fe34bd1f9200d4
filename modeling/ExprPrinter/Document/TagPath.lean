/-!
# Tag paths

A tag path such as `div#main.wide.dark` names an element, perhaps with an id
and any number of classes.  Every text is a tag path: a name followed by
segments, each of them a marker and a word that has no marker inside.  The
first id with a word counts, all classes with a word count, and an element
without a name is a `span`.
-/

namespace ExprPrinter

/-- What a tag path says about an element. -/
structure TagPath where
  name : String
  id : Option String
  classes : List String
  deriving DecidableEq, Repr

namespace TagPath

/-- Whether a character begins a segment. -/
def isMarker (c : Char) : Bool :=
  c == '#' || c == '.'

/-- Where a path has its first marker, or its end if it has none. -/
def cut (path : List Char) : Nat :=
  ['#', '.'].foldl (fun cut marker => (path.idxOf? marker).elim cut (min cut)) path.length

/-- All segments in a text: each marker, with the letters up to the next one. -/
def segments : List Char → List (Char × List Char)
  | [] => []
  | c :: cs =>
    if isMarker c then (c, cs.takeWhile (!isMarker ·)) :: segments cs else segments cs

/-- The id and the classes that are known with one segment more. -/
def note : Option String × List String → Char × List Char → Option String × List String
  | (id, classes), (marker, word) =>
    if word.isEmpty then (id, classes)
    else if marker == '#' then (id <|> some (String.ofList word), classes)
    else (id, classes ++ [String.ofList word])

/-- The element that a tag path names. -/
def parse (path : String) : TagPath :=
  let cs := path.toList
  let name := cs.take (cut cs)
  let (id, classes) := (segments (cs.drop (cut cs))).foldl note (none, [])
  { name := if name.isEmpty then "span" else String.ofList name
    id := id
    classes := classes }

/-- The attribute for the id, if there is one, with a blank before it. -/
def idAttribute (t : TagPath) : String :=
  match t.id with
  | none => ""
  | some id => " id=\"" ++ id ++ "\""

/-- The attribute for the classes, if there are any, with a blank before it. -/
def classAttribute (t : TagPath) : String :=
  if t.classes.isEmpty then "" else " class=\"" ++ " ".intercalate t.classes ++ "\""

/-- The tag that opens the element. -/
def opening (t : TagPath) : String :=
  "<" ++ t.name ++ t.idAttribute ++ t.classAttribute ++ ">"

/-- The tag that closes an element. -/
def closing (name : String) : String :=
  "</" ++ name ++ ">"

end TagPath

end ExprPrinter
