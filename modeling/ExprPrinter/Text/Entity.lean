/-!
# Character entities

Five characters mean something to a reader of markup.  `escape` replaces each
of them by an entity and leaves all others alone.
-/

namespace ExprPrinter.Text

/-- The spelling of one character in escaped text. -/
def entity (c : Char) : List Char :=
  if c = '&' then "&amp;".toList
  else if c = '<' then "&lt;".toList
  else if c = '>' then "&gt;".toList
  else if c = '"' then "&quot;".toList
  else if c = '\'' then "&#x27;".toList
  else [c]

/-- A text with its five special characters replaced by entities. -/
def escape (s : String) : String :=
  String.ofList (s.toList.flatMap entity)

/-- Escaping goes by characters. -/
theorem toList_escape (s : String) : (escape s).toList = s.toList.flatMap entity := by
  simp [escape]

/-- Texts may be escaped part by part. -/
theorem escape_append (s t : String) : escape (s ++ t) = escape s ++ escape t := by
  simp [escape, String.ofList_append]

end ExprPrinter.Text
