import SqlPlan.Text.Chars

namespace SqlPlan.Text

def singleQuote : Char := '\x27'

def doubleQuote : Char := '\x22'

def doubleQuotes (quote : Char) : List Char → List Char
  | [] => []
  | c :: rest =>
    if c = quote then quote :: quote :: doubleQuotes quote rest else c :: doubleQuotes quote rest

def collapseQuotes (quote : Char) : List Char → List Char
  | [] => []
  | [c] => [c]
  | c :: d :: rest =>
    if c = quote && d = quote then quote :: collapseQuotes quote rest
    else c :: collapseQuotes quote (d :: rest)

def quoted (quote : Char) (text : String) : String :=
  String.ofList (quote :: doubleQuotes quote text.toList ++ [quote])

/-- The body of a token in single quotes, with doubled quotes collapsed. One character of `marks` may
stand before the first quote. -/
def unquote? (marks : List Char) (token : String) : Option (List Char) := do
  let cs := token.toList
  let bare := match cs with
    | c :: rest => if marks.contains c then rest else cs
    | [] => cs
  let opened ← stripStart? singleQuote bare
  let body ← stripEnd? singleQuote opened
  return collapseQuotes singleQuote body

end SqlPlan.Text
