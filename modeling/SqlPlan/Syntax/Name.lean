import SqlPlan.Text.Quoted

namespace SqlPlan

/-- A region of the source text. The region from 0 to 0 stands for an unknown one. -/
structure Span where
  start : Nat := 0
  stop : Nat := 0
  deriving DecidableEq, Repr, Inhabited

namespace Span

def unknown : Span := {}

/-- The least region that covers both; an unknown region covers nothing. -/
def merge (a b : Span) : Span :=
  if a = unknown then b
  else if b = unknown then a
  else ⟨min a.start b.start, max a.stop b.stop⟩

end Span

/-- An identifier. A delimited one was written in double quotes and keeps its case. -/
structure Identifier where
  text : String
  delimited : Bool := false
  span : Span := {}
  deriving DecidableEq, Repr, Inhabited

namespace Identifier

def regular (text : String) : Identifier := { text }

def quoted (text : String) : Identifier := { text, delimited := true }

def render (i : Identifier) : String :=
  if i.delimited then Text.quoted Text.doubleQuote i.text else i.text

end Identifier

/-- A name of segments divided by dots, the most general first. -/
structure Name where
  segments : List Identifier
  deriving DecidableEq, Repr, Inhabited

namespace Name

def simple (text : String) : Name := ⟨[.regular text]⟩

def ofPath (path : String) : Name :=
  ⟨(Text.splitAll (· == '.') path.toList).map fun s => .regular (String.ofList s)⟩

def last? (n : Name) : Option Identifier := n.segments.getLast?

def qualifier (n : Name) : List Identifier := n.segments.dropLast

def length (n : Name) : Nat := n.segments.length

def span (n : Name) : Span := n.segments.foldl (fun s i => s.merge i.span) .unknown

def render (n : Name) : String := Text.joinWith "." (n.segments.map Identifier.render)

instance : ToString Name := ⟨render⟩

end Name

end SqlPlan
