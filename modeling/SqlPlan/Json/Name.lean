import SqlPlan.Json.Basic
import SqlPlan.Syntax.Name

namespace SqlPlan

def Span.ofJson? (j : Json) : Option Span := do
  let start ← j.field? "begin" Json.size?
  let stop ← j.field? "end" Json.size?
  return ⟨start, stop⟩

def Span.toJson (s : Span) : Json := .object [("begin", .ofNat s.start), ("end", .ofNat s.stop)]

def Identifier.ofJson? (j : Json) : Option Identifier := do
  let text ← j.field? "text" Json.string?
  let delimited ← j.field? "delimited" Json.bool?
  let span ← j.default? "span" .unknown Span.ofJson?
  return ⟨text, delimited, span⟩

def Identifier.toJson (i : Identifier) : Json :=
  .object [("delimited", .bool i.delimited), ("span", i.span.toJson), ("text", .string i.text)]

def Name.ofJson? (j : Json) : Option Name := do
  let segments ← j.field? "segments" (Json.list? Identifier.ofJson?)
  return ⟨segments⟩

def Name.toJson (n : Name) : Json := .object [("segments", .ofList Identifier.toJson n.segments)]

end SqlPlan
