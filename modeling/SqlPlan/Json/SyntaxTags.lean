import SqlPlan.Json.Types
import SqlPlan.Syntax.Statement

namespace SqlPlan

def UnaryOp.tags : List (String × UnaryOp) :=
  [("Plus", plus), ("Minus", minus), ("Not", not), ("IsNull", isNull), ("IsNotNull", isNotNull),
   ("IsTrue", isTrue), ("IsNotTrue", isNotTrue), ("IsFalse", isFalse), ("IsNotFalse", isNotFalse),
   ("IsUnknown", isUnknown), ("IsNotUnknown", isNotUnknown)]

def BinaryOp.tags : List (String × BinaryOp) :=
  [("Add", add), ("Subtract", subtract), ("Multiply", multiply), ("Divide", divide),
   ("Remainder", remainder), ("Concat", concat), ("And", .and), ("Or", .or), ("Is", is), ("IsNot", isNot)]

def ComparisonOp.tags : List (String × ComparisonOp) :=
  [("Equal", equal), ("NotEqual", notEqual), ("Less", less), ("LessEqual", lessEqual),
   ("Greater", greater), ("GreaterEqual", greaterEqual)]

def PatternOp.tags : List (String × PatternOp) := [("Like", like), ("Similar", similar)]

def SetQuantifier.tags : List (String × SetQuantifier) := [("All", all), ("Distinct", distinct)]

def SetOperator.tags : List (String × SetOperator) :=
  [("Union", union), ("Intersect", intersect), ("Except", except)]

def SortDirection.tags : List (String × SortDirection) :=
  [("Ascending", ascending), ("Descending", descending)]

def JoinSyntax.tags : List (String × JoinSyntax) :=
  [("Cross", cross), ("Inner", inner), ("LeftOuter", leftOuter), ("RightOuter", rightOuter),
   ("FullOuter", fullOuter), ("NaturalInner", naturalInner), ("NaturalLeftOuter", naturalLeftOuter),
   ("NaturalRightOuter", naturalRightOuter), ("NaturalFullOuter", naturalFullOuter)]

def ApplyKind.tags : List (String × ApplyKind) := [("Cross", cross), ("Outer", outer)]

def TruthValue.tags : List (String × TruthValue) :=
  [("True", isTrue), ("False", isFalse), ("Unknown", isUnknown)]

def TemporalKind.ofJson? (j : Json) : Option TemporalKind := do
  match ← j.variant? with
  | ("Time", some data) => (data.field? "with_time_zone" Json.bool?).map time
  | ("Timestamp", some data) => (data.field? "with_time_zone" Json.bool?).map timestamp
  | _ => j.enum? [("Date", date)]

def TemporalKind.toJson : TemporalKind → Json
  | date => .string "Date"
  | time zoned => .record "Time" [("with_time_zone", .bool zoned)]
  | timestamp zoned => .record "Timestamp" [("with_time_zone", .bool zoned)]

namespace Literal

def ofJson? (j : Json) : Option Literal := do
  match ← j.variant? with
  | ("Boolean", some data) => (data.enum? TruthValue.tags).map boolean
  | ("ExactNumeric", some data) =>
    let negative ← data.field? "negative" Json.bool?
    let digits ← data.field? "digits" Json.string?
    return exact negative digits
  | ("ApproximateNumeric", some data) =>
    let negative ← data.field? "negative" Json.bool?
    let text ← data.field? "text" Json.string?
    return approximate negative text
  | ("CharacterString", some data) => (data.list? Json.string?).map character
  | ("BitString", some data) => (data.list? Json.string?).map bit
  | ("OctetString", some data) => (data.list? Json.string?).map octet
  | ("Temporal", some data) =>
    let kind ← data.field? "kind" TemporalKind.ofJson?
    let token ← data.field? "value" Json.string?
    return temporal kind token
  | _ => j.enum? [("Null", null), ("Default", default)]

def toJson : Literal → Json
  | boolean value => .tagged "Boolean" (.ofEnum TruthValue.tags value)
  | exact negative digits =>
    .record "ExactNumeric" [("digits", .string digits), ("negative", .bool negative)]
  | approximate negative text =>
    .record "ApproximateNumeric" [("negative", .bool negative), ("text", .string text)]
  | character tokens => .tagged "CharacterString" (.ofList .string tokens)
  | bit tokens => .tagged "BitString" (.ofList .string tokens)
  | octet tokens => .tagged "OctetString" (.ofList .string tokens)
  | temporal kind token => .record "Temporal" [("kind", kind.toJson), ("value", .string token)]
  | null => .string "Null"
  | default => .string "Default"

end Literal

def Correlation.ofJson? (j : Json) : Option Correlation := do
  let name ← j.field? "name" Identifier.ofJson?
  let columns ← j.field? "columns" (Json.list? Identifier.ofJson?)
  return ⟨name, columns⟩

def Correlation.toJson (c : Correlation) : Json :=
  .object [("columns", .ofList Identifier.toJson c.columns), ("name", c.name.toJson)]

end SqlPlan
