import SqlPlan.Json.SyntaxTags
import SqlPlan.Json.Value
import SqlPlan.Plan.Scalar

namespace SqlPlan

def SqlType.describe (t : SqlType) : Json := .string t.text

def Value.parts (v : Value) : List String :=
  match v with
  | null => ["Null"]
  | boolean _ => ["Boolean", v.text]
  | integer width n => [integerTag width, Text.ofInt n]
  | real bits => ["Float4", String.ofList (Text.hex false 8 bits.toNat)]
  | double bits => ["Float8", String.ofList (Text.hex false 16 bits.toNat)]
  | decimal d => ["Decimal", Text.ofInt d.digits, Text.ofInt d.scale]
  | character s => ["Character", s]
  | octet bytes => ["Octet", octetText false bytes]
  | bit bits => ["Bit", bitText bits]
  | date d => ["Date", d.render]
  | time t => ["TimeOfDay", t.render]
  | zonedTime t zone => ["TimeOfDayWithZone", t.render, zone.render]
  | timestamp p => ["TimePoint", p.render " "]
  | zonedTimestamp z => ["TimePointWithZone", z.render]

def Value.describe (v : Value) : Json := .ofList .string v.parts

def VariableKind.word : VariableKind → String
  | column _ => "column"
  | stream _ => "stream"
  | temporary => "let"
  | host _ => "host"
  | external _ => "external"

def Variable.describe (v : Variable) : Json :=
  .string (v.kind.word ++ " " ++ v.text ++ " @" ++ Text.ofNat v.id)

def FunctionDecl.describe (f : FunctionDecl) : Json :=
  .string ((if f.tableValued then "table " else "") ++ f.signature ++ " @" ++ Text.ofNat f.id)

def AggregateDecl.describe (f : AggregateDecl) : Json :=
  .string (f.signature ++ " @" ++ Text.ofNat f.id)

def VariableDecl.describe (d : VariableDecl) : Json := .string (d.name ++ " " ++ d.type.text)

def UnaryOperator.tags : List (String × UnaryOperator) :=
  [("Plus", plus), ("SignInversion", signInversion), ("ConditionalNot", conditionalNot),
   ("IsNull", isNull), ("IsTrue", isTrue), ("IsFalse", isFalse), ("IsUnknown", isUnknown)]

def BinaryOperator.tags : List (String × BinaryOperator) :=
  [("Add", add), ("Subtract", subtract), ("Multiply", multiply), ("Divide", divide),
   ("Remainder", remainder), ("Concat", concat), ("ConditionalAnd", conditionalAnd),
   ("ConditionalOr", conditionalOr)]

def LossPolicy.tags : List (String × LossPolicy) := [("Ignore", ignore), ("Error", error)]

namespace Scalar

def form (head : String) (parts : List Json) : Json := .array (.string head :: parts)

mutual

def describe : Scalar → Json
  | immediate v t => form "imm" [v.describe, t.describe]
  | var v => form "var" [v.describe]
  | unary op s => form "un" [.ofEnum UnaryOperator.tags op, s.describe]
  | binary op l r => form "bin" [.ofEnum BinaryOperator.tags op, l.describe, r.describe]
  | compare op l r => form "cmp" [.ofEnum ComparisonOp.tags op, l.describe, r.describe]
  | pattern op i p e =>
    form "match" [.ofEnum PatternOp.tags op, i.describe, p.describe, e.describe]
  | conditional alternatives default =>
    form "cond" [.array (describePairs alternatives), describeOption default]
  | letIn declarators body => form "let" [.array (describeDeclarators declarators), body.describe]
  | cast policy target s => form "cast" [.ofEnum LossPolicy.tags policy, target.describe, s.describe]
  | call f arguments => form "call" [f.describe, .array (describeList arguments)]
  | aggregate f arguments => form "agg" [f.describe, .array (describeList arguments)]

def describePairs : List (Scalar × Scalar) → List Json
  | [] => []
  | (a, b) :: rest => .array [a.describe, b.describe] :: describePairs rest

def describeOption : Option Scalar → Json
  | none => .null
  | some s => s.describe

def describeDeclarators : List (Variable × Scalar) → List Json
  | [] => []
  | (v, s) :: rest => .array [v.describe, s.describe] :: describeDeclarators rest

def describeList : List Scalar → List Json
  | [] => []
  | s :: rest => s.describe :: describeList rest

end

end Scalar

end SqlPlan
