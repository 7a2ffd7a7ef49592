import SqlPlan.Type.Basic

namespace SqlPlan.SqlType

def ofShortName? (name : String) (arguments : List Nat) : Option SqlType :=
  match name, arguments with
  | "boolean", [] => some boolean
  | "int1", [] => some int1
  | "int2", [] => some int2
  | "int4", [] => some int4
  | "int8", [] => some int8
  | "float4", [] => some real
  | "float8", [] => some double
  | "decimal", [] => some flexibleDecimal
  | "decimal", [p, s] => some (decimal (some p) (some s))
  | "varchar", [] => some flexibleVarchar
  | "varchar", [n] => some (string .character true (some n))
  | "char", [n] => some (string .character false (some n))
  | "date", [] => some date
  | "timestamp", [] => some (timestamp false)
  | _, _ => none

def argumentList? (cs : List Char) : Option (List Nat) :=
  let inner := (cs.reverse.dropWhile (· == ')')).reverse
  (Text.splitAll (· == ',') inner).mapM fun a => Text.natBelow? (powerOfTwo 32) (Text.trim a)

/-- Reads a short type name in any case, as in `decimal(10, 2)`. The error is the text as understood. -/
def ofText (text : String) : Except String SqlType :=
  let cs := (Text.trim text.toList).map Text.lowerAscii
  let read : Option SqlType := match Text.splitFirst? (· == '(') cs with
    | none => ofShortName? (String.ofList cs) []
    | some (head, rest) => do
      let arguments ← argumentList? rest
      ofShortName? (String.ofList (Text.trim head)) arguments
  match read with
  | some type => .ok type
  | none => .error (String.ofList cs)

end SqlPlan.SqlType
