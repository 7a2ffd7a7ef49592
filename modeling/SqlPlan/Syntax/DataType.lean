import SqlPlan.Syntax.Name
import SqlPlan.Type.Basic

namespace SqlPlan

inductive Length where
  | value (n : Nat)
  | flexible
  deriving DecidableEq, Repr, Inhabited

inductive DataType where
  | boolean
  | integer (width : IntWidth)
  | real
  | float
  | doublePrecision
  | decimal (precision scale : Option Length)
  | string (kind : StringKind) (varying : Bool) (length : Option Length)
  | date
  | time (zoned : Bool)
  | timestamp (zoned : Bool)
  | userDefined (name : Name)
  deriving DecidableEq, Repr, Inhabited

end SqlPlan
