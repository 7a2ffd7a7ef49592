import SqlPlan.Number.Power
import SqlPlan.Text.Chars

namespace SqlPlan

inductive IntWidth where
  | w8
  | w16
  | w32
  | w64
  deriving DecidableEq, Repr, Inhabited

namespace IntWidth

def bits : IntWidth → Nat
  | w8 => 8
  | w16 => 16
  | w32 => 32
  | w64 => 64

def rank : IntWidth → Nat
  | w8 => 0
  | w16 => 1
  | w32 => 2
  | w64 => 3

def digits : IntWidth → Nat
  | w8 => 3
  | w16 => 5
  | w32 => 10
  | w64 => 19

/-- Whether a number is in the two's-complement range of this width. -/
def Holds (w : IntWidth) (n : Int) : Prop :=
  -(powerOfTwo (w.bits - 1) : Int) ≤ n ∧ n < powerOfTwo (w.bits - 1)

instance (w : IntWidth) (n : Int) : Decidable (w.Holds n) := by
  unfold Holds
  infer_instance

def max (v w : IntWidth) : IntWidth := if v.rank < w.rank then w else v

def text : IntWidth → String
  | w8 => "tinyint"
  | w16 => "smallint"
  | w32 => "int"
  | w64 => "bigint"

end IntWidth

inductive StringKind where
  | character
  | octet
  | bit
  deriving DecidableEq, Repr, Inhabited

def StringKind.text (kind : StringKind) (varying : Bool) : String :=
  match kind, varying with
  | .character, true => "varchar"
  | .character, false => "char"
  | .octet, true => "varbinary"
  | .octet, false => "binary"
  | .bit, true => "bit varying"
  | .bit, false => "bit"

mutual

/-- A type. A length, precision or scale of `none` is flexible. `unknown` is the type of a NULL that no
context has typed. -/
inductive SqlType where
  | unknown
  | boolean
  | integer (width : IntWidth)
  | real
  | double
  | decimal (precision scale : Option Nat)
  | string (kind : StringKind) (varying : Bool) (length : Option Nat)
  | date
  | time (zoned : Bool)
  | timestamp (zoned : Bool)
  | table (row : RowType)

inductive RowType where
  | nil
  | cons (name : String) (type : SqlType) (rest : RowType)

end

deriving instance DecidableEq for SqlType, RowType
deriving instance Repr for SqlType, RowType

instance : Inhabited SqlType := ⟨.unknown⟩

namespace RowType

def toList : RowType → List (String × SqlType)
  | nil => []
  | cons name type rest => (name, type) :: rest.toList

def ofList : List (String × SqlType) → RowType
  | [] => nil
  | (name, type) :: rest => cons name type (ofList rest)

end RowType

namespace SqlType

abbrev int1 : SqlType := integer .w8
abbrev int2 : SqlType := integer .w16
abbrev int4 : SqlType := integer .w32
abbrev int8 : SqlType := integer .w64

abbrev flexibleDecimal : SqlType := decimal none none

abbrev flexibleVarchar : SqlType := string .character true none

def isInteger : SqlType → Bool
  | integer _ => true
  | _ => false

def isExact : SqlType → Bool
  | integer _ => true
  | decimal _ _ => true
  | _ => false

def isApproximate : SqlType → Bool
  | real => true
  | double => true
  | _ => false

def isNumeric (t : SqlType) : Bool := t.isExact || t.isApproximate

def isCharacter : SqlType → Bool
  | string .character _ _ => true
  | _ => false

def isBooleanLike : SqlType → Bool
  | boolean => true
  | unknown => true
  | _ => false

def isTable : SqlType → Bool
  | table _ => true
  | _ => false

def flexibleText : Option Nat → String
  | some n => Text.ofNat n
  | none => "*"

mutual

def text : SqlType → String
  | unknown => "unknown"
  | boolean => "boolean"
  | integer w => w.text
  | real => "real"
  | double => "double precision"
  | decimal p s => "decimal(" ++ flexibleText p ++ ", " ++ flexibleText s ++ ")"
  | string kind varying length => kind.text varying ++ "(" ++ flexibleText length ++ ")"
  | date => "date"
  | time zoned => if zoned then "time with time zone" else "time"
  | timestamp zoned => if zoned then "timestamp with time zone" else "timestamp"
  | table row => "table(" ++ rowText row ++ ")"

def rowText : RowType → String
  | .nil => ""
  | .cons name type .nil => name ++ " " ++ type.text
  | .cons name type rest => name ++ " " ++ type.text ++ ", " ++ rowText rest

end

instance : ToString SqlType := ⟨text⟩

end SqlType

end SqlPlan
