import SqlPlan.Type.Basic

namespace SqlPlan.SqlType

/-- Digits before and after the point that the numbers of a type need, where the type bounds them. A
decimal that gives its precision only has scale zero. -/
def decimalParts : SqlType → Option (Nat × Nat)
  | integer w => some (w.digits, 0)
  | decimal (some p) s => some (p - s.getD 0, s.getD 0)
  | _ => none

def unifyExact (a b : SqlType) : SqlType :=
  match a.decimalParts, b.decimalParts with
  | some (i, s), some (j, t) => decimal (some (max i j + max s t)) (some (max s t))
  | _, _ => flexibleDecimal

def maxLength : Option Nat → Option Nat → Option Nat
  | some m, some n => some (max m n)
  | _, _ => none

/-- The least upper bound of two types, if they have one. -/
def unify (a b : SqlType) : Option SqlType :=
  if a = b then some a
  else match a, b with
    | unknown, t => some t
    | t, unknown => some t
    | integer v, integer w => some (integer (v.max w))
    | string k v m, string l w n =>
      if k = l then some (string k (v || w) (maxLength m n)) else none
    | time y, time z => some (time (y || z))
    | timestamp y, timestamp z => some (timestamp (y || z))
    | date, timestamp z => some (timestamp z)
    | timestamp z, date => some (timestamp z)
    | a, b =>
      if a.isExact && b.isExact then some (unifyExact a b)
      else if a.isNumeric && b.isNumeric then some double
      else none

/-- Whether a value of type `source` may be stored in a column of type `target`. Narrowing within a
family of types is allowed. -/
def isAssignable (source target : SqlType) : Bool := (unify source target).isSome

def lengthBound : Nat := powerOfTwo 32

/-- The length of a concatenation; flexible if either is, or if the sum is out of range. -/
def concatLength : Option Nat → Option Nat → Option Nat
  | some m, some n => if m + n < lengthBound then some (m + n) else none
  | _, _ => none

/-- The type of a concatenation of strings of one kind. -/
def concat (a b : SqlType) : Option SqlType :=
  match a, b with
  | unknown, unknown => some flexibleVarchar
  | unknown, string k _ n => some (string k true (concatLength n n))
  | string k _ n, unknown => some (string k true (concatLength n n))
  | string k _ m, string l _ n => if k = l then some (string k true (concatLength m n)) else none
  | _, _ => none

end SqlPlan.SqlType
