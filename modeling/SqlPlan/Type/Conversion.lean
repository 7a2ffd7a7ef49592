import SqlPlan.Type.Unify

namespace SqlPlan.SqlType

def numericRank : SqlType → Option Nat
  | integer w => some w.rank
  | decimal _ _ => some 4
  | real => some 5
  | double => some 6
  | _ => none

def lengthFits : Option Nat → Option Nat → Bool
  | _, none => true
  | some m, some n => m ≤ n
  | none, some _ => false

/-- The number of steps from an argument type to a parameter type: none at all for the same type, and
`none` if the argument does not convert. -/
def conversionCost (source target : SqlType) : Option Nat :=
  if source = target then some 0
  else match source, target with
    | unknown, _ => some 1
    | decimal _ _, decimal none _ => some 1
    | decimal p s, decimal (some q) t => do
      let (i, m) ← decimalParts (decimal p s)
      let (j, n) ← decimalParts (decimal (some q) t)
      if i ≤ j ∧ m ≤ n then some 1 else none
    | integer w, decimal (some q) t => do
      let (j, _) ← decimalParts (decimal (some q) t)
      if w.digits ≤ j then some (4 - w.rank) else none
    | string k v m, string l w n =>
      if k = l ∧ w = true ∧ lengthFits m n = true then some (if v then 1 else 2) else none
    | time false, time true => some 1
    | timestamp false, timestamp true => some 1
    | date, timestamp zoned => some (if zoned then 2 else 1)
    | a, b => do
      let m ← numericRank a
      let n ← numericRank b
      if m < n then some (n - m) else none

end SqlPlan.SqlType
