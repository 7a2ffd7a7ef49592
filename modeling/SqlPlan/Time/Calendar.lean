import SqlPlan.Time.Field

namespace SqlPlan

structure Date where
  year : Int
  month : Nat
  day : Nat
  deriving DecidableEq, Repr, Inhabited

namespace Date

def firstYear : Int := -262143

def lastYear : Int := 262142

def isLeap (year : Int) : Bool := year % 4 = 0 && (year % 100 ≠ 0 || year % 400 = 0)

def monthLength (year : Int) (month : Nat) : Nat :=
  if month = 2 then if isLeap year then 29 else 28
  else if month ∈ [4, 6, 9, 11] then 30
  else 31

def IsValid (d : Date) : Prop :=
  firstYear ≤ d.year ∧ d.year ≤ lastYear ∧ 1 ≤ d.month ∧ d.month ≤ 12 ∧ 1 ≤ d.day ∧
    d.day ≤ monthLength d.year d.month

instance (d : Date) : Decidable d.IsValid := by
  unfold IsValid
  infer_instance

def ofParts? (year : Int) (month day : Nat) : Option Date :=
  let d : Date := ⟨year, month, day⟩
  if d.IsValid then some d else none

def first : Date := ⟨firstYear, 1, 1⟩

def last : Date := ⟨lastYear, 12, 31⟩

/-- The number of days from 1 March of year 0. -/
def dayNumber (d : Date) : Int :=
  let y := if d.month ≤ 2 then d.year - 1 else d.year
  let m := if d.month ≤ 2 then d.month + 9 else d.month - 3
  365 * y + y / 4 - y / 100 + y / 400 + ((153 * m + 2) / 5 : Nat) + d.day - 1

/-- Years from 0 to 9999 have four digits, others a sign too. -/
def yearText (year : Int) : String :=
  if 0 ≤ year ∧ year ≤ 9999 then Text.padded 4 year.toNat
  else if 0 ≤ year then "+" ++ Text.padded 4 year.toNat
  else "-" ++ Text.padded 4 year.natAbs

def render (d : Date) : String :=
  yearText d.year ++ "-" ++ Text.padded 2 d.month ++ "-" ++ Text.padded 2 d.day

def read? (style : Time.Strictness) (cs : List Char) : Option (Date × List Char) := do
  let (year, cs) ← Time.year? cs
  let cs ← Time.separator? style '-' cs
  let (month, cs) ← Time.field? 2 cs
  let cs ← Time.separator? style '-' cs
  let (day, cs) ← Time.field? 2 cs
  let date ← ofParts? year month day
  return (date, cs)

def ofChars? (style : Time.Strictness) (cs : List Char) : Option Date := do
  let (date, rest) ← read? style cs
  if (style.skip rest).isEmpty then some date else none

end Date

end SqlPlan
