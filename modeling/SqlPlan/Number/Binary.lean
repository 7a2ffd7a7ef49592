import SqlPlan.Number.Power
import SqlPlan.Text.Chars

namespace SqlPlan

/-- A binary interchange format: sign, exponent and fraction fields, from the top. -/
structure BinaryFormat where
  exponentBits : Nat
  fractionBits : Nat

namespace BinaryFormat

def single : BinaryFormat := ⟨8, 23⟩

def double : BinaryFormat := ⟨11, 52⟩

def bias (f : BinaryFormat) : Nat := powerOfTwo (f.exponentBits - 1) - 1

/-- The bits of positive infinity; larger magnitudes are not numbers. -/
def infinity (f : BinaryFormat) : Nat := (powerOfTwo f.exponentBits - 1) * powerOfTwo f.fractionBits

def signBit (f : BinaryFormat) : Nat := powerOfTwo (f.exponentBits + f.fractionBits)

def isNegative (f : BinaryFormat) (bits : Nat) : Bool := f.signBit ≤ bits

def magnitude (f : BinaryFormat) (bits : Nat) : Nat := bits % f.signBit

def isFinite (f : BinaryFormat) (bits : Nat) : Bool := f.magnitude bits < f.infinity

def isNaN (f : BinaryFormat) (bits : Nat) : Bool := f.infinity < f.magnitude bits

def withSign (f : BinaryFormat) (negative : Bool) (bits : Nat) : Nat :=
  if negative then f.magnitude bits + f.signBit else f.magnitude bits

def negate (f : BinaryFormat) (bits : Nat) : Nat := f.withSign (!f.isNegative bits) bits

/-- Equality of numbers: zeros of either sign are equal, and what is not a number equals nothing. -/
def sameNumber (f : BinaryFormat) (a b : Nat) : Bool :=
  !f.isNaN a && !f.isNaN b && (a == b || (f.magnitude a == 0 && f.magnitude b == 0))

/-- The integer `m` and exponent `q` with `m · 2 ^ q` the magnitude of a finite number. -/
def decode (f : BinaryFormat) (bits : Nat) : Nat × Int :=
  let field := f.magnitude bits / powerOfTwo f.fractionBits
  let fraction := f.magnitude bits % powerOfTwo f.fractionBits
  if field = 0 then (fraction, 1 - (f.bias : Int) - f.fractionBits)
  else (fraction + powerOfTwo f.fractionBits, (field : Int) - f.bias - f.fractionBits)

/-- The quotient rounded to the nearest integer, a tie to the even one. -/
def roundQuotient (num den : Nat) : Nat :=
  let q := num / den
  let r := num % den
  if den < 2 * r || (den == 2 * r && q % 2 == 1) then q + 1 else q

/-- The quotient `num / den` as a product of an integer ratio with `2 ^ -q`. -/
def scaleBy (num den : Nat) (q : Int) : Nat × Nat :=
  (num * powerOfTwo (-q).toNat, den * powerOfTwo q.toNat)

/-- The greatest `e` with `2 ^ e ≤ num / den`. -/
def logQuotient (num den : Nat) : Int :=
  let e := (Nat.log2 num : Int) - Nat.log2 den
  let (n, d) := scaleBy num den e
  if n < d then e - 1 else e

/-- The bits of the number nearest to the positive ratio `num / den`. -/
def ofRatio (f : BinaryFormat) (num den : Nat) : Nat :=
  if num = 0 then 0
  else
    let least : Int := 1 - (f.bias : Int)
    let e := max (logQuotient num den) least
    let (n, d) := scaleBy num den (e - f.fractionBits)
    let m := roundQuotient n d
    let bits :=
      if m < powerOfTwo f.fractionBits then m
      else (e + f.bias).toNat * powerOfTwo f.fractionBits + (m - powerOfTwo f.fractionBits)
    min bits f.infinity

/-- No number of either format has more digits than this before the point, or zeros after it. -/
def decimalRange : Int := 400

/-- The bits of the number nearest to `digits · 10 ^ exponent`. Numbers beyond the format's range are
decided without forming the power. -/
def ofDecimal (f : BinaryFormat) (digits : Nat) (exponent : Int) : Nat :=
  let reach := ((Text.digits digits).length : Int) + exponent
  if digits = 0 || reach < -decimalRange then 0
  else if decimalRange < reach then f.infinity
  else f.ofRatio (digits * powerOfTen exponent.toNat) (powerOfTen (-exponent).toNat)

def convert (f g : BinaryFormat) (bits : Nat) : Nat :=
  let (m, q) := g.decode bits
  f.withSign (g.isNegative bits) (f.ofRatio (m * powerOfTwo q.toNat) (powerOfTwo (-q).toNat))

def numeral? (cs : List Char) : Option (Nat × Int) := do
  let (base, exponent) ← match Text.splitFirst? (fun c => c == 'e' || c == 'E') cs with
    | none => some (cs, 0)
    | some (base, exponent) => (Text.int? exponent).map (base, ·)
  let (whole, fraction) := (Text.splitFirst? (· == '.') base).getD (base, [])
  let n ← Text.nat? (whole ++ fraction)
  return (n, exponent - fraction.length)

def ofText? (f : BinaryFormat) (text : String) : Option Nat := do
  let (negative, rest) := match text.toList with
    | '-' :: rest => (true, rest)
    | '+' :: rest => (false, rest)
    | cs => (false, cs)
  let (n, e) ← numeral? rest
  let bits := f.ofDecimal n e
  if f.isFinite bits then some (f.withSign negative bits) else none

/-- Whether `num / den` lies in the interval that rounds to `m · 2 ^ q`. Both ends are `lo / unit` and
`hi / unit`, and they belong to the interval if `m` is even. -/
structure Interval where
  lo : Nat
  hi : Nat
  unit : Nat
  closed : Bool

/-- The numbers that round to the given finite positive number. Below a power of two the neighbours are
nearer. -/
def interval (f : BinaryFormat) (bits : Nat) : Interval :=
  let (m, q) := f.decode bits
  let field := f.magnitude bits / powerOfTwo f.fractionBits
  let up := powerOfTwo (q - 2).toNat
  let unit := powerOfTwo (2 - q).toNat
  let below := if m = powerOfTwo f.fractionBits && 1 < field then 1 else 2
  ⟨(4 * m - below) * up, (4 * m + 2) * up, unit, m % 2 == 0⟩

def Interval.contains (i : Interval) (num den : Nat) : Bool :=
  if i.closed then i.lo * den ≤ num * i.unit && num * i.unit ≤ i.hi * den
  else i.lo * den < num * i.unit && num * i.unit < i.hi * den

/-- The least `k` with `num / den < 10 ^ k`, found by counting up from `k`. -/
def decimalExponent (num den : Nat) : Nat → Int → Int
  | 0, k => k
  | steps + 1, k =>
    if num * powerOfTen (-k).toNat < den * powerOfTen k.toNat then k
    else decimalExponent num den steps (k + 1)

/-- The multiple of `10 ^ e` that has the fewest digits and lies in the interval, the nearer of two,
and the greater if both are as near. -/
def shortestFrom (i : Interval) (num den : Nat) : Nat → Int → Nat × Int
  | 0, e => (roundQuotient (num * powerOfTen (-e).toNat) (den * powerOfTen e.toNat), e)
  | steps + 1, e =>
    let (n, d) := (num * powerOfTen (-e).toNat, den * powerOfTen e.toNat)
    let low := n / d
    let inside := fun k => i.contains (k * powerOfTen e.toNat) (powerOfTen (-e).toNat)
    match inside low, inside (low + 1) with
    | true, true => if 2 * (n % d) < d then (low, e) else (low + 1, e)
    | true, false => (low, e)
    | false, true => (low + 1, e)
    | false, false => shortestFrom i num den steps (e - 1)

/-- The digits and exponent of the shortest decimal that reads back as a finite positive number. -/
def shortest (f : BinaryFormat) (bits : Nat) : Nat × Int :=
  let (m, q) := f.decode bits
  let (num, den) := (m * powerOfTwo q.toNat, powerOfTwo (-q).toNat)
  let k := decimalExponent num den 800 (-400)
  shortestFrom (f.interval bits) num den 20 (k - 1)

def plain (n : Nat) (e : Int) : String :=
  let ds := Text.digits n
  if 0 ≤ e then String.ofList (ds ++ List.replicate e.toNat '0')
  else
    let places := (-e).toNat
    let full := List.replicate (places + 1 - ds.length) '0' ++ ds
    let whole := full.length - places
    let fraction := (((full.drop whole).reverse).dropWhile (· == '0')).reverse
    String.ofList (full.take whole ++ if fraction.isEmpty then [] else '.' :: fraction)

def render (f : BinaryFormat) (bits : Nat) : String :=
  if f.isNaN bits then "NaN"
  else
    let sign := if f.isNegative bits then "-" else ""
    if !f.isFinite bits then sign ++ "inf"
    else if f.magnitude bits = 0 then sign ++ "0"
    else
      let (n, e) := f.shortest (f.magnitude bits)
      sign ++ plain n e

end BinaryFormat

end SqlPlan
