import SqlPlan.Number.Power
import SqlPlan.Text.Chars

namespace SqlPlan

/-- The number `digits · 10 ^ (-scale)`. -/
structure Decimal where
  digits : Int
  scale : Int
  deriving DecidableEq, Repr, Inhabited

namespace Decimal

def width (d : Decimal) : Nat := (Text.digits d.digits.natAbs).length

def magnitude (d : Decimal) : Int := d.width - d.scale

/-- Whether two decimals denote the same number. Numbers of different magnitude are told apart before
any power of ten is formed. -/
def sameNumber (a b : Decimal) : Bool :=
  if a.digits = 0 || b.digits = 0 then decide (a.digits = b.digits)
  else decide (a.magnitude = b.magnitude) &&
    decide (a.digits * powerOfTen (b.scale - a.scale).toNat =
      b.digits * powerOfTen (a.scale - b.scale).toNat)

def toInt? (limit : Nat) (d : Decimal) : Option Int :=
  if d.digits = 0 then some 0
  else if d.magnitude ≤ 0 || (limit : Int) < d.magnitude then none
  else if d.scale ≤ 0 then some (d.digits * powerOfTen (-d.scale).toNat)
  else if d.digits % powerOfTen d.scale.toNat = 0 then some (d.digits / powerOfTen d.scale.toNat)
  else none

/-- Digits for a sign, as in `-` for negative numbers. -/
def signText (n : Int) : String := if n < 0 then "-" else ""

/-- Negative scales down to this one are written out with zeros. -/
def leastPlainScale : Int := -15

/-- More zeros than this between the point and the first digit are not written out. -/
def mostLeadingZeros : Int := 5

/-- The text of a decimal: plain notation where few zeros have to be filled in, else a power of ten. -/
def render (d : Decimal) : String :=
  let ds := Text.digits d.digits.natAbs
  let sign := signText d.digits
  if d.digits = 0 then "0"
  else if d.scale ≤ 0 then
    if d.scale < leastPlainScale then sign ++ String.ofList ds ++ "e+" ++ Text.ofInt (-d.scale)
    else sign ++ String.ofList (ds ++ List.replicate (-d.scale).toNat '0')
  else if mostLeadingZeros < d.scale - ds.length then
    let tail := ds.drop 1
    let point := if tail.isEmpty then [] else '.' :: tail
    sign ++ String.ofList (ds.take 1 ++ point) ++ "E" ++ Text.ofInt ((ds.length : Int) - 1 - d.scale)
  else
    let places := d.scale.toNat
    let full := List.replicate (places + 1 - ds.length) '0' ++ ds
    let whole := full.length - places
    sign ++ String.ofList (full.take whole ++ '.' :: full.drop whole)

/-- Digits with underscores between them allowed anywhere but at the start. -/
def groupedDigits? (cs : List Char) : Option Nat :=
  match cs with
  | [] => none
  | '_' :: _ => none
  | _ =>
    let ds := cs.filter (· != '_')
    if ds.all Text.isDigit then some (Text.natOfDigits ds) else none

def signed? (cs : List Char) : Option Int :=
  match cs with
  | '-' :: rest => (groupedDigits? rest).map fun n => -(n : Int)
  | '+' :: rest => (groupedDigits? rest).map fun n => (n : Int)
  | _ => (groupedDigits? cs).map fun n => (n : Int)

/-- Scales beyond this are refused. -/
def scaleBound : Int := powerOfTwo 63

/-- Reads a sign, digits with an optional point, and an optional exponent. The scale is the number of
digits after the point less the exponent. -/
def ofText? (text : String) : Option Decimal := do
  let cs := text.toList
  let (base, exponent) ← match Text.splitFirst? (fun c => c == 'e' || c == 'E') cs with
    | none => some (cs, 0)
    | some (base, exponent) => (Text.int? exponent).map (base, ·)
  let (lead, trail) := (Text.splitFirst? (· == '.') base).getD (base, [])
  let n ← signed? (lead ++ trail)
  let scale := ((trail.filter (· != '_')).length : Int) - exponent
  if -scaleBound ≤ scale ∧ scale < scaleBound then some ⟨n, scale⟩ else none

end Decimal

end SqlPlan
