import SqlPlan.Number.Power
import SqlPlan.Text.Chars

namespace SqlPlan.Time

/-- How strictly a date or time is written. Loose notation allows white space before separators. -/
inductive Strictness where
  | strict
  | loose
  deriving DecidableEq, Repr

/-- White space may stand here in loose notation. -/
def Strictness.skip (style : Strictness) (cs : List Char) : List Char :=
  match style with
  | .strict => cs
  | .loose => Text.trimStart cs

def digits? (width : Nat) (cs : List Char) : Option (Nat × List Char) :=
  let ds := (cs.take width).takeWhile Text.isDigit
  if ds.isEmpty then none else some (Text.natOfDigits ds, cs.drop ds.length)

def field? (width : Nat) (cs : List Char) : Option (Nat × List Char) := digits? width (Text.trimStart cs)

/-- A year: up to four digits, or any number of digits after a sign. -/
def year? (cs : List Char) : Option (Int × List Char) :=
  match Text.trimStart cs with
  | '-' :: rest => (digits? rest.length rest).map fun (n, rest) => (-(n : Int), rest)
  | '+' :: rest => (digits? rest.length rest).map fun (n, rest) => ((n : Int), rest)
  | cs => (digits? 4 cs).map fun (n, rest) => ((n : Int), rest)

def separator? (style : Strictness) (c : Char) (cs : List Char) : Option (List Char) :=
  Text.stripStart? c (style.skip cs)

/-- A fraction of a second in nanoseconds: nothing, or a point and digits. Digits after the ninth are
skipped. -/
def fraction? : List Char → Option (Nat × List Char)
  | '.' :: rest => do
    let ds := rest.takeWhile Text.isDigit
    if ds.isEmpty then none
    else
      let kept := ds.take 9
      some (Text.natOfDigits kept * powerOfTen (9 - kept.length), rest.drop ds.length)
  | cs => some (0, cs)

end SqlPlan.Time
