import SqlPlan.Text.Chars

namespace SqlPlan

/-- Why no value is read from a text. It has another form, or reading it breaks off. -/
inductive ReadFault where
  | invalid
  | panic
  deriving DecidableEq, Repr, Inhabited

instance : MonadLift Option (Except ReadFault) where
  monadLift
    | some a => .ok a
    | none => .error .invalid

namespace Text

def byteCount (cs : List Char) : Nat := cs.foldr (fun c n => c.utf8Size + n) 0

/-- Cuts a text after a number of bytes, which is an error inside of a character. -/
def splitBytes : Nat → List Char → Except ReadFault (List Char × List Char)
  | 0, cs => .ok ([], cs)
  | _, [] => .error .panic
  | n, c :: cs =>
    if n < c.utf8Size then .error .panic
    else do
      let (start, rest) ← splitBytes (n - c.utf8Size) cs
      return (c :: start, rest)

end Text

structure ZoneOffset where
  seconds : Int
  deriving DecidableEq, Repr, Inhabited

namespace ZoneOffset

def ofSeconds? (seconds : Int) : Option ZoneOffset :=
  if -86400 < seconds ∧ seconds < 86400 then some ⟨seconds⟩ else none

def zero : ZoneOffset := ⟨0⟩

/-- A sign, hours and minutes, and seconds unless they are zero. -/
def render (z : ZoneOffset) : String :=
  let n := z.seconds.natAbs
  let sign := if z.seconds < 0 then "-" else "+"
  let rest := if n % 60 = 0 then "" else ":" ++ Text.padded 2 (n % 60)
  sign ++ Text.padded 2 (n / 3600) ++ ":" ++ Text.padded 2 (n / 60 % 60) ++ rest

/-- As `render`, but the zero offset is `Z` and seconds are rounded to the minute. -/
def renderZulu (z : ZoneOffset) : String :=
  if z.seconds = 0 then "Z"
  else
    let minutes := (z.seconds.natAbs + 30) / 60
    let sign := if z.seconds < 0 then "-" else "+"
    sign ++ Text.padded 2 (minutes / 60) ++ ":" ++ Text.padded 2 (minutes % 60)

def ofParts? (negative : Bool) (hours minutes : Nat) : Option ZoneOffset :=
  let n : Int := hours * 3600 + minutes * 60
  ofSeconds? (if negative then -n else n)

private def sign? : List Char → Option (Bool × List Char)
  | '+' :: rest => some (false, rest)
  | '-' :: rest => some (true, rest)
  | _ => none

/-- The whole text as `Z`, or a sign with hours and optional minutes: `+h`, `+hh`, `+hh:mm`, `+hhmm`. Four
bytes without a colon are cut in the middle. -/
def ofChars (cs : List Char) : Except ReadFault ZoneOffset :=
  if cs = ['Z'] || cs = ['z'] then .ok zero
  else do
    let (negative, rest) ← sign? cs
    let (hours, minutes) ← match Text.splitFirst? (· == ':') rest with
      | some parts => .ok parts
      | none => if Text.byteCount rest = 4 then Text.splitBytes 2 rest else .ok (rest, ['0'])
    if 2 < Text.byteCount hours || 2 < Text.byteCount minutes then .error .invalid
    else
      let hours ← Text.nat? hours
      let minutes ← Text.nat? minutes
      if 23 < hours || 59 < minutes then .error .invalid else liftM (ofParts? negative hours minutes)

private def twoDigits? : List Char → Option (Nat × List Char)
  | a :: b :: rest =>
    if Text.isDigit a && Text.isDigit b then some (Text.natOfDigits [a, b], rest) else none
  | _ => none

/-- An offset at the start of the text: `Z`, `UTC`, or a sign, two digits of hours and two of minutes
with colons or white space between. -/
def readZulu? (cs : List Char) : Option (ZoneOffset × List Char) :=
  if (cs.take 3).map Text.lowerAscii = ['u', 't', 'c'] then some (zero, cs.drop 3)
  else match cs with
    | 'Z' :: rest => some (zero, rest)
    | 'z' :: rest => some (zero, rest)
    | _ => do
      let (negative, cs) ← match cs with
        | '\u2212' :: rest => some (true, rest)
        | _ => sign? cs
      let (hours, cs) ← twoDigits? cs
      let (minutes, cs) ← twoDigits? (cs.dropWhile fun c => c == ':' || Text.isBlank c)
      if 59 < minutes then none
      else
        let zone ← ofParts? negative hours minutes
        return (zone, cs)

end ZoneOffset

end SqlPlan
