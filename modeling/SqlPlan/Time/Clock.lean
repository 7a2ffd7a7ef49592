import SqlPlan.Time.Field

namespace SqlPlan

structure TimeOfDay where
  hour : Nat
  minute : Nat
  second : Nat
  nano : Nat
  deriving DecidableEq, Repr, Inhabited

namespace TimeOfDay

def midnight : TimeOfDay := ⟨0, 0, 0, 0⟩

def secondInNanos : Nat := 1000000000

/-- A time from its written fields; the second may be 60. -/
def ofParts? (hour minute second nano : Nat) : Option TimeOfDay :=
  if 24 ≤ hour || 60 ≤ minute || 60 < second || secondInNanos ≤ nano then none
  else if second = 60 then some ⟨hour, minute, 59, secondInNanos + nano⟩
  else some ⟨hour, minute, second, nano⟩

/-- Seconds since midnight; a leap second counts as the one before it. -/
def seconds (t : TimeOfDay) : Nat := t.hour * 3600 + t.minute * 60 + t.second

/-- A fraction with three, six or nine digits, and none at all for zero. -/
def fractionText (nano : Nat) : String :=
  if nano = 0 then ""
  else if nano % 1000000 = 0 then "." ++ Text.padded 3 (nano / 1000000)
  else if nano % 1000 = 0 then "." ++ Text.padded 6 (nano / 1000)
  else "." ++ Text.padded 9 nano

def render (t : TimeOfDay) : String :=
  Text.padded 2 t.hour ++ ":" ++ Text.padded 2 t.minute ++ ":" ++
    Text.padded 2 (t.second + t.nano / secondInNanos) ++ fractionText (t.nano % secondInNanos)

/-- Hours, minutes, seconds and an optional fraction at the start of the text. -/
def readFull? (style : Time.Strictness) (cs : List Char) : Option (TimeOfDay × List Char) := do
  let (hour, cs) ← Time.field? 2 cs
  let cs ← Time.separator? style ':' cs
  let (minute, cs) ← Time.field? 2 cs
  let cs ← Time.separator? style ':' cs
  let (second, cs) ← Time.field? 2 cs
  let (nano, cs) ← Time.fraction? cs
  let time ← ofParts? hour minute second nano
  return (time, cs)

def readShort? (style : Time.Strictness) (cs : List Char) : Option (TimeOfDay × List Char) := do
  let (hour, cs) ← Time.field? 2 cs
  let cs ← Time.separator? style ':' cs
  let (minute, cs) ← Time.field? 2 cs
  let time ← ofParts? hour minute 0 0
  return (time, cs)

def ofChars? (style : Time.Strictness) (cs : List Char) : Option TimeOfDay :=
  let whole := fun (result : Option (TimeOfDay × List Char)) => do
    let (time, rest) ← result
    if (style.skip rest).isEmpty then some time else none
  whole (readFull? style cs) <|> whole (readShort? style cs)

end TimeOfDay

end SqlPlan
