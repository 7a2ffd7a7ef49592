import SqlPlan.Time.Calendar
import SqlPlan.Time.Clock
import SqlPlan.Time.Zone

namespace SqlPlan

structure TimePoint where
  date : Date
  time : TimeOfDay
  deriving DecidableEq, Repr, Inhabited

namespace TimePoint

def render (between : String) (p : TimePoint) : String :=
  p.date.render ++ between ++ p.time.render

def ofIsoChars? (cs : List Char) : Option TimePoint := do
  let (date, cs) ← Date.read? .loose cs
  let cs ← Time.separator? .loose 'T' cs
  let (time, cs) ← TimeOfDay.readFull? .loose cs
  if (Text.trimStart cs).isEmpty then some ⟨date, time⟩ else none

end TimePoint

/-- A point in local time together with the offset of that local time. -/
structure ZonedPoint where
  point : TimePoint
  zone : ZoneOffset
  deriving DecidableEq, Repr, Inhabited

namespace ZonedPoint

/-- Seconds from the start of day 0 in universal time, and nanoseconds on top. -/
def instant (z : ZonedPoint) : Int × Nat :=
  (z.point.date.dayNumber * 86400 + z.point.time.seconds - z.zone.seconds, z.point.time.nano)

def ofLocal? (point : TimePoint) (zone : ZoneOffset) : Option ZonedPoint :=
  let universal : Int := point.time.seconds - zone.seconds
  if (point.date = Date.first ∧ universal < 0) ∨ (point.date = Date.last ∧ 86400 ≤ universal) then none
  else some ⟨point, zone⟩

def sameInstant (a b : ZonedPoint) : Bool := decide (a.instant = b.instant)

def render (z : ZonedPoint) : String := z.point.render " " ++ " " ++ z.zone.render

def renderIso (z : ZonedPoint) : String := z.point.render "T" ++ z.zone.renderZulu

def ofIsoChars? (cs : List Char) : Option ZonedPoint := do
  let (date, cs) ← Date.read? .loose cs
  let cs ← match cs with
    | 'T' :: rest => some rest
    | 't' :: rest => some rest
    | ' ' :: rest => some rest
    | _ => none
  let (time, cs) ← TimeOfDay.readFull? .loose cs
  let (zone, cs) ← ZoneOffset.readZulu? (Text.trimStart cs)
  if (Text.trimStart cs).isEmpty then ofLocal? ⟨date, time⟩ zone else none

end ZonedPoint

end SqlPlan
