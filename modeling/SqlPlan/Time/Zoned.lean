import SqlPlan.Time.Point

namespace SqlPlan

/-- The time and the zone of a text. A zone is a final `Z`, or starts at the last sign. -/
def splitZone (cs : List Char) : List Char × Option (List Char) :=
  let cs := Text.trim cs
  match cs.getLast? with
  | some 'Z' => (Text.trimEnd cs.dropLast, some ['Z'])
  | some 'z' => (Text.trimEnd cs.dropLast, some ['z'])
  | _ =>
    match Text.splitLast? (fun c => c == '+' || c == '-') cs with
    | some (time, zone) => (Text.trimEnd time, some zone)
    | none => (cs, none)

def TimeOfDay.ofZonedChars (cs : List Char) : Except ReadFault (TimeOfDay × Option ZoneOffset) := do
  let (timeText, zoneText) := splitZone cs
  let time ← TimeOfDay.ofChars? .strict timeText
  match zoneText with
  | some zoneText =>
    let zone ← ZoneOffset.ofChars zoneText
    return (time, some zone)
  | none => return (time, none)

/-- The whole text as a date, and after `T` or a space an optional time with an optional zone. -/
def TimePoint.ofZonedChars (cs : List Char) : Except ReadFault (TimePoint × Option ZoneOffset) := do
  let cs := Text.trim cs
  match Text.splitFirst? (fun c => c == 'T' || c == ' ') cs with
  | some (dateText, timeText) =>
    let date ← Date.ofChars? .strict (Text.trim dateText)
    let (time, zone) ← TimeOfDay.ofZonedChars timeText
    return (⟨date, time⟩, zone)
  | none =>
    let date ← Date.ofChars? .strict cs
    return (⟨date, .midnight⟩, none)

end SqlPlan
