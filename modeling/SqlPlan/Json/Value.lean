import SqlPlan.Json.Basic
import SqlPlan.Value

namespace SqlPlan

namespace BinaryFormat

/-- Takes factors of two out of a number while any of `k` are left. -/
def halve : Nat → Nat → Nat × Nat
  | m, 0 => (m, 0)
  | m, k + 1 => if m % 2 = 0 then halve (m / 2) k else (m, k + 1)

/-- The decimal that a finite number is, of the least scale. -/
def toDecimal (f : BinaryFormat) (bits : Nat) : Decimal :=
  let (m, q) := f.decode bits
  let (odd, k) := halve m (-q).toNat
  let n : Int := odd * Nat.pow 5 k * powerOfTwo q.toNat
  ⟨if f.isNegative bits then -n else n, k⟩

def ofInt (f : BinaryFormat) (n : Int) : Nat := f.withSign (decide (n < 0)) (f.ofRatio n.natAbs 1)

end BinaryFormat

namespace Json

def double? : Json → Option UInt64
  | number (.integer n) => some (UInt64.ofNat (BinaryFormat.double.ofInt n))
  | number (.double bits) => some bits
  | _ => none

def single? : Json → Option UInt32
  | number (.integer n) => some (UInt32.ofNat (BinaryFormat.single.ofInt n))
  | number (.double bits) =>
    some (UInt32.ofNat (BinaryFormat.single.convert BinaryFormat.double bits.toNat))
  | _ => none

def decimal? : Json → Option Decimal
  | string s => Decimal.ofText? s
  | number (.integer n) => some ⟨n, 0⟩
  | number (.double bits) => some (BinaryFormat.double.toDecimal bits.toNat)
  | _ => none

def intOf? (width : IntWidth) (j : Json) : Option Int := do
  let n ← j.int?
  if width.Holds n then some n else none

def chars? {α : Type} (read : List Char → Option α) (j : Json) : Option α := do
  let s ← j.string?
  read s.toList

end Json

namespace Value

def zone? (j : Json) : Option ZoneOffset := do
  let seconds ← j.int?
  ZoneOffset.ofSeconds? seconds

def ofJson? (j : Json) : Option Value := do
  match ← j.variant? with
  | ("Boolean", some data) => data.bool?.map boolean
  | ("Int1", some data) => (data.intOf? .w8).map (integer .w8)
  | ("Int2", some data) => (data.intOf? .w16).map (integer .w16)
  | ("Int4", some data) => (data.intOf? .w32).map (integer .w32)
  | ("Int8", some data) => (data.intOf? .w64).map (integer .w64)
  | ("Float4", some data) => data.single?.map real
  | ("Float8", some data) => data.double?.map double
  | ("Decimal", some data) => data.decimal?.map decimal
  | ("Character", some data) => data.string?.map character
  | ("Octet", some data) =>
    (data.list? (Json.natBelow? 256)).map fun bytes => octet (bytes.map UInt8.ofNat)
  | ("Bit", some data) => (data.list? Json.bool?).map bit
  | ("Date", some data) => (data.chars? (Date.ofChars? .loose)).map date
  | ("TimeOfDay", some data) => (data.chars? (TimeOfDay.ofChars? .loose)).map time
  | ("TimeOfDayWithZone", some data) =>
    let t ← data.field? "time" (Json.chars? (TimeOfDay.ofChars? .loose))
    let zone ← data.field? "offset" zone?
    return zonedTime t zone
  | ("TimePoint", some data) => (data.chars? TimePoint.ofIsoChars?).map timestamp
  | ("TimePointWithZone", some data) => (data.chars? ZonedPoint.ofIsoChars?).map zonedTimestamp
  | _ => j.enum? [("Null", null)]

def integerTag : IntWidth → String
  | .w8 => "Int1"
  | .w16 => "Int2"
  | .w32 => "Int4"
  | .w64 => "Int8"

def toJson : Value → Json
  | null => .string "Null"
  | boolean b => .tagged "Boolean" (.bool b)
  | integer width n => .tagged (integerTag width) (.ofInt n)
  | real bits => .tagged "Float4"
      (.number (.double (UInt64.ofNat (BinaryFormat.double.convert BinaryFormat.single bits.toNat))))
  | double bits => .tagged "Float8" (.number (.double bits))
  | decimal d => .tagged "Decimal" (.string d.render)
  | character s => .tagged "Character" (.string s)
  | octet bytes => .tagged "Octet" (.ofList (fun b => .ofNat b.toNat) bytes)
  | bit bits => .tagged "Bit" (.ofList .bool bits)
  | date d => .tagged "Date" (.string d.render)
  | time t => .tagged "TimeOfDay" (.string t.render)
  | zonedTime t zone =>
    .record "TimeOfDayWithZone" [("offset", .ofInt zone.seconds), ("time", .string t.render)]
  | timestamp p => .tagged "TimePoint" (.string (p.render "T"))
  | zonedTimestamp z => .tagged "TimePointWithZone" (.string z.renderIso)

end Value

end SqlPlan
