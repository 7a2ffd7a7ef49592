import SqlPlan.Number.Binary
import SqlPlan.Number.Decimal
import SqlPlan.Text.Quoted
import SqlPlan.Time.Point
import SqlPlan.Type.Basic

namespace SqlPlan

/-- A constant. Floating-point numbers are held by their bits. -/
inductive Value where
  | null
  | boolean (b : Bool)
  | integer (width : IntWidth) (n : Int)
  | real (bits : UInt32)
  | double (bits : UInt64)
  | decimal (d : Decimal)
  | character (text : String)
  | octet (bytes : List UInt8)
  | bit (bits : List Bool)
  | date (d : Date)
  | time (t : TimeOfDay)
  | zonedTime (t : TimeOfDay) (zone : ZoneOffset)
  | timestamp (p : TimePoint)
  | zonedTimestamp (z : ZonedPoint)
  deriving DecidableEq, Repr, Inhabited

namespace Value

def isNull : Value → Bool
  | null => true
  | _ => false

/-- Sameness of values: decimals and floating-point numbers by the number, zoned points by the instant,
all else by the parts. -/
def same : Value → Value → Bool
  | real a, real b => BinaryFormat.single.sameNumber a.toNat b.toNat
  | double a, double b => BinaryFormat.double.sameNumber a.toNat b.toNat
  | decimal a, decimal b => a.sameNumber b
  | zonedTimestamp a, zonedTimestamp b => a.sameInstant b
  | a, b => decide (a = b)

def toInt64? : Value → Option Int
  | integer _ n => some n
  | decimal d => (d.toInt? 19).filter fun n => decide (IntWidth.w64.Holds n)
  | _ => none

def bitText (bits : List Bool) : String := String.ofList (bits.map fun b => if b then '1' else '0')

def octetText (upper : Bool) (bytes : List UInt8) : String :=
  String.ofList (bytes.flatMap fun b => Text.hex upper 2 b.toNat)

def text : Value → String
  | null => "NULL"
  | boolean b => if b then "TRUE" else "FALSE"
  | integer _ n => Text.ofInt n
  | real bits => BinaryFormat.single.render bits.toNat
  | double bits => BinaryFormat.double.render bits.toNat
  | decimal d => d.render
  | character s => Text.quoted Text.singleQuote s
  | octet bytes => "X'" ++ octetText true bytes ++ "'"
  | bit bits => "B'" ++ bitText bits ++ "'"
  | date d => "DATE '" ++ d.render ++ "'"
  | time t => "TIME '" ++ t.render ++ "'"
  | zonedTime t zone => "TIME WITH TIME ZONE '" ++ t.render ++ zone.render ++ "'"
  | timestamp p => "TIMESTAMP '" ++ p.render " " ++ "'"
  | zonedTimestamp z => "TIMESTAMP WITH TIME ZONE '" ++ z.render ++ "'"

end Value

end SqlPlan
