import SqlPlan.Analysis.Step
import SqlPlan.Time.Zoned

namespace SqlPlan

/-- What the position of an expression expects: its type, and what DEFAULT stands for where it is
allowed. -/
structure Target where
  type : SqlType
  default : Option Value := none
  deriving DecidableEq, Repr, Inhabited

/-- A resolved expression with its type. `aggregated` tells whether an aggregate call was resolved in
it. -/
structure Typed where
  expr : Scalar
  type : SqlType
  aggregated : Bool := false
  deriving Repr, Inhabited

def Typed.constant (value : Value) (type : SqlType) : Typed := ⟨.immediate value type, type, false⟩

/-- Why a literal stands for no constant. -/
inductive LiteralFault where
  | diagnostic (d : Diagnostic)
  | panic
  deriving DecidableEq, Repr, Inhabited

namespace Literal

def numeral? (text : String) : Option (List Char × List Char) :=
  let (whole, fraction) := (Text.splitFirst? (· == '.') text.toList).getD (text.toList, [])
  if !(whole ++ fraction).isEmpty && (whole ++ fraction).all Text.isDigit then some (whole, fraction)
  else none

def integerWidth (preferSmall : Bool) (n : Int) : IntWidth :=
  if preferSmall && IntWidth.w8.Holds n then .w8
  else if preferSmall && IntWidth.w16.Holds n then .w16
  else if IntWidth.w32.Holds n then .w32
  else .w64

def precisionOf (unscaled scale : Nat) : Nat := max (max (Text.digits unscaled).length scale) 1

/-- An exact number: an integer if it has no fraction and 64 bits hold it, else a decimal. -/
def exactConstant (o : Options) (negative : Bool) (text : String) : Except LiteralFault (Value × SqlType) :=
  match numeral? text with
  | none => .error (.diagnostic ⟨.malformedSyntax, none, "invalid numeric literal '" ++ text ++ "'"⟩)
  | some (whole, fraction) =>
    let magnitude := Text.natOfDigits (whole ++ fraction)
    let unscaled : Int := if negative then -magnitude else magnitude
    let scale := fraction.length
    let precision := precisionOf magnitude scale
    if o.maxDecimalPrecision < precision then
      let sign := if negative then "-" else ""
      .error (.diagnostic ⟨.unsupportedDecimalValue, none, "numeric literal '" ++ sign ++ text ++
        "' exceeds the maximum precision " ++ Text.ofNat o.maxDecimalPrecision⟩)
    else if scale = 0 ∧ IntWidth.w64.Holds unscaled then
      let width := integerWidth o.preferSmallIntegerLiterals unscaled
      .ok (.integer width unscaled, .integer width)
    else
      let type := if o.preferSmallDecimalLiterals then .decimal (some precision) (some scale)
        else .flexibleDecimal
      .ok (.decimal ⟨unscaled, scale⟩, type)

def approximateConstant (negative : Bool) (text : String) : Except LiteralFault (Value × SqlType) :=
  match BinaryFormat.double.ofText? text with
  | some bits =>
    let bits := if negative then BinaryFormat.double.negate bits else bits
    .ok (.double (UInt64.ofNat bits), .double)
  | none => .error (.diagnostic ⟨.unsupportedApproximateNumberValue, none,
      "approximate numeric literal '" ++ text ++ "' is out of range"⟩)

def characters : List String → Except LiteralFault (List Char)
  | [] => .ok []
  | token :: rest =>
    match Text.unquote? [] token with
    | some body => (characters rest).map (body ++ ·)
    | none => .error (.diagnostic ⟨.malformedSyntax, none, "malformed string literal " ++ token⟩)

def bit? : Char → Option Bool
  | '0' => some false
  | '1' => some true
  | _ => none

/-- The bits of all tokens; a token that is not quoted has none. -/
def bits : List String → Except LiteralFault (List Bool)
  | [] => .ok []
  | token :: rest =>
    match ((Text.unquote? ['B', 'b'] token).getD []).mapM bit? with
    | some here => (bits rest).map (here ++ ·)
    | none => .error (.diagnostic ⟨.unsupportedStringValue, none, "invalid bit string " ++ token⟩)

def octets? : List Char → Option (List UInt8)
  | [] => some []
  | [_] => none
  | a :: b :: rest => do
    let high ← Text.hexValue? a
    let low ← Text.hexValue? b
    let bytes ← octets? rest
    return UInt8.ofNat (16 * high + low) :: bytes

/-- The bytes of all tokens, whose digits are joined first; a token that is not quoted has none. -/
def octets (tokens : List String) : Except LiteralFault (List UInt8) :=
  let digits := tokens.flatMap fun token => (Text.unquote? ['X', 'x'] token).getD []
  match octets? digits with
  | some bytes => .ok bytes
  | none => .error (.diagnostic ⟨.unsupportedStringValue, none,
      "invalid octet string '" ++ String.ofList digits ++ "'"⟩)

/-- A date or time. One with zone takes the system zone if none is written, and one without zone must
not be written with one. -/
def temporalValue (systemZone : Option ZoneOffset) (kind : TemporalKind) (cs : List Char) :
    Except ReadFault (Value × SqlType) :=
  match kind with
  | .date => do
    let date ← Date.ofChars? .strict (Text.trim cs)
    return (.date date, .date)
  | .time false => do
    let (time, zone) ← TimeOfDay.ofZonedChars cs
    if zone.isSome then .error .invalid else return (.time time, .time false)
  | .time true => do
    let (time, zone) ← TimeOfDay.ofZonedChars cs
    let zone ← zone <|> systemZone
    return (.zonedTime time zone, .time true)
  | .timestamp false => do
    let (point, zone) ← TimePoint.ofZonedChars cs
    if zone.isSome then .error .invalid else return (.timestamp point, .timestamp false)
  | .timestamp true => do
    let (point, zone) ← TimePoint.ofZonedChars cs
    let zone ← zone <|> systemZone
    let zoned ← ZonedPoint.ofLocal? point zone
    return (.zonedTimestamp zoned, .timestamp true)

/-- The system zone is computed first, in 32 bits, also where it is not needed. -/
def temporalConstant (o : Options) (kind : TemporalKind) (token : String) :
    Except LiteralFault (Value × SqlType) :=
  let seconds := o.systemZoneOffset * 60
  if ¬IntWidth.w32.Holds seconds then .error .panic
  else
    let body := (Text.unquote? [] token).getD []
    match temporalValue (ZoneOffset.ofSeconds? seconds) kind body with
    | .ok constant => .ok constant
    | .error .invalid =>
      .error (.diagnostic ⟨.unsupportedStringValue, none, "invalid date/time literal " ++ token⟩)
    | .error .panic => .error .panic

def truth : TruthValue → Value
  | .isTrue => .boolean true
  | .isFalse => .boolean false
  | .isUnknown => .null

def constant (o : Options) : Literal → Except LiteralFault (Value × SqlType)
  | boolean value => .ok (truth value, .boolean)
  | exact negative digits => exactConstant o negative digits
  | approximate negative text => approximateConstant negative text
  | character tokens => (characters tokens).map fun cs => (.character (String.ofList cs), .flexibleVarchar)
  | bit tokens => (bits tokens).map fun bs => (.bit bs, .string .bit true none)
  | octet tokens => (octets tokens).map fun bytes => (.octet bytes, .string .octet true none)
  | temporal kind token => temporalConstant o kind token
  | null => .error (.diagnostic ⟨.missingContextOfNull, none, "cannot infer the type of NULL here"⟩)
  | default => .error (.diagnostic ⟨.missingContextOfDefaultValue, none, "DEFAULT is not allowed here"⟩)

def typed (o : Options) (target : Option Target) : Literal → Except LiteralFault Typed
  | null =>
    match target with
    | some target => .ok (.constant .null target.type)
    | none =>
      if o.allowContextIndependentNull then .ok (.constant .null .unknown)
      else (constant o null).map fun (value, type) => .constant value type
  | default =>
    match target with
    | some ⟨type, some value⟩ => .ok (.constant value type)
    | _ => (constant o default).map fun (value, type) => .constant value type
  | literal => do
    let (value, type) ← constant o literal
    match target with
    | some target =>
      if target.type ≠ type ∧ o.castLiteralsInContext then
        return ⟨.cast .error target.type (.immediate value type), target.type, false⟩
      else return .constant value type
    | none => return .constant value type

def resolve {σ : Type} (literal : Literal) (target : Option Target) : Step σ Typed := do
  let o ← Step.options
  match literal.typed o target with
  | .ok x => return x
  | .error (.diagnostic d) => Step.failWith d
  | .error .panic => Step.throw .panic

def negated? : Literal → Option Literal
  | exact negative digits => some (exact (!negative) digits)
  | approximate negative text => some (approximate (!negative) text)
  | _ => none

end Literal

end SqlPlan
