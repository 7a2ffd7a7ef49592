import SqlPlan.Analysis.Step

namespace SqlPlan

namespace DataType

/-- The length of a string type. A fixed length defaults to one and a varying one is flexible. -/
def stringLength (varying : Bool) (length : Option Length) : Except Diagnostic (Option Nat) :=
  match varying, length with
  | false, none => .ok (some 1)
  | true, none => .ok none
  | true, some .flexible => .ok none
  | false, some .flexible =>
    .error ⟨.flexibleLengthIsNotSupported, none, "fixed-length types require an explicit length"⟩
  | _, some (.value 0) => .error ⟨.invalidTypeLength, none, "type length must be positive"⟩
  | _, some (.value n) => .ok (some n)

/-- A number or star as written, or the default where nothing is written. -/
def argument (written : Option Length) (default : Option Nat) : Option Nat :=
  match written with
  | none => default
  | some .flexible => none
  | some (.value n) => some n

/-- A decimal type. A flexible precision makes the scale flexible too. -/
def decimalType (o : Options) (precision scale : Option Length) : Except Diagnostic SqlType :=
  match argument precision o.defaultDecimalPrecision with
  | none => .ok .flexibleDecimal
  | some p =>
    if p = 0 ∨ o.maxDecimalPrecision < p then
      .error ⟨.invalidNumericPrecision, none, "decimal precision must be between 1 and " ++
        Text.ofNat o.maxDecimalPrecision ++ ", got " ++ Text.ofNat p⟩
    else match argument scale (some (o.defaultDecimalScale.getD 0)) with
      | none => .error ⟨.flexibleLengthIsNotSupported, none,
          "flexible scale requires flexible precision"⟩
      | some s =>
        if p < s then .error ⟨.invalidNumericScale, none, "decimal scale " ++ Text.ofNat s ++
          " exceeds precision " ++ Text.ofNat p⟩
        else .ok (.decimal (some p) (some s))

/-- The type that a type name denotes. -/
def type (o : Options) : DataType → Except Diagnostic SqlType
  | boolean => .ok .boolean
  | integer width => .ok (.integer width)
  | real => .ok .real
  | float => .ok .double
  | doublePrecision => .ok .double
  | decimal precision scale => decimalType o precision scale
  | string kind varying length => (stringLength varying length).map (.string kind varying)
  | date => .ok .date
  | time zoned => .ok (.time zoned)
  | timestamp zoned => .ok (.timestamp zoned)
  | userDefined name =>
    .error ⟨.unsupportedFeature, some name.span, "type '" ++ name.render ++ "' is not supported"⟩

def resolve {σ : Type} (t : DataType) : Step σ SqlType := do
  let o ← Step.options
  Step.ofExcept (t.type o)

end DataType

end SqlPlan
