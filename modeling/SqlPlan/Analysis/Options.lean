namespace SqlPlan

structure Options where
  lowercaseRegularIdentifiers : Bool := true
  preferSmallIntegerLiterals : Bool := false
  preferSmallDecimalLiterals : Bool := false
  allowContextIndependentNull : Bool := false
  castLiteralsInContext : Bool := true
  hostParameterDeclarationStartsWithColon : Bool := false
  /-- The precision of a decimal type without arguments; `none` means flexible. -/
  defaultDecimalPrecision : Option Nat := none
  /-- The scale of a decimal type without a scale; `none` means zero. -/
  defaultDecimalScale : Option Nat := none
  maxDecimalPrecision : Nat := 38
  /-- The zone of literals without one, in minutes. -/
  systemZoneOffset : Int := 0
  deriving DecidableEq, Repr, Inhabited

end SqlPlan
