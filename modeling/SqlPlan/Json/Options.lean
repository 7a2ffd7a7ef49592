import SqlPlan.Analysis.Diagnostic
import SqlPlan.Analysis.Options
import SqlPlan.Json.Name
import SqlPlan.Json.Text
import SqlPlan.Type.Basic

namespace SqlPlan

namespace Options

def ofJson? (j : Json) : Option Options := do
  let flag := fun name default => j.default? name default Json.bool?
  let number := fun name => j.optional? name Json.word?
  let lowercaseRegularIdentifiers ← flag "lowercase_regular_identifiers" true
  let preferSmallIntegerLiterals ← flag "prefer_small_integer_literals" false
  let preferSmallDecimalLiterals ← flag "prefer_small_decimal_literals" false
  let allowContextIndependentNull ← flag "allow_context_independent_null" false
  let castLiteralsInContext ← flag "cast_literals_in_context" true
  let hostParameterDeclarationStartsWithColon ←
    flag "host_parameter_declaration_starts_with_colon" false
  let defaultDecimalPrecision ← number "default_decimal_precision"
  let defaultDecimalScale ← number "default_decimal_scale"
  let maxDecimalPrecision ← j.default? "max_decimal_precision" 38 Json.word?
  let systemZoneOffset ← j.default? "system_zone_offset" 0 fun n => do
    let n ← n.int?
    if IntWidth.w32.Holds n then some n else none
  return {
    lowercaseRegularIdentifiers
    preferSmallIntegerLiterals
    preferSmallDecimalLiterals
    allowContextIndependentNull
    castLiteralsInContext
    hostParameterDeclarationStartsWithColon
    defaultDecimalPrecision
    defaultDecimalScale
    maxDecimalPrecision
    systemZoneOffset }

def fields (o : Options) : List (String × Json) :=
  [("lowercase_regular_identifiers", .bool o.lowercaseRegularIdentifiers),
   ("prefer_small_integer_literals", .bool o.preferSmallIntegerLiterals),
   ("prefer_small_decimal_literals", .bool o.preferSmallDecimalLiterals),
   ("allow_context_independent_null", .bool o.allowContextIndependentNull),
   ("cast_literals_in_context", .bool o.castLiteralsInContext),
   ("host_parameter_declaration_starts_with_colon", .bool o.hostParameterDeclarationStartsWithColon),
   ("default_decimal_precision", .ofOption .ofNat o.defaultDecimalPrecision),
   ("default_decimal_scale", .ofOption .ofNat o.defaultDecimalScale),
   ("max_decimal_precision", .ofNat o.maxDecimalPrecision),
   ("system_zone_offset", .ofInt o.systemZoneOffset)]

def toJson (o : Options) : Json := .object o.fields

/-- Options from the text of an object, in which no field may be repeated. Other members are ignored. -/
def ofText? (text : String) : Option Options := do
  let j ← Json.ofText? text
  let members ← j.members?
  let names := (toJson {}).members?.getD [] |>.map (·.1)
  let known := (members.map (·.1)).filter names.contains
  if known.eraseDups.length = known.length then ofJson? j else none

end Options

def Diagnostic.toJson (d : Diagnostic) : Json :=
  .object [("code", .string d.code.text), ("location", .ofOption Span.toJson d.location),
    ("message", .string d.message)]

end SqlPlan
