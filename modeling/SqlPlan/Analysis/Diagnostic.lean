import SqlPlan.Syntax.Name

namespace SqlPlan

inductive DiagnosticCode where
  | symbolNotFound
  | variableNotFound
  | columnNotFound
  | relationNotFound
  | tableNotFound
  | indexNotFound
  | schemaNotFound
  | catalogNotFound
  | functionNotFound
  | variableAmbiguous
  | columnAmbiguous
  | relationAmbiguous
  | functionAmbiguous
  | columnAlreadyExists
  | tableAlreadyExists
  | indexAlreadyExists
  | viewAlreadyExists
  | primaryIndexAlreadyExists
  | inconsistentType
  | inconsistentColumns
  | invalidTypeLength
  | invalidNumericPrecision
  | invalidNumericScale
  | unsupportedDecimalValue
  | unsupportedApproximateNumberValue
  | unsupportedStringValue
  | unsupportedFeature
  | flexibleLengthIsNotSupported
  | malformedSyntax
  | missingContextOfNull
  | missingContextOfDefaultValue
  | invalidAggregationColumn
  deriving DecidableEq, Repr, Inhabited

namespace DiagnosticCode

def text : DiagnosticCode → String
  | symbolNotFound => "symbol_not_found"
  | variableNotFound => "variable_not_found"
  | columnNotFound => "column_not_found"
  | relationNotFound => "relation_not_found"
  | tableNotFound => "table_not_found"
  | indexNotFound => "index_not_found"
  | schemaNotFound => "schema_not_found"
  | catalogNotFound => "catalog_not_found"
  | functionNotFound => "function_not_found"
  | variableAmbiguous => "variable_ambiguous"
  | columnAmbiguous => "column_ambiguous"
  | relationAmbiguous => "relation_ambiguous"
  | functionAmbiguous => "function_ambiguous"
  | columnAlreadyExists => "column_already_exists"
  | tableAlreadyExists => "table_already_exists"
  | indexAlreadyExists => "index_already_exists"
  | viewAlreadyExists => "view_already_exists"
  | primaryIndexAlreadyExists => "primary_index_already_exists"
  | inconsistentType => "inconsistent_type"
  | inconsistentColumns => "inconsistent_columns"
  | invalidTypeLength => "invalid_type_length"
  | invalidNumericPrecision => "invalid_numeric_precision"
  | invalidNumericScale => "invalid_numeric_scale"
  | unsupportedDecimalValue => "unsupported_decimal_value"
  | unsupportedApproximateNumberValue => "unsupported_approximate_number_value"
  | unsupportedStringValue => "unsupported_string_value"
  | unsupportedFeature => "unsupported_feature"
  | flexibleLengthIsNotSupported => "flexible_length_is_not_supported"
  | malformedSyntax => "malformed_syntax"
  | missingContextOfNull => "missing_context_of_null"
  | missingContextOfDefaultValue => "missing_context_of_default_value"
  | invalidAggregationColumn => "invalid_aggregation_column"

def all : List DiagnosticCode :=
  [symbolNotFound, variableNotFound, columnNotFound, relationNotFound, tableNotFound, indexNotFound,
   schemaNotFound, catalogNotFound, functionNotFound, variableAmbiguous, columnAmbiguous,
   relationAmbiguous, functionAmbiguous, columnAlreadyExists, tableAlreadyExists, indexAlreadyExists,
   viewAlreadyExists, primaryIndexAlreadyExists, inconsistentType, inconsistentColumns,
   invalidTypeLength, invalidNumericPrecision, invalidNumericScale, unsupportedDecimalValue,
   unsupportedApproximateNumberValue, unsupportedStringValue, unsupportedFeature,
   flexibleLengthIsNotSupported, malformedSyntax, missingContextOfNull, missingContextOfDefaultValue,
   invalidAggregationColumn]

def ofText? (s : String) : Option DiagnosticCode := all.find? (·.text == s)

end DiagnosticCode

structure Diagnostic where
  code : DiagnosticCode
  location : Option Span
  message : String
  deriving DecidableEq, Repr, Inhabited

def Diagnostic.text (d : Diagnostic) : String := d.code.text ++ ": " ++ d.message

/-- The problems of a failed analysis: at least one, in the order in which they were found. -/
structure Report where
  first : Diagnostic
  rest : List Diagnostic := []
  deriving DecidableEq, Repr, Inhabited

def Report.toList (r : Report) : List Diagnostic := r.first :: r.rest

end SqlPlan
