import SqlPlan.Catalog.Outline
import SqlPlan.Json.Types
import SqlPlan.Json.Value

namespace SqlPlan

def ColumnFeatures.ofJson? (j : Json) : Option ColumnFeatures := do
  let hidden ← j.default? "hidden" false Json.bool?
  let synthesized ← j.default? "synthesized" false Json.bool?
  let readOnly ← j.default? "read_only" false Json.bool?
  return { hidden, synthesized, readOnly }

def ColumnDecl.ofJson? (j : Json) : Option ColumnDecl := do
  let name ← j.field? "name" Json.string?
  let type ← j.field? "type" SqlType.ofJson?
  let nullable ← j.default? "nullable" true Json.bool?
  let default ← j.optional? "default_value" Value.ofJson?
  let features ← j.default? "features" {} ColumnFeatures.ofJson?
  return { name, type, nullable, default, features }

def TableDecl.ofJson? (j : Json) : Option TableDecl := do
  let name ← j.field? "name" Json.string?
  let schema ← j.default? "schema" "" Json.string?
  let columns ← j.field? "columns" (Json.list? ColumnDecl.ofJson?)
  return { name, schema, columns }

def FunctionDecl.ofJson? (j : Json) : Option FunctionDecl := do
  let id ← j.field? "id" Json.size?
  let name ← j.field? "name" Json.string?
  let result ← j.field? "return_type" SqlType.ofJson?
  let parameters ← j.field? "parameter_types" (Json.list? SqlType.ofJson?)
  let tableValued ← j.default? "features" false fun f => f.field? "table_valued" Json.bool?
  return { id, name, parameters, result, tableValued }

def AggregateDecl.ofJson? (j : Json) : Option AggregateDecl := do
  let id ← j.field? "id" Json.size?
  let name ← j.field? "name" Json.string?
  let result ← j.field? "return_type" SqlType.ofJson?
  let parameters ← j.field? "parameter_types" (Json.list? SqlType.ofJson?)
  let asterisk ← j.default? "features" false fun f => f.field? "asterisk" Json.bool?
  return { id, name, parameters, result, asterisk }

def VariableDecl.ofJson? (j : Json) : Option VariableDecl := do
  let name ← j.field? "name" Json.string?
  let type ← j.field? "type" SqlType.ofJson?
  return { name, type }

def SortOrder.tags : List (String × SortOrder) := [("Ascending", ascending), ("Descending", descending)]

def ColumnOutline.ofJson? (j : Json) : Option ColumnOutline := do
  let name ← j.field? "name" Json.string?
  let type ← j.field? "type" Json.string?
  let nullable ← j.default? "nullable" true Json.bool?
  let hidden ← j.default? "hidden" false Json.bool?
  let default ← j.optional? "default" Json.string?
  return { name, type, nullable, hidden, default }

def TableOutline.ofJson? (j : Json) : Option TableOutline := do
  let name ← j.field? "name" Json.string?
  let columns ← j.field? "columns" (Json.list? ColumnOutline.ofJson?)
  let primaryKey ← j.default? "primary_key" [] (Json.list? Json.string?)
  return { name, columns, primaryKey }

def VariableOutline.ofJson? (j : Json) : Option VariableOutline := do
  let name ← j.field? "name" Json.string?
  let type ← j.field? "type" Json.string?
  return { name, type }

def SchemaOutline.ofJson? (j : Json) : Option SchemaOutline := do
  let name ← j.field? "name" Json.string?
  let tables ← j.default? "tables" [] (Json.list? TableOutline.ofJson?)
  let externals ← j.default? "variables" [] (Json.list? VariableOutline.ofJson?)
  return { name, tables, externals }

end SqlPlan
