import SqlPlan.Catalog.Schema

namespace SqlPlan.Builtin

open SqlType

abbrev varbinary : SqlType := string .octet true none

def scalarTable : List (String × List SqlType × SqlType) :=
  [int4, int8, flexibleDecimal, double].map (fun t => ("abs", [t], t)) ++
  [int4, int8, flexibleDecimal].map (fun t => ("mod", [t, t], t)) ++
  [("upper", [flexibleVarchar], flexibleVarchar),
   ("lower", [flexibleVarchar], flexibleVarchar),
   ("character_length", [flexibleVarchar], int8),
   ("char_length", [flexibleVarchar], int8),
   ("octet_length", [flexibleVarchar], int8),
   ("octet_length", [varbinary], int8),
   ("substring", [flexibleVarchar, int8], flexibleVarchar),
   ("substring", [flexibleVarchar, int8, int8], flexibleVarchar),
   ("current_date", [], date),
   ("localtime", [], time false),
   ("localtimestamp", [], timestamp false),
   ("current_timestamp", [], timestamp true)]

def comparableTypes : List SqlType :=
  [int4, int8, flexibleDecimal, real, double, flexibleVarchar, date, time false, timestamp false,
   timestamp true]

def aggregateTable : List (String × SqlType × SqlType) :=
  comparableTypes.flatMap (fun t => [("count", t, int8), ("min", t, t), ("max", t, t)]) ++
  [("count", boolean, int8),
   ("sum", int4, int8),
   ("sum", int8, flexibleDecimal),
   ("sum", flexibleDecimal, flexibleDecimal),
   ("sum", double, double),
   ("avg", int8, flexibleDecimal),
   ("avg", flexibleDecimal, flexibleDecimal),
   ("avg", double, double)]

def functions : List FunctionDecl :=
  scalarTable.zipIdx.map fun ((name, parameters, result), i) =>
    { id := i + 1, name, parameters, result }

/-- Each aggregate of one argument is followed by its DISTINCT variant. -/
def aggregateShapes : List (String × List SqlType × SqlType × Bool) :=
  ("count", [], int8, true) ::
    aggregateTable.flatMap fun (name, parameter, result) =>
      [(name, [parameter], result, false), (name ++ distinctSuffix, [parameter], result, false)]

def aggregates : List AggregateDecl :=
  aggregateShapes.zipIdx.map fun ((name, parameters, result, asterisk), i) =>
    { id := scalarTable.length + i + 1, name, parameters, result, asterisk }

/-- Adds all of a list, stopping at the first that is refused. What was added before stays. -/
def addAll {α : Type} (add : Schema → α → Except CatalogError α × Schema) :
    Schema → List α → Except CatalogError Unit × Schema
  | s, [] => (.ok (), s)
  | s, decl :: rest =>
    match add s decl with
    | (.ok _, s) => addAll add s rest
    | (.error e, s) => (.error e, s)

def install (s : Schema) : Except CatalogError Unit × Schema :=
  match addAll Schema.addFunction s functions with
  | (.ok _, s) => addAll Schema.addAggregate s aggregates
  | (.error e, s) => (.error e, s)

end SqlPlan.Builtin
