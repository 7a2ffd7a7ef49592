import SqlPlan.Analysis.Query
import SqlPlan.Analysis.TableColumns
import SqlPlan.Syntax.Statement

namespace SqlPlan

variable {Q : Type}

def Schema.writeTarget (s : Schema) (table : TableDecl) : Relation :=
  match s.primaryIndex? table with
  | some index => .index index
  | none => .table table

/-- Pairs each source with a new variable for the table column that it is written to. -/
def writeColumns (pairs : List (Variable × ColumnRef)) : Analysis (List (Variable × Variable)) :=
  Step.each (fun (source, ref) => do
    let destination ← Analysis.mint (.column ref)
    return (source, destination)) pairs

namespace Insert

/-- The cell of a row for a column: the expression in the column's slot, or the default. -/
def cell (scopes : Scopes) (targets : List Nat) (row : List (Expr Q)) (ref : ColumnRef) : Analysis Scalar :=
  match (targets.idxOf? ref.position).bind fun slot => row[slot]? with
  | some e => ref.column.resolveCell scopes e
  | none => pure ref.column.defaultScalar

def row (scopes : Scopes) (table : TableDecl) (targets : List Nat) (numbered : List (Expr Q) × Nat) :
    Analysis (List Scalar) :=
  let (row, i) := numbered
  if row.length ≠ targets.length then
    Step.fail .inconsistentColumns (row.head?.bind Expr.span?)
      ("row " ++ Text.ofNat (i + 1) ++ " has " ++ Text.ofNat row.length ++ " values for " ++
        Text.ofNat targets.length ++ " columns")
  else Step.each (cell scopes targets row) table.exportedRefs

def addValues (table : TableDecl) (cells : List (List Scalar)) : Planning (Socket × List Variable) := do
  let columns ← (Step.each (fun ref => Analysis.stream (some ref.column.name)) table.exportedRefs :
    Analysis _)
  let output ← Planning.add (.values columns cells) []
  return (output, columns)

def values (table : TableDecl) (targets : List Nat) (rows : List (List (Expr Q))) :
    Planning (Socket × List Variable) := do
  let cells ← (Step.each (row [] table targets) rows.zipIdx : Analysis _)
  addValues table cells

/-- The column of a query's result that is written to a table column, and what has to be computed for
it: a cast or the default. -/
def writtenColumn (targets : List Nat) (columns : List ColumnInfo) (ref : ColumnRef) :
    Analysis (Variable × Option (Variable × Scalar)) := do
  let value ← match (targets.idxOf? ref.position).bind fun slot => columns[slot]? with
    | some c => ref.column.assign (.var c.carrier) c.type none
    | none => pure ref.column.defaultScalar
  match value.asVariable? with
  | some v => return (v, none)
  | none =>
    let v ← Analysis.stream (some ref.column.name)
    return (v, some (v, value))

/-- The columns of a query's result as they are written. -/
def written (table : TableDecl) (targets : List Nat) (planned : Planned) :
    Planning (Socket × List Variable) := do
  let columns := planned.relation.exportedColumns
  if columns.length ≠ targets.length then
    Step.fail .inconsistentColumns none ("query has " ++ Text.ofNat columns.length ++
      " columns for " ++ Text.ofNat targets.length ++ " target columns")
  else
    let sources ← (Step.each (writtenColumn targets columns) table.exportedRefs : Analysis _)
    let project := sources.filterMap (·.2)
    let output ← Block.addIf (!project.isEmpty) (.project project) planned.output
    return (output, sources.map (·.1))

def query (table : TableDecl) (targets : List Nat) (q : Query (Expr Q)) :
    Planning (Socket × List Variable) := do
  let planned ← q.plan []
  written table targets planned

def targets (i : Insert (Expr Q)) (table : TableDecl) : Planning (List Nat) :=
  if i.columns.isEmpty then pure table.exportedPositions else table.resolveColumns [] i.columns

/-- Writes rows to a table. Every exported column is written. -/
def addWrite (schema : Schema) (table : TableDecl) (rows : Socket × List Variable) : Planning Nat := do
  let columns ← writeColumns (rows.2.zip table.exportedRefs)
  Planning.addSink (.write .insert (schema.writeTarget table) [] columns) rows.1

def rows (i : Insert (Expr Q)) (table : TableDecl) (targets : List Nat) :
    Planning (Socket × List Variable) :=
  match i.source with
  | .values rows => values table targets rows
  | .defaultValues => values (Q := Q) table [] [[]]
  | .query q => query table targets q

def plan (i : Insert (Expr Q)) : Planning Nat := do
  let (schema, table) ← i.table.resolveTable
  let targets ← i.targets table
  let rows ← i.rows table targets
  addWrite schema table rows

end Insert

/-- The planned rows that satisfy a condition. -/
def addCondition (scopes : Scopes) (planned : Planned) : Option (Expr Q) → Planning Socket
  | none => pure planned.output
  | some e => do
    let x ← e.resolve scopes none
    if x.aggregated then
      Step.fail .unsupportedFeature e.span? "aggregate functions are not allowed in WHERE"
    else if !x.type.isBooleanLike then
      Step.fail .inconsistentType e.span? ("WHERE condition must be boolean, found " ++ x.type.text)
    else Planning.add (.filter x.expr) [planned.output]

/-- The rows of a table that satisfy a condition, and their relation. -/
def writtenRows (name : Name) (condition : Option (Expr Q)) : Planning (Socket × RelationInfo) := do
  let planned ← Source.scan name none
  let output ← addCondition [{ relations := [planned.relation] }] planned condition
  return (output, planned.relation)

def RelationInfo.scanned? (r : RelationInfo) (position : Nat) : Option Variable :=
  (r.columns.find? fun c => c.source.any fun ref => ref.position == position).map (·.carrier)

def writeKeys (schema : Schema) (table : TableDecl) (r : RelationInfo) :
    Analysis (List (Variable × Variable)) :=
  match schema.primaryIndex? table with
  | none => pure []
  | some index => writeColumns (index.keys.filterMap fun key => do
      let source ← r.scanned? key.position
      let ref ← ColumnRef.of? table key.position
      return (source, ref))

namespace Update

/-- An assignment: the new column with its value, and the table column that it is written to. -/
def assignment (scopes : Scopes) (pair : Assignment (Expr Q) × ColumnRef) :
    Analysis ((Variable × Scalar) × (Variable × Variable)) := do
  let (a, ref) := pair
  let value ← ref.column.resolveCell scopes a.value
  let v ← Analysis.stream (some ref.column.name)
  let destination ← Analysis.mint (.column ref)
  return ((v, value), (v, destination))

def assigned (u : Update (Expr Q)) (scopes : Scopes) (table : TableDecl) (positions : List Nat) :
    Analysis (List ((Variable × Scalar) × (Variable × Variable))) :=
  Step.each (assignment scopes) (u.assignments.zip (table.refs positions))

def addWrite (schema : Schema) (table : TableDecl) (rows : Socket × RelationInfo)
    (assigned : List ((Variable × Scalar) × (Variable × Variable))) : Planning Nat := do
  let output ← Planning.add (.project (assigned.map (·.1))) [rows.1]
  let keys ← writeKeys schema table rows.2
  Planning.addSink (.write .update (schema.writeTarget table) keys (assigned.map (·.2))) output

def plan (u : Update (Expr Q)) : Planning Nat := do
  let (schema, table) ← u.table.resolveTable
  let positions ← table.resolveColumns [] (u.assignments.map (·.column))
  let rows ← writtenRows u.table u.condition
  let assigned ← u.assigned [{ relations := [rows.2] }] table positions
  addWrite schema table rows assigned

end Update

namespace Delete

def addWrite (schema : Schema) (table : TableDecl) (rows : Socket × RelationInfo) : Planning Nat := do
  let keys ← writeKeys schema table rows.2
  Planning.addSink (.write .delete (schema.writeTarget table) keys []) rows.1

def plan (d : Delete (Expr Q)) : Planning Nat := do
  let (schema, table) ← d.table.resolveTable
  let rows ← writtenRows d.table d.condition
  addWrite schema table rows

end Delete

end SqlPlan
