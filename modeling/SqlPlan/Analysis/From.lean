import SqlPlan.Analysis.Correlation
import SqlPlan.Analysis.Expr

namespace SqlPlan

def TableDecl.exportedRefs (table : TableDecl) : List ColumnRef :=
  (table.columns.zipIdx.filter fun (c, _) => c.isExported).map fun (c, i) => ⟨table, i, c⟩

namespace Source

/-- One row without columns, for a block without FROM clause. -/
def singleRow : Planning Source := do
  let output ← Planning.add (.values [] [[]]) []
  return ⟨output, []⟩

/-- Mints the columns of a scan: source and destination, and what is known of the column. -/
def scanColumn (ref : ColumnRef) : Analysis ((Variable × Variable) × ColumnInfo) := do
  let destination ← Analysis.stream (some ref.column.name)
  let source ← Analysis.mint (.column ref)
  return ((source, destination), ⟨some ref.column.name, destination, ref.column.type, some ref, true⟩)

/-- A scan of a table, through its primary index if it has one. -/
def scan (name : Name) (correlation : Option Correlation) : Planning Planned := do
  let (schema, table) ← name.resolveTable
  let index := schema.primaryIndex? table
  let relation := match index with
    | some index => .index index
    | none => .table table
  let columns ← (Step.each scanColumn table.exportedRefs : Analysis _)
  let output ← Planning.add (.scan relation (columns.map (·.1))) []
  let info ← RelationInfo.correlate ⟨columns.map (·.2), some table, index, some table.name⟩ correlation
  return ⟨output, info⟩

/-- Mints the column that a reference to a named query has for one of the query's own. -/
def copyColumn (c : ColumnInfo) : Analysis ((Variable × Variable) × ColumnInfo) := do
  let destination ← Analysis.stream c.name
  return ((c.carrier, destination), ⟨c.name, destination, c.type, none, c.exported⟩)

/-- A reference to a named query, as a copy of its graph. -/
def instantiate (name : String) (query : NamedQuery) (correlation : Option Correlation) :
    Planning Planned := do
  let columns ← (Step.each copyColumn query.relation.columns : Analysis _)
  let output ← Planning.add (.subquery query.graph query.output (columns.map (·.1))) []
  let info ← RelationInfo.correlate
    { columns := columns.map (·.2), correlation := some name } correlation
  return ⟨output, info⟩

/-- A table name: a named query if one is in scope, else a table of the catalog. -/
def named (outer : Scopes) (name : Name) (correlation : Option Correlation) : Planning Planned := do
  let o ← Step.options
  match name.segments with
  | [identifier] =>
    match outer.named? (o.key identifier) with
    | some query => instantiate (o.key identifier) query correlation
    | none => scan name correlation
  | _ => scan name correlation

/-- A query as a table; what it scans does not matter any more. -/
def derived (query : Planned) (correlation : Option Correlation) : Planning Source := do
  let info ← query.relation.correlate correlation
  return ⟨query.output, [{ info with table := none, index := none }]⟩

def cross (left right : Source) : Planning Source := do
  let output ← Planning.add (.join .cross none) [left.output, right.output]
  return ⟨output, left.relations ++ right.relations⟩

end Source

/-- The join of the plan, and whether its operands are exchanged; `none` for natural joins. -/
def JoinSyntax.kind? : JoinSyntax → Option (JoinKind × Bool)
  | .cross => some (.cross, false)
  | .inner => some (.inner, false)
  | .leftOuter => some (.leftOuter, false)
  | .rightOuter => some (.leftOuter, true)
  | .fullOuter => some (.fullOuter, false)
  | _ => none

namespace Join

variable {Q : Type}

def predicate (scopes : Scopes) (condition : Expr Q) : Analysis Scalar := do
  let x ← condition.resolve scopes none
  if x.aggregated then
    Step.fail .unsupportedFeature condition.span?
      "aggregate functions are not allowed in join conditions"
  else if !x.type.isBooleanLike then
    Step.fail .inconsistentType condition.span?
      ("join condition must be boolean, found " ++ x.type.text)
  else return x.expr

def exportedNamed (relations : List RelationInfo) (name : String) : List (Nat × Nat × ColumnInfo) :=
  relations.zipIdx.flatMap fun (r, i) =>
    (r.columns.zipIdx.filter fun (c, _) => c.exported && c.isNamed name).map fun (c, j) => (i, j, c)

def sharedColumn {σ : Type} (relations : List RelationInfo) (name : String) (location : Span) :
    Step σ (Nat × Nat × ColumnInfo) :=
  match exportedNamed relations name with
  | [only] => pure only
  | [] => Step.fail .columnNotFound (some location) ("USING column '" ++ name ++ "' is not found")
  | _ => Step.fail .columnAmbiguous (some location) ("USING column '" ++ name ++ "' is ambiguous")

/-- The columns of both operands that a USING name equates, with the positions of the right one. -/
def sharedPair {σ : Type} (left right : List RelationInfo) (identifier : Identifier) :
    Step σ (Scalar × Nat × Nat) := do
  let o ← Step.options
  let name := o.key identifier
  let (_, _, l) ← sharedColumn left name identifier.span
  let (i, j, r) ← sharedColumn right name identifier.span
  if (l.type.unify r.type).isNone then
    Step.fail .inconsistentType (some identifier.span)
      ("USING column '" ++ name ++ "' compares " ++ l.type.text ++ " with " ++ r.type.text)
  else return (.compare .equal (.var l.carrier) (.var r.carrier), i, j)

/-- Makes a column invisible to `*` and to bare names that have another match. -/
def hide (relations : List RelationInfo) (relation column : Nat) : List RelationInfo :=
  relations.modify relation fun r =>
    { r with columns := r.columns.modify column fun c => { c with exported := false } }

/-- The condition that equates the shared columns, and the right relations without theirs. -/
def shared {σ : Type} (columns : List Identifier) (left right : List RelationInfo) :
    Step σ (Scalar × List RelationInfo) := do
  let pairs ← Step.each (sharedPair left right) columns
  match pairs with
  | [] => Step.fail .malformedSyntax none "USING requires at least one column"
  | (first, _, _) :: rest =>
    let condition := rest.foldl (fun c (equality, _, _) => Scalar.conjunction c equality) first
    return (condition, pairs.foldl (fun rs (_, i, j) => hide rs i j) right)

/-- The condition of a join and the right operand as it is seen afterwards. -/
def condition (scopes : Scopes) (kind : JoinKind) (left right : Source)
    (condition : Option (JoinCondition (Expr Q))) : Analysis (Option Scalar × Source) := do
  match kind, condition with
  | .cross, none => return (none, right)
  | .cross, some _ =>
    Step.fail .malformedSyntax none "CROSS JOIN does not take a join condition"
  | _, none => Step.fail .malformedSyntax none "join requires ON or USING"
  | _, some (.predicate e) =>
    let c ← predicate scopes e
    return (some c, right)
  | _, some (.sharedColumns columns) =>
    let (c, relations) ← shared columns left.relations right.relations
    return (some c, { right with relations })

/-- Joins the operands. Their relations stay in the order in which they were written. -/
def add (kind : JoinKind) (swapped : Bool) (left right : Source) (c : Option Scalar) : Planning Source := do
  let inputs := if swapped then [right.output, left.output] else [left.output, right.output]
  let output ← Planning.add (.join kind c) inputs
  return ⟨output, left.relations ++ right.relations⟩

def scope (left right : Source) : Scope := { relations := left.relations ++ right.relations }

def plan (outer : Scopes) (kind : JoinKind) (swapped : Bool) (left right : Source)
    (on? : Option (JoinCondition (Expr Q))) : Planning Source := do
  let (c, right) ← condition (scope left right :: outer) kind left right on?
  add kind swapped left right c

end Join

namespace Apply

variable {Q : Type}

def argument (scopes : Scopes) (candidates : List FunctionDecl) (position : Nat) (e : Expr Q) :
    Analysis Typed := do
  let target := (Overload.commonParameter? candidates position).map fun t => { type := t }
  let x ← e.resolve scopes target
  if x.aggregated then
    Step.fail .unsupportedFeature e.span? "aggregate functions are not allowed in APPLY arguments"
  else return x

def resultColumns (function : Name) (decl : FunctionDecl) : Analysis (List (String × SqlType)) :=
  let failure := Step.fail .inconsistentType (some function.span)
    ("'" ++ decl.name ++ "' must return a non-empty table, found " ++ decl.result.text)
  match decl.result with
  | .table row => if row.toList.isEmpty then failure else pure row.toList
  | _ => failure

def resultColumn (column : String × SqlType) : Analysis ColumnInfo := do
  let v ← Analysis.stream (some column.1)
  return ⟨some column.1, v, column.2, none, true⟩

/-- The table-valued functions that a call may mean, with the key of their name. -/
def candidates (function : Name) (arity : Nat) : Planning (String × List FunctionDecl) := do
  let (key, found) ← function.resolveFunctions arity
  let candidates := found.filter (·.tableValued)
  if candidates.isEmpty then
    Step.fail .functionNotFound (some function.span)
      ("table-valued function '" ++ function.render ++ "' is not found")
  else return (key, candidates)

def arguments (scopes : Scopes) (candidates : List FunctionDecl) (es : List (Expr Q)) :
    Analysis (List Typed) :=
  Step.collect (es.zipIdx.map fun (e, i) => argument scopes candidates i e)

def add (kind : ApplyKind) (operand : Source) (function : Name) (key : String)
    (candidates : List FunctionDecl) (xs : List Typed) (correlation : Option Correlation) :
    Planning Source := do
  let decl ← Overload.select key candidates (xs.map (·.type)) (some function.span)
  let fields ← resultColumns function decl
  let columns ← (Step.each resultColumn fields : Analysis _)
  let placed := columns.zipIdx.map fun (c, i) => (i, c.carrier)
  let output ← Planning.add (.apply kind decl (xs.map (·.expr)) placed) [operand.output]
  let info ← RelationInfo.correlate { columns, correlation := some decl.name } correlation
  return ⟨output, operand.relations ++ [info]⟩

def plan (outer : Scopes) (kind : ApplyKind) (operand : Source) (function : Name)
    (es : List (Expr Q)) (correlation : Option Correlation) : Planning Source := do
  let (key, candidates) ← candidates function es.length
  let xs ← arguments ({ relations := operand.relations } :: outer) candidates es
  add kind operand function key candidates xs correlation

end Apply

end SqlPlan
