import SqlPlan.Analysis.Statement

namespace SqlPlan

/-- The state of the compiler: what was minted and built so far, and the open scopes. -/
structure Workspace where
  draft : Draft
  scopes : ScopeArena
  deriving Inhabited

abbrev Compiling := Step Workspace

namespace Compiling

variable {α : Type}

def ofPlanning (m : Planning α) : Compiling α := fun env w =>
  let inner := m env w.draft
  (inner.1, { w with draft := inner.2 })

instance : MonadLift Planning Compiling := ⟨ofPlanning⟩

def visible (scope : Option Nat) : Compiling Scopes := fun _ w => (.ok (w.scopes.visible scope), w)

def update (id : Nat) (f : Scope → Scope) : Compiling Unit := fun _ w =>
  (.ok (), { w with scopes := w.scopes.update id f })

def addRelations (id : Nat) (relations : List RelationInfo) : Compiling Unit :=
  update id fun s => { s with relations := s.relations ++ relations }

/-- Runs a step in a new scope within the given one, and closes the new scope also if the step fails. -/
def inScope (parent : Option Nat) (f : Nat → Compiling α) : Compiling α := fun env w =>
  let opened := w.scopes.push parent
  let inner := f opened.1 env { w with scopes := opened.2 }
  (inner.1, { inner.2 with scopes := inner.2.scopes.pop opened.1 })

/-- Runs a step on a graph of its own. -/
def separately (m : Compiling α) : Compiling (α × Graph) := fun env w =>
  let inner := m env { w with draft := ⟨w.draft.minted, .empty⟩ }
  (inner.1.map (·, inner.2.draft.graph), { inner.2 with draft := ⟨inner.2.draft.minted, w.draft.graph⟩ })

end Compiling

open Compiling (addRelations inScope update visible)

variable {Q : Type}

/-- Resolves an expression within a scope, or else in an empty one. -/
def Expr.compile (e : Expr Q) (scope : Option Nat) (target : Option Target) : Compiling Typed :=
  match scope with
  | some _ => do
    let scopes ← visible scope
    e.resolve scopes target
  | none => inScope none fun id => do
    let scopes ← visible (some id)
    e.resolve scopes target

def Join.compile (outer : Option Nat) (kind : JoinKind) (swapped : Bool) (left right : Source)
    (on? : Option (JoinCondition (Expr Q))) : Compiling Source := do
  let (c, right) ← match kind, on? with
    | .cross, _ | _, none | _, some (.sharedColumns _) => condition [] kind left right on?
    | _, some (.predicate _) => inScope outer fun id => do
      addRelations id (scope left right).relations
      let scopes ← visible (some id)
      condition scopes kind left right on?
  add kind swapped left right c

def Apply.compile (outer : Option Nat) (kind : ApplyKind) (operand : Source) (function : Name)
    (es : List (Expr Q)) (correlation : Option Correlation) : Compiling Source := do
  let (key, candidates) ← candidates function es.length
  let xs ← inScope outer fun id => do
    addRelations id operand.relations
    let scopes ← visible (some id)
    arguments scopes candidates es
  add kind operand function key candidates xs correlation

mutual

/-- Compiles a query within a scope. A block sees its own tables, but its FROM clause does not. -/
def Query.compile (parent : Option Nat) : Query (Expr Q) → Compiling Planned
  | .select tables clauses => inScope parent fun id => do
    let source ← compileFrom parent tables
    update id fun s => { s with relations := source.relations }
    let scopes ← visible (some id)
    Block.plan scopes.tail { source with relations := (scopes.headD {}).relations } clauses
  | .values rows => do
    let _ ← (Values.arity rows : Planning _)
    inScope parent fun id => do
      let scopes ← visible (some id)
      Values.plan scopes rows
  | .setOperation op quantifier corresponding left right =>
    if corresponding.isSome then
      Step.fail .unsupportedFeature none "CORRESPONDING is not supported"
    else do
      let l ← left.compile parent
      let r ← right.compile parent
      SetOperation.plan op quantifier l r
  | .withClause recursive elements body =>
    if recursive then
      Step.fail .unsupportedFeature (elements.head?.map (·.name.span)) "WITH RECURSIVE is not supported"
    else inScope parent fun id => do
      compileNamed id elements
      body.compile (some id)

/-- Compiles the elements of a WITH clause into its scope, where each one sees those before it. -/
def compileNamed (id : Nat) : List (WithElement (Query (Expr Q))) → Compiling Unit
  | [] => pure ()
  | ⟨name, columns, query⟩ :: rest => do
    let scopes ← visible (some id)
    let key ← (NamedQuery.newKey (scopes.headD {}).named name : Planning _)
    let (planned, graph) ← Compiling.separately (query.compile (some id))
    let element ← NamedQuery.ofPlanned name columns planned graph
    update id fun s => { s with named := s.named ++ [(key, element)] }
    compileNamed id rest

def TableRef.compile (outer : Option Nat) : TableRef (Expr Q) → Compiling Source
  | .table name correlation => do
    let scopes ← visible outer
    let planned ← Source.named scopes name correlation
    return ⟨planned.output, [planned.relation]⟩
  | .derived query correlation => do
    let planned ← query.compile outer
    Source.derived planned correlation
  | .join kind left right condition =>
    match kind.kind? with
    | none => Step.fail .unsupportedFeature none "NATURAL JOIN is not supported"
    | some (kind, swapped) => do
      let l ← left.compile outer
      let r ← right.compile outer
      Join.compile outer kind swapped l r condition
  | .apply kind operand function arguments correlation => do
    let source ← operand.compile outer
    Apply.compile outer kind source function arguments correlation

def compileFrom (outer : Option Nat) : List (TableRef (Expr Q)) → Compiling Source
  | [] => Source.singleRow
  | first :: rest => do
    let source ← first.compile outer
    compileCross outer source rest

def compileCross (outer : Option Nat) (left : Source) : List (TableRef (Expr Q)) → Compiling Source
  | [] => pure left
  | next :: rest => do
    let right ← next.compile outer
    let source ← Source.cross left right
    compileCross outer source rest

end

def Query.compileAs (scope : Option Nat) (query : Query (Expr Q)) (correlation : Option Correlation) :
    Compiling Planned := do
  let planned ← query.compile scope
  let relation ← (planned.relation.correlate correlation : Planning _)
  return { planned with relation }

def Query.compileStatement (q : Query (Expr Q)) : Compiling Nat := do
  let planned ← q.compile none
  planned.addEmit

def Insert.compileValues (table : TableDecl) (targets : List Nat) (rows : List (List (Expr Q))) :
    Compiling (Socket × List Variable) := do
  let cells ← inScope none fun id => do
    let scopes ← visible (some id)
    (Step.each (row scopes table targets) rows.zipIdx : Analysis _)
  addValues table cells

def Insert.compileQuery (table : TableDecl) (targets : List Nat) (q : Query (Expr Q)) :
    Compiling (Socket × List Variable) := do
  let planned ← q.compile none
  written table targets planned

def Insert.compileRows (i : Insert (Expr Q)) (table : TableDecl) (targets : List Nat) :
    Compiling (Socket × List Variable) :=
  match i.source with
  | .values rows => compileValues table targets rows
  | .defaultValues => compileValues (Q := Q) table [] [[]]
  | .query q => compileQuery table targets q

def Insert.compile (i : Insert (Expr Q)) : Compiling Nat := do
  let (schema, table) ← (i.table.resolveTable : Planning _)
  let targets ← i.targets table
  let rows ← i.compileRows table targets
  addWrite schema table rows

/-- The rows of a table that satisfy a condition, which sees them through the given scope. -/
def compileRows (id : Nat) (name : Name) (condition : Option (Expr Q)) :
    Compiling (Socket × RelationInfo) := do
  let planned ← Source.scan name none
  addRelations id [planned.relation]
  let scopes ← visible (some id)
  let output ← addCondition scopes planned condition
  return (output, planned.relation)

def Update.compile (u : Update (Expr Q)) : Compiling Nat := do
  let (schema, table) ← (u.table.resolveTable : Planning _)
  let positions ← (table.resolveColumns [] (u.assignments.map (·.column)) : Planning _)
  let (rows, assigned) ← inScope none fun id => do
    let rows ← compileRows id u.table u.condition
    let scopes ← visible (some id)
    let assigned ← u.assigned scopes table positions
    return (rows, assigned)
  addWrite schema table rows assigned

def Delete.compile (d : Delete (Expr Q)) : Compiling Nat := do
  let (schema, table) ← (d.table.resolveTable : Planning _)
  let rows ← inScope none fun id => compileRows id d.table d.condition
  addWrite schema table rows

namespace CreateTable

def compileColumn (taken : List ColumnDecl) (d : ColumnDefinition (Expr Q)) : Compiling ColumnDecl := do
  let c ← bareColumn taken d
  match d.default with
  | none => return c
  | some e =>
    let x ← e.compile none (some { type := c.type })
    let value ← defaultValue c.name c.type e x
    return { c with default := some value }

def compileColumns : List ColumnDecl → List (ColumnDefinition (Expr Q)) → Compiling (List ColumnDecl)
  | defined, [] => pure defined
  | defined, d :: rest => do
    let c ← compileColumn defined d
    compileColumns (defined ++ [c]) rest

def compile (c : CreateTable (Expr Q)) : Compiling CatalogChange := do
  match ← c.place with
  | none => return .nothing
  | some (schema, name) =>
    let columns ← compileColumns [] c.columns
    c.build schema name columns

end CreateTable

def Compiling.complete (kind : PlanKind) (m : Compiling Nat) : Compiling Resolution := do
  let (terminal, graph) ← separately m
  return .plan ⟨kind, graph, terminal⟩

def Statement.compile : Statement (Expr Q) → Compiling Resolution
  | .select q => Compiling.complete .query q.compileStatement
  | .insert i => Compiling.complete .insert i.compile
  | .update u => Compiling.complete .update u.compile
  | .delete d => Compiling.complete .delete d.compile
  | .createTable c => do
    let change ← c.compile
    return .change change
  | .dropTable name ifExists => Resolution.ofChange (CatalogChange.ofDropTable name ifExists)
  | .createIndex c => Resolution.ofChange c.resolve
  | .dropIndex name ifExists => Resolution.ofChange (CatalogChange.ofDropIndex name ifExists)

end SqlPlan
