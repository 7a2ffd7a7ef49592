import SqlPlan.Analysis.From
import SqlPlan.Analysis.Select
import SqlPlan.Analysis.SetOperation
import SqlPlan.Analysis.Values

namespace SqlPlan

variable {Q : Type}

def NamedQuery.newKey {σ : Type} (named : List (String × NamedQuery)) (name : Identifier) :
    Step σ String := do
  let o ← Step.options
  let key := o.key name
  if (named.lookup key).isSome then
    Step.fail .viewAlreadyExists (some name.span) ("WITH element '" ++ key ++ "' is already defined")
  else return key

def NamedQuery.ofPlanned (name : Identifier) (columns : List Identifier) (planned : Planned)
    (graph : Graph) : Planning NamedQuery := do
  let relation ← planned.relation.correlate (some ⟨name, columns⟩)
  return ⟨graph, planned.output, relation⟩

mutual

def Query.plan (outer : Scopes) : Query (Expr Q) → Planning Planned
  | .select tables clauses => do
    let source ← planFrom outer tables
    Block.plan outer source clauses
  | .values rows => Values.plan outer rows
  | .setOperation op quantifier corresponding left right =>
    if corresponding.isSome then
      Step.fail .unsupportedFeature none "CORRESPONDING is not supported"
    else do
      let l ← left.plan outer
      let r ← right.plan outer
      SetOperation.plan op quantifier l r
  | .withClause recursive elements body =>
    if recursive then
      Step.fail .unsupportedFeature (elements.head?.map (·.name.span)) "WITH RECURSIVE is not supported"
    else do
      let named ← planNamed outer [] elements
      body.plan ({ named } :: outer)

def planNamed (outer : Scopes) (named : List (String × NamedQuery)) :
    List (WithElement (Query (Expr Q))) → Planning (List (String × NamedQuery))
  | [] => pure named
  | ⟨name, columns, query⟩ :: rest => do
    let key ← NamedQuery.newKey named name
    let (planned, graph) ← Planning.separately (query.plan ({ named } :: outer))
    let element ← NamedQuery.ofPlanned name columns planned graph
    planNamed outer (named ++ [(key, element)]) rest

/-- Plans a table expression. Joins and derived tables see the scopes around the block only. -/
def TableRef.plan (outer : Scopes) : TableRef (Expr Q) → Planning Source
  | .table name correlation => do
    let planned ← Source.named outer name correlation
    return ⟨planned.output, [planned.relation]⟩
  | .derived query correlation => do
    let planned ← query.plan outer
    Source.derived planned correlation
  | .join kind left right condition =>
    match kind.kind? with
    | none => Step.fail .unsupportedFeature none "NATURAL JOIN is not supported"
    | some (kind, swapped) => do
      let l ← left.plan outer
      let r ← right.plan outer
      Join.plan outer kind swapped l r condition
  | .apply kind operand function arguments correlation => do
    let source ← operand.plan outer
    Apply.plan outer kind source function arguments correlation

def planFrom (outer : Scopes) : List (TableRef (Expr Q)) → Planning Source
  | [] => Source.singleRow
  | first :: rest => do
    let source ← first.plan outer
    planCross outer source rest

/-- Joins further table expressions to those planned already. -/
def planCross (outer : Scopes) (left : Source) : List (TableRef (Expr Q)) → Planning Source
  | [] => pure left
  | next :: rest => do
    let right ← next.plan outer
    let source ← Source.cross left right
    planCross outer source rest

end

def Query.planAs (outer : Scopes) (query : Query (Expr Q)) (correlation : Option Correlation) :
    Planning Planned := do
  let planned ← query.plan outer
  let relation ← planned.relation.correlate correlation
  return { planned with relation }

end SqlPlan
