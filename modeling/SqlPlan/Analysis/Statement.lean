import SqlPlan.Analysis.CatalogChange
import SqlPlan.Analysis.Write

namespace SqlPlan

variable {Q : Type}

inductive Resolution where
  | plan (plan : ExecutionPlan)
  | change (change : CatalogChange)
  deriving Inhabited

def Planned.addEmit (planned : Planned) : Planning Nat :=
  let columns := planned.relation.exportedColumns.map fun c => (c.carrier, c.name)
  Planning.addSink (.emit columns) planned.output

def Query.planStatement (q : Query (Expr Q)) : Planning Nat := do
  let planned ← q.plan []
  planned.addEmit

/-- Runs the planning of a whole statement, which returns the last node, on a graph of its own. -/
def Planning.complete (kind : PlanKind) (m : Planning Nat) : Analysis Resolution := fun env minted =>
  let inner := m env ⟨minted, .empty⟩
  (inner.1.map fun terminal => .plan ⟨kind, inner.2.graph, terminal⟩, inner.2.minted)

def Resolution.ofChange (m : Analysis CatalogChange) : Analysis Resolution := do
  let change ← m
  return .change change

def Statement.resolve : Statement (Expr Q) → Analysis Resolution
  | .select q => Planning.complete .query q.planStatement
  | .insert i => Planning.complete .insert i.plan
  | .update u => Planning.complete .update u.plan
  | .delete d => Planning.complete .delete d.plan
  | .createTable c => Resolution.ofChange c.resolve
  | .dropTable name ifExists => Resolution.ofChange (CatalogChange.ofDropTable name ifExists)
  | .createIndex c => Resolution.ofChange c.resolve
  | .dropIndex name ifExists => Resolution.ofChange (CatalogChange.ofDropIndex name ifExists)

end SqlPlan
