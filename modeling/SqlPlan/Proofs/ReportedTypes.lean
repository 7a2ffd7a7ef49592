import SqlPlan.Proofs.PlanSoundness

namespace SqlPlan

variable {Q : Type} {env : Environment} {d d' : Draft}

mutual

/-- Whether an intersection or a difference is among the operators, at any depth. -/
def Operator.retypes : Operator → Bool
  | .intersection _ _ => true
  | .difference _ _ => true
  | .subquery graph _ _ => graph.retypes
  | _ => false

def Node.retypesAny : List Node → Bool
  | [] => false
  | ⟨operator, _, _⟩ :: rest => operator.retypes || Node.retypesAny rest

def Graph.retypes : Graph → Bool
  | ⟨nodes⟩ => Node.retypesAny nodes

end

section

variable {meet meet' : Meet}

mutual

theorem Operator.columns_of_not_retypes (operator : Operator) (h : operator.retypes = false)
    (Γs : List Columns) : operator.columns meet Γs = operator.columns meet' Γs := by
  cases operator with
  | intersection _ _ => cases h
  | difference _ _ => cases h
  | subquery graph output mappings =>
    have hcolumns := Graph.columns_of_not_retypes graph h
    cases Γs with
    | nil => rw [Operator.columns, Operator.columns, hcolumns]
    | cons _ _ => rfl
  | join kind condition => cases condition <;> rcases Γs with _ | ⟨_, _ | ⟨_, _ | _⟩⟩ <;> rfl
  | _ => rcases Γs with _ | ⟨_, _ | ⟨_, _ | _⟩⟩ <;> rfl

theorem Node.columnsOf_of_not_retypes (nodes : List Node) (h : Node.retypesAny nodes = false)
    (done : List (Option Columns)) : Node.columnsOf meet nodes done = Node.columnsOf meet' nodes done := by
  cases nodes with
  | nil => rfl
  | cons n rest =>
    obtain ⟨operator, inputs, outputs⟩ := n
    obtain ⟨hoperator, hrest⟩ := Bool.or_eq_false_iff.mp h
    have hcolumns : operator.columns meet = operator.columns meet' :=
      funext (Operator.columns_of_not_retypes operator hoperator)
    rw [Node.columnsOf, Node.columnsOf, hcolumns]
    exact Node.columnsOf_of_not_retypes rest hrest _

theorem Graph.columns_of_not_retypes (g : Graph) (h : g.retypes = false) :
    g.columns meet = g.columns meet' := by
  obtain ⟨nodes⟩ := g
  exact Node.columnsOf_of_not_retypes nodes h []

end

end

/-- The columns at the output of a planned query have the types that the query reports. Without
intersections and differences these are the types of their definitions. -/
theorem Query.plan_types {q : Query (Expr Q)} {p : Planned} (h : q.plan [] env d = (.ok p, d')) :
    ∃ Γ, d'.graph.columnsAt .both p.output = some Γ ∧
      (∀ c ∈ p.relation.columns, Γ.type? c.carrier = some c.type) ∧
      (d'.graph.retypes = false → d'.graph.columnsAt .left p.output = some Γ) := by
  obtain ⟨Γ, hb, hcarries⟩ := Query.plan_delivers (fun scope hscope => by cases hscope) h
  have hcolumns : d'.graph.columnsAt .both p.output = some Γ := hb.columns _ (List.mem_singleton_self _)
  refine ⟨Γ, hcolumns, fun c hc => ?_, fun hretypes => ?_⟩
  · exact (hcarries.has c (by simpa [Planned.source] using hc)).2
  · rw [← hcolumns, Graph.columnsAt, Graph.columns_of_not_retypes d'.graph hretypes]
    rfl

namespace Sample

/-- `SELECT x FROM a EXCEPT SELECT y FROM a` -/
def exceptWider : Query (Expr Unit) :=
  .setOperation .except none none
    (.select [relation "a"] { items := [.expr (column ["x"]) none] })
    (.select [relation "a"] { items := [.expr (column ["y"]) none] })

end Sample

/-- The values of a difference are those of its left operand, yet they are reported with the wider type
of the right one. -/
theorem Query.plan_types_exceptWider_ne : ∃ p d',
    Sample.exceptWider.plan [] Sample.tables.environment ⟨0, .empty⟩ = (.ok p, d') ∧
      p.relation.columns.map (·.type) = [.int8] ∧
      (d'.graph.columnsAt .left p.output).map (fun Γ => p.relation.columns.map fun c => Γ.type? c.carrier) =
        some [some .int4] := by
  have hok : (Sample.exceptWider.plan [] Sample.tables.environment ⟨0, .empty⟩).1.isOk = true := by
    decide +kernel
  obtain ⟨p, d', h⟩ := Step.exists_ok hok
  have hreported : (Sample.exceptWider.plan [] Sample.tables.environment ⟨0, .empty⟩).1.toOption.map
      (·.relation.columns.map (·.type)) = some [.int8] := by
    decide +kernel
  have hdefined : (Sample.exceptWider.plan [] Sample.tables.environment ⟨0, .empty⟩).1.toOption.bind (fun p =>
      ((Sample.exceptWider.plan [] Sample.tables.environment ⟨0, .empty⟩).2.graph.columnsAt .left p.output).map
        fun Γ => p.relation.columns.map fun c => Γ.type? c.carrier) = some [some .int4] := by
    decide +kernel
  rw [h] at hreported hdefined
  exact ⟨p, d', h, Option.some.inj hreported, hdefined⟩

theorem Query.plan_types_exceptWider : ∃ p d' Γ,
    Sample.exceptWider.plan [] Sample.tables.environment ⟨0, .empty⟩ = (.ok p, d') ∧
      d'.graph.columnsAt .both p.output = some Γ ∧
      ∀ c ∈ p.relation.columns, Γ.type? c.carrier = some c.type := by
  have hok : (Sample.exceptWider.plan [] Sample.tables.environment ⟨0, .empty⟩).1.isOk = true := by
    decide +kernel
  obtain ⟨p, d', h⟩ := Step.exists_ok hok
  obtain ⟨Γ, hΓ, htypes, -⟩ := Query.plan_types h
  exact ⟨p, d', Γ, h, hΓ, htypes⟩

end SqlPlan
