import SqlPlan.Proofs.AggregateCalls
import SqlPlan.Proofs.StoredExpressions

namespace SqlPlan

variable {operator : Operator}

mutual

/-- Whether an aggregate call is stored in an operator, or in a graph inside of it. -/
def Operator.hasAggregate : Operator → Bool
  | .values _ rows => rows.any (·.any Scalar.hasAggregate)
  | .filter condition => condition.hasAggregate
  | .project columns => columns.any (·.2.hasAggregate)
  | .join _ condition => condition.any Scalar.hasAggregate
  | .apply _ _ arguments _ => arguments.any Scalar.hasAggregate
  | .subquery graph _ _ => graph.hasAggregate
  | .scan _ _ => false
  | .aggregate _ _ => false
  | .union _ _ => false
  | .intersection _ _ => false
  | .difference _ _ => false
  | .distinct _ => false
  | .limit _ _ => false
  | .write _ _ _ _ => false
  | .emit _ => false

def Node.anyHasAggregate : List Node → Bool
  | [] => false
  | ⟨operator, _, _⟩ :: rest => operator.hasAggregate || Node.anyHasAggregate rest

def Graph.hasAggregate : Graph → Bool
  | ⟨nodes⟩ => Node.anyHasAggregate nodes

end

theorem Graph.hasAggregate_eq (g : Graph) :
    g.hasAggregate = (g.nodes.map Node.content).any fun c => c.1.hasAggregate := by
  obtain ⟨nodes⟩ := g
  rw [hasAggregate]
  induction nodes with
  | nil => rfl
  | cons n nodes ih =>
    obtain ⟨operator, inputs, outputs⟩ := n
    rw [Node.anyHasAggregate, ih]
    rfl

theorem Graph.hasAggregate_insert (g : Graph) (operator : Operator) (inputs : List Socket) (k : Nat) :
    (g.insert operator inputs k).hasAggregate = (g.hasAggregate || operator.hasAggregate) := by
  rw [hasAggregate_eq, hasAggregate_eq, content_insert, List.any_append]
  simp

variable {env : Environment} {d d₁ : Draft}

theorem hasAggregate_of_insert {g g' : Graph} {inputs : List Socket} {k : Nat}
    (hg : g' = g.insert operator inputs k) (h : operator.hasAggregate = false) :
    g'.hasAggregate = g.hasAggregate := by
  rw [hg, Graph.hasAggregate_insert, h, Bool.or_false]

theorem forall_of_collect {σ α β : Type} {f : α → Step σ β} {P : β → Prop}
    (hf : ∀ x s y s', f x env s = (.ok y, s') → P y) {xs : List α} {ys : List β} {s s' : σ}
    (h : Step.collect (xs.map f) env s = (.ok ys, s')) : ∀ y ∈ ys, P y := by
  induction xs generalizing ys s with
  | nil =>
    obtain ⟨rfl, -⟩ := Step.collect_nil_ok.mp h
    simp
  | cons x xs ih =>
    obtain ⟨y, ys, t, rfl, hy, hys⟩ := Step.collect_cons_ok.mp h
    exact List.forall_mem_cons.mpr ⟨hf x s y t hy, ih hys⟩

theorem Operator.hasAggregate_eq (hflat : operator.subqueries = []) :
    operator.hasAggregate = operator.scalars.any Scalar.hasAggregate := by
  cases operator with
  | subquery graph output columns => cases hflat
  | join kind condition => cases condition <;> simp [hasAggregate, scalars]
  | _ => simp [hasAggregate, scalars, Function.comp_def]

theorem Scalar.any_hasAggregate_eq_false {ss : List Scalar} :
    ss.any hasAggregate = false ↔ ∀ s ∈ ss, s.hasAggregate = false := by
  simp only [List.any_eq_false, Bool.not_eq_true]

theorem project_not_hasAggregate {computed : List (Variable × Scalar)} (h : ∀ p ∈ computed, p.2.hasAggregate = false) :
    (Operator.project computed).hasAggregate = false := by
  simpa only [Operator.hasAggregate, List.any_eq_false, Bool.not_eq_true] using h

/-- The policy that no expression with an aggregate call is stored. -/
def Storing.aggregateFree (env : Environment) (before : Bool) : Storing env where
  types _ := True
  drafts _ := True
  scalars s := s.hasAggregate = false
  graphs g := g.hasAggregate = before
  var _ := rfl
  drafted _ := trivial
  compare hl hr := by simp [Scalar.hasAggregate, hl, hr]
  conjunction hl hr := by simp [Scalar.conjunction, Scalar.hasAggregate, hl, hr]
  unify _ _ _ := trivial
  columns _ _ _ _ _ _ := trivial
  functions _ _ _ _ := ⟨fun _ _ => trivial, fun _ _ _ _ => trivial⟩
  elaborates hel _ _ := ⟨trivial, trivial, (hel.hasAggregate_eq _ (List.mem_singleton_self _)).trans⟩
  regroup h _ hentries := by
    have hflat := h.flat fun e he => Scalar.any_hasAggregate_eq_false.mpr (hentries e he)
    exact ⟨Scalar.any_hasAggregate_eq_false.mp h.any_hasAggregate, fun e he =>
      Scalar.any_hasAggregate_eq_false.mp (hflat e he)⟩
  insert _ _ hg hflat h := by
    refine (hasAggregate_of_insert rfl ?_).trans hg
    rw [Operator.hasAggregate_eq hflat, Scalar.any_hasAggregate_eq_false]
    exact h

theorem Storing.hasAggregate_eq {α : Type} {m : Planning α} {P : Bool → α → Prop} {x : α}
    (h : ∀ before, (aggregateFree env before).Keeps m (P before)) (hrun : m env d = (.ok x, d₁)) :
    d₁.graph.hasAggregate = d.graph.hasAggregate :=
  (h _ d x d₁ rfl hrun).1

theorem Block.Clauses.Resolved.hasAggregate {b : Block} {c : Clauses} (h : c.Resolved env b)
    (hactive : c.active = false) : ∀ s ∈ c.exprs, s.hasAggregate = false := fun s hs =>
  ((Storing.clauses (S := .aggregateFree env false) (fun _ _ => trivial) h).2 s hs).2 hactive

end SqlPlan
