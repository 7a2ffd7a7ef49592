import SqlPlan.Proofs.CompilerSimulation
import SqlPlan.Proofs.StatementTransfer

namespace SqlPlan

variable {Q α : Type}

namespace Session

/-- The second session is the first one after further work: only the log may differ, and the number of
variables minted may have grown. -/
structure Continues (s s' : Session) : Prop where
  environment : s'.environment = s.environment
  scopes : s'.scopes = s.scopes
  declared : s'.declared = s.declared
  minted_le : s.minted ≤ s'.minted

theorem resolveStatement_ok {s s' : Session} {statement : Statement (Expr Q)} {r : Resolution}
    (h : s.resolveStatement statement = (.ok r, s')) : ∃ m, statement.resolve s.environment s.minted = (.ok r, m) := by
  have hregular := (statement.resolve_transfers (Transfer.allowsAll_refl s.environment _) fun _ => rfl).regular
    s.minted
  rw [resolveStatement_eq] at h
  rcases hrun : statement.resolve s.environment s.minted with ⟨o, m⟩
  rw [hrun] at h hregular
  cases hregular with
  | ok a =>
    cases h
    exact ⟨m, rfl⟩
  | error | panic => cases h

theorem planQuery_ok {s s' : Session} {graph graph' : Graph} {q : Query (Expr Q)} {scope : Option Nat}
    {correlation : Option Correlation} {p : Planned}
    (h : s.planQuery graph q scope correlation = (.ok p, graph', s')) :
    ∃ d, q.planAs (s.scopes.visible scope) correlation s.environment ⟨s.minted, graph⟩ = (.ok p, d) ∧
      d.graph = graph' := by
  have hregular := (q.planAs_transfers ((s.scopes.visible scope).transfers_refl rfl)
    (Transfer.allowsAll_refl s.environment _) correlation).regular ⟨s.minted, graph⟩
  rw [planQuery_eq] at h
  rcases hrun : q.planAs (s.scopes.visible scope) correlation s.environment ⟨s.minted, graph⟩ with ⟨o, d⟩
  rw [hrun] at h hregular
  cases hregular with
  | ok a =>
    cases h
    exact ⟨d, rfl, rfl⟩
  | error | panic => cases h

theorem resolveExpr_continues (s : Session) (e : Expr Q) (scope : Option Nat) (target : Option Target) :
    s.Continues (s.resolveExpr e scope target).2 := by
  rw [resolveExpr_eq]
  exact ⟨rfl, rfl, rfl,
    (e.transfers ((s.scopes.visible scope).transfers_refl rfl) (Transfer.allowsAll_refl _ _) target).count_le _⟩

theorem planQuery_continues (s : Session) (graph : Graph) (q : Query (Expr Q)) (scope : Option Nat)
    (correlation : Option Correlation) : s.Continues (s.planQuery graph q scope correlation).2.2 := by
  rw [planQuery_eq]
  exact ⟨rfl, rfl, rfl, (q.planAs_transfers ((s.scopes.visible scope).transfers_refl rfl)
    (Transfer.allowsAll_refl s.environment _) correlation).count_le ⟨s.minted, graph⟩⟩

theorem resolveStatement_continues (s : Session) (statement : Statement (Expr Q)) :
    s.Continues (s.resolveStatement statement).2 := by
  have hcount := (statement.resolve_transfers (Transfer.allowsAll_refl s.environment _) fun _ => rfl).count_le s.minted
  rw [resolveStatement_eq]
  generalize statement.resolve s.environment s.minted = inner at *
  rcases inner with ⟨⟨(_ | _) | r, log⟩, n⟩
  all_goals exact ⟨rfl, rfl, rfl, hcount⟩

/-- An expression, a query or a statement leaves the environment and the open scopes of the session as they
are and never lowers its count of variables, whether it succeeds or fails. -/
theorem analysis_continues (s : Session) :
    (∀ (e : Expr Q) (scope : Option Nat) (target : Option Target),
      s.Continues (s.resolveExpr e scope target).2) ∧
    (∀ (graph : Graph) (q : Query (Expr Q)) (scope : Option Nat) (correlation : Option Correlation),
      s.Continues (s.planQuery graph q scope correlation).2.2) ∧
    ∀ statement : Statement (Expr Q), s.Continues (s.resolveStatement statement).2 :=
  ⟨s.resolveExpr_continues, s.planQuery_continues, s.resolveStatement_continues⟩

end Session

/-- Planning into a graph and planning into an empty one succeed or fail alike, with the same reports and
the same session afterwards. The nodes of the graph stay its first ones, and the nodes after them and the
output are those of the empty graph with every node number moved up. -/
theorem Session.planQuery_onto (s : Session) (g : Graph) (q : Query (Expr Q)) (scope : Option Nat)
    (correlation : Option Correlation) :
    let alone := s.planQuery .empty q scope correlation
    let after := s.planQuery g q scope correlation
    after.1 = alone.1.map (Planned.relocate g.size) ∧
      after.2.1.nodes = g.nodes ++ alone.2.1.nodes.map (Node.relocate g.size) ∧
      after.2.2 = alone.2.2 := by
  have hplan : q.planAs (s.scopes.visible scope) correlation s.environment ⟨s.minted, g⟩ = _ := q.planAs_onto _ _ _
  simp only [planQuery_eq, hplan]
  exact ⟨rfl, rfl, rfl⟩

end SqlPlan
