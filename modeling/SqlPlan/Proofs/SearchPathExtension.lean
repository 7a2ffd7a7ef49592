import SqlPlan.Proofs.PlanSoundness
import SqlPlan.Proofs.StatementTransfer

namespace SqlPlan

variable {Q : Type} {env : Environment}

/-- The change of an environment by which further schemas are searched, and nothing else. -/
def Transfer.search (env : Environment) (further : List Schema) : Transfer env.options where
  number := .refl Nat
  further

theorem Transfer.search_allowsAll {mentions : List Mention} (h : ∀ name, .function name ∉ mentions)
    (further : List Schema) : (search env further).AllowsAll mentions := by
  intro x hx
  cases x with
  | table name => exact fun _ _ => not_false
  | function name => exact absurd hx (h name)
  | literal l => exact fun _ => trivial

namespace Statement

variable {statement : Statement (Expr Q)} {n m : Nat} {p : ExecutionPlan}

theorem changesCatalog_of_plan (h : statement.resolve env n = (.ok (.plan p), m)) :
    statement.changesCatalog = false := by
  cases statement with
  | select q | insert i | update u | delete d => rfl
  | createTable c | dropTable name ifExists | createIndex c | dropIndex name ifExists =>
    exact absurd h Resolution.ofChange_ne_plan

theorem resolve_extend (hcalls : ∀ name, .function name ∉ statement.mentions) (further : List Schema)
    (h : statement.resolve env n = (.ok (.plan p), m)) :
    statement.resolve (env.extend further) n = (.ok (.plan p), m) := by
  have hallows : (Transfer.search env further).AllowsAll statement.mentions :=
    Transfer.search_allowsAll hcalls further
  have hpath : statement.changesCatalog = true → (Transfer.search env further).further = [] := by
    intro hchange
    rw [changesCatalog_of_plan h] at hchange
    cases hchange
  have hrun := (statement.resolve_transfers hallows hpath).run_ok h fun _ _ _ => rfl
  change (statement.respell id).resolve (env.extend further) n =
    (.ok (Resolution.renumber (.refl Nat) (.plan p)), m) at hrun
  rwa [resolve_respell_id, Resolution.renumber_refl] at hrun

end Statement

/-- A statement without calls that is planned is planned to the same plan, down to the numbers of the variables,
when further schemas are appended to the search path. -/
theorem Session.resolveStatement_extend {s s' : Session} {statement : Statement (Expr Q)}
    (hcalls : ∀ name, .function name ∉ statement.mentions) {p : ExecutionPlan}
    (h : s.resolveStatement statement = (.ok (.plan p), s')) (further : List Schema) :
    { s with environment := s.environment.extend further }.resolveStatement statement =
      (.ok (.plan p), { s' with environment := s.environment.extend further }) := by
  obtain ⟨m, hm⟩ := resolveStatement_ok h
  have hextend := Statement.resolve_extend hcalls further hm
  rw [resolveStatement_eq, hm] at h
  cases h
  rw [resolveStatement_eq, hextend]
  rfl

namespace Sample

/-- Another schema with a table `a` and a variable `y`. -/
def other : Schema where
  name := "other"
  tableMap := [("a", { name := "a", schema := "other", columns := [{ name := "z", type := .int4 }] })]
  externalMap := [("y", { name := "y", type := .int4 })]

/-- `UPDATE a SET x = x WHERE x = y` -/
def updateX : Statement (Expr Unit) :=
  .update {
    table := ⟨[.quoted "a"]⟩
    assignments := [{ column := .quoted "x", value := column ["x"] }]
    condition := some (.comparison .equal (column ["x"]) (column ["y"])) }

end Sample

/-- A second table `a` and a variable named like its column come too late to be found. -/
theorem Session.resolveStatement_extend_other : ∃ p s',
    Sample.tables.resolveStatement Sample.updateX = (.ok (.plan p), s') ∧
      { Sample.tables with environment := Sample.tables.environment.extend [Sample.other] }.resolveStatement
        Sample.updateX =
          (.ok (.plan p), { s' with environment := Sample.tables.environment.extend [Sample.other] }) := by
  have hplan : Sample.tables.planMeets Sample.updateX (fun _ => true) = true := by decide +kernel
  obtain ⟨p, s', h, -⟩ := exists_plan _ hplan
  have hcalls : ∀ name, .function name ∉ Sample.updateX.mentions := by
    intro name hmem
    simp [Sample.updateX, Sample.column, Statement.mentions, Expr.mentions,
      Expr.subexpressions, Expr.mention?] at hmem
  exact ⟨p, s', h, resolveStatement_extend hcalls h [Sample.other]⟩

end SqlPlan
