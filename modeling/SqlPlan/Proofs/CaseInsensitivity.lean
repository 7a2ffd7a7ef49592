import SqlPlan.Proofs.PlanSoundness
import SqlPlan.Proofs.SessionFrame

namespace SqlPlan

variable {Q σ α : Type}

/-- The delimited identifier that a regular one stands for where case is folded. -/
def Identifier.foldCase (i : Identifier) : Identifier :=
  if i.delimited then i else { i with text := Text.lowercase i.text, delimited := true }

theorem Identifier.foldCase_regular {a b : String} (h : Text.lowercase a = Text.lowercase b) :
    (regular a).foldCase = (regular b).foldCase := by
  simp [foldCase, regular, h]

/-- Folding is a spelling where the analysis folds too. -/
def Spelling.foldCase {o : Options} (h : o.lowercaseRegularIdentifiers = true) : Spelling o where
  spell := Identifier.foldCase
  key_spell i := by
    cases hi : i.delimited <;> simp [Identifier.foldCase, Options.key, hi, h]
  span_spell i := by
    cases hi : i.delimited <;> simp [Identifier.foldCase, hi]

/-- The codes and locations of what a statement is refused for. -/
def Refusal.outline : Refusal → Option (List (DiagnosticCode × Option Span))
  | diagnostics log => some (log.map Diagnostic.outline)
  | panic => none

namespace Session

theorem resolveStatement_respell (s : Session) (w : Spelling s.environment.options) (statement : Statement (Expr Q)) :
    (s.resolveStatement (statement.respell w.spell)).1.mapError Refusal.outline =
        (s.resolveStatement statement).1.mapError Refusal.outline ∧
      (s.resolveStatement (statement.respell w.spell)).2 = (s.resolveStatement statement).2 := by
  let T : Transfer s.environment.options := { number := .refl Nat, spelling := w }
  have hallows : T.AllowsAll statement.mentions := Transfer.allowsAll_of_visible rfl (fun _ => not_false) trivial _
  have hends : (T.comparison _ _).Ends _ (statement.resolve s.environment s.minted)
      ((statement.respell w.spell).resolve (s.environment.extend []) s.minted) :=
    (statement.resolve_transfers hallows fun _ => rfl).ends s.minted fun _ _ _ => rfl
  rw [Environment.extend_nil] at hends
  rw [resolveStatement_eq, resolveStatement_eq]
  generalize statement.resolve s.environment s.minted = x at *
  generalize (statement.respell w.spell).resolve s.environment s.minted = x' at *
  cases hends with
  | ok hr hn =>
    cases hn
    cases hr.symm.trans (Resolution.renumber_refl _)
    exact ⟨rfl, rfl⟩
  | @error d d' ds ds' _ _ hlog hn =>
    cases hn
    have houtline : (s.log ++ d' :: ds').map Diagnostic.outline = (s.log ++ d :: ds).map Diagnostic.outline := by
      rw [List.map_append, List.map_append, hlog.1]
    exact ⟨congrArg (fun log => Except.error (some log)) houtline, rfl⟩
  | panic _ _ hn =>
    cases hn
    exact ⟨rfl, rfl⟩
  | refused h => exact absurd rfl h

/-- Statements that are the same after case folding have the same outcome: the same plan or change of the
catalog, or diagnostics with the same codes and locations in the same order, and then the same session. -/
theorem resolveStatement_foldCase {s : Session}
    (hfold : s.environment.options.lowercaseRegularIdentifiers = true) {a b : Statement (Expr Q)}
    (h : a.respell Identifier.foldCase = b.respell Identifier.foldCase) :
    (s.resolveStatement a).1.mapError Refusal.outline = (s.resolveStatement b).1.mapError Refusal.outline ∧
      (s.resolveStatement a).2 = (s.resolveStatement b).2 := by
  let w : Spelling s.environment.options := .foldCase hfold
  obtain ⟨hresult, hsession⟩ := s.resolveStatement_respell w a
  obtain ⟨hresult', hsession'⟩ := s.resolveStatement_respell w b
  rw [show a.respell w.spell = b.respell w.spell from h] at hresult hsession
  exact ⟨hresult.symm.trans hresult', hsession.symm.trans hsession'⟩

end Session

namespace Sample

/-- `SELECT v.x AS total FROM a AS v` -/
def aliased (v x total a : Identifier) : Statement (Expr Unit) :=
  .select (.select [.table ⟨[a]⟩ (some { name := v })]
    { items := [.expr (.reference ⟨[v, x]⟩) (some total)] })

theorem aliased_respell (f : Identifier → Identifier) (v x total a : Identifier) :
    (aliased v x total a).respell f = aliased (f v) (f x) (f total) (f a) := rfl

def shouted (table : String) : Statement (Expr Unit) :=
  aliased (.regular "V") (.regular "X") (.regular "TOTAL") (.regular table)

def whispered (table : String) : Statement (Expr Unit) :=
  aliased (.regular "v") (.regular "x") (.regular "Total") (.regular table)

theorem shouted_respell {upper lower : String} (h : Text.lowercase upper = Text.lowercase lower) :
    (shouted upper).respell Identifier.foldCase = (whispered lower).respell Identifier.foldCase := by
  have hv : Text.lowercase "V" = Text.lowercase "v" := by decide +kernel
  have hx : Text.lowercase "X" = Text.lowercase "x" := by decide +kernel
  have htotal : Text.lowercase "TOTAL" = Text.lowercase "Total" := by decide +kernel
  rw [shouted, whispered, aliased_respell, aliased_respell, Identifier.foldCase_regular hv,
    Identifier.foldCase_regular hx, Identifier.foldCase_regular htotal, Identifier.foldCase_regular h]

end Sample

/-- Over a table that exists the plans are the same, and over one that does not the reports have one
outline. -/
theorem Session.resolveStatement_foldCase_shouted :
    (∃ r, (Sample.tables.resolveStatement (Sample.shouted "A")).1 = .ok r ∧
      (Sample.tables.resolveStatement (Sample.whispered "a")).1 = .ok r) ∧
    ∃ log log', (Sample.tables.resolveStatement (Sample.shouted "B")).1 = .error (.diagnostics log) ∧
      (Sample.tables.resolveStatement (Sample.whispered "b")).1 = .error (.diagnostics log') ∧
        log.map Diagnostic.outline = log'.map Diagnostic.outline := by
  have hfold : Sample.tables.environment.options.lowercaseRegularIdentifiers = true := rfl
  constructor
  · have ha : Text.lowercase "A" = Text.lowercase "a" := by decide +kernel
    have hsame := (resolveStatement_foldCase hfold (Sample.shouted_respell ha)).1
    have hok : (Sample.tables.resolveStatement (Sample.shouted "A")).1.isOk = true := by decide +kernel
    generalize (Sample.tables.resolveStatement (Sample.shouted "A")).1 = x at hsame hok
    generalize (Sample.tables.resolveStatement (Sample.whispered "a")).1 = y at hsame
    cases x with
    | error => cases hok
    | ok r =>
      cases y with
      | error => cases hsame
      | ok r' =>
        cases hsame
        exact ⟨r, rfl, rfl⟩
  · have hb : Text.lowercase "B" = Text.lowercase "b" := by decide +kernel
    have hsame := (resolveStatement_foldCase hfold (Sample.shouted_respell hb)).1
    have hfails : Sample.tables.isRefused (Sample.shouted "B") = true := by decide +kernel
    obtain ⟨log, hlog⟩ := exists_diagnostics hfails
    have hfails' : Sample.tables.isRefused (Sample.whispered "b") = true := by decide +kernel
    obtain ⟨log', hlog'⟩ := exists_diagnostics hfails'
    rw [hlog, hlog'] at hsame
    exact ⟨log, log', hlog, hlog', Option.some.inj (Except.error.inj hsame)⟩

end SqlPlan
