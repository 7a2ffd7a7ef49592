import SqlPlan.Proofs.PlanSoundness

namespace SqlPlan

variable {α Q : Type} {s : Session} {mentions : List Mention}

/-- One of the literals that are mentioned panics. -/
def Environment.MayPanic (env : Environment) (mentions : List Mention) : Prop :=
  ∃ l, .literal l ∈ mentions ∧ l.panics env.options = true

/-- A second run that is the same, where panics come from the literals that are mentioned. -/
def Transfer.panicking (env : Environment) (mentions : List Mention) : Transfer env.options where
  number := .refl Nat
  panics := env.MayPanic mentions

theorem Transfer.panicking_allowsAll (env : Environment) (mentions : List Mention) :
    (panicking env mentions).AllowsAll mentions := by
  intro x hx
  cases x with
  | table name => exact fun _ _ => not_false
  | function name => rfl
  | literal l => exact fun h => ⟨l, hx, h⟩

theorem Literal.resolve_regular {σ : Type} (l : Literal) (target : Option Target) (env : Environment) (t : σ) :
    ((l.resolve target : Step σ Typed) env t).1.Regular (l.panics env.options = true) := by
  rw [resolve_eq]
  rcases h : l.typed env.options target with (d | _) | x
  · exact .error d []
  · exact .panic (panics_of_typed h) []
  · exact .ok x

theorem Literal.typed_of_panics {o : Options} {l : Literal} (h : l.panics o = true) (target : Option Target) :
    l.typed o target = .error .panic := by
  rcases hc : l.constant o with (d | _) | p
  · simp [panics, hc] at h
  · unfold typed
    split
    · cases hc
    · cases hc
    · rw [hc]
      rfl
  · simp [panics, hc] at h

theorem DataType.resolve_regular {σ : Type} (t : DataType) (env : Environment) (state : σ) :
    ((t.resolve : Step σ SqlType) env state).1.Regular False := by
  rw [resolve, Step.bind_eq_of_ok rfl]
  cases t.type env.options with
  | ok type => exact .ok type
  | error d => exact .error d []

namespace Session

/-- What a call does to the log. The old log stays in front, and unless the call panics, it is all of the new one if
there is a result, and is followed by new diagnostics if there is none. -/
structure Logs (s : Session) (mentions : List Mention) (result : Except Failure α) (s' : Session) : Prop where
  kept : s.log <+: s'.log
  ok_iff : (∃ a, result = .ok a) ↔ result ≠ .error .panic ∧ s'.log = s.log
  failed_iff : result = .error .reported ↔ result ≠ .error .panic ∧ ∃ d ds, s'.log = s.log ++ d :: ds
  panics : result = .error .panic → s.environment.MayPanic mentions

theorem Logs.of_regular {s' : Session} {o : Outcome α} (h : o.Regular (s.environment.MayPanic mentions))
    (hlog : s'.log = s.log ++ o.log) : s.Logs mentions o.result s' := by
  refine ⟨hlog ▸ List.prefix_append _ _, ?_, ?_, fun hpanic => ?_⟩
  · cases h <;> simp [hlog, Outcome.ok, Outcome.error, Report.toList]
  · cases h <;> simp [hlog, Outcome.ok, Outcome.error, Report.toList]
  · cases h with
    | ok | error => cases hpanic
    | panic h => exact h

/-- What resolving a statement does to the log: a success leaves it as it is, and a failure hands over all of it,
with new diagnostics at its end. -/
def LogsStatement (s : Session) (mentions : List Mention) : Except Refusal Resolution × Session → Prop
  | (.ok _, s') => s'.log = s.log
  | (.error (.diagnostics log), s') => (∃ d ds, log = s.log ++ d :: ds) ∧ s'.log = []
  | (.error .panic, _) => s.environment.MayPanic mentions

theorem resolveStatement_logs (s : Session) (statement : Statement (Expr Q)) :
    s.LogsStatement statement.mentions (s.resolveStatement statement) := by
  have hregular := (statement.resolve_transfers (Transfer.panicking_allowsAll s.environment _)
    fun _ => rfl).regular s.minted
  rw [resolveStatement_eq]
  generalize statement.resolve s.environment s.minted = inner at *
  obtain ⟨o, n⟩ := inner
  cases hregular with
  | ok r => exact List.append_nil s.log
  | error d ds => exact ⟨⟨d, ds, rfl⟩, rfl⟩
  | panic h => exact h

end Session

namespace Sample

/-- `TIME '10:00:00+1é1'`. The zone has four bytes after the sign, and would be cut inside of a character. -/
def splitZone : Literal := .temporal (.time true) "'10:00:00+1é1'"

end Sample

end SqlPlan
