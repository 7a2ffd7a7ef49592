import SqlPlan.Proofs.PlanSoundness
import SqlPlan.Proofs.StatementTransfer

namespace SqlPlan

namespace Session

variable {Q : Type} {s s' : Session}

/-- Two outcomes of a statement on two sessions. Both are resolutions, one of which is the other with all
numbers moved up by the difference of what was minted before, or both are failures with the same diagnostics
after those logged before, or both are panics. -/
inductive SameOutcome (s s' : Session) : Except Refusal Resolution → Except Refusal Resolution → Prop where
  | above {k : Nat} {r : Resolution} : s'.minted = s.minted + k → SameOutcome s s' (.ok r) (.ok (r.shift k))
  | below {k : Nat} {r : Resolution} : s.minted = s'.minted + k → SameOutcome s s' (.ok (r.shift k)) (.ok r)
  | failed (new : List Diagnostic) :
    SameOutcome s s' (.error (.diagnostics (s.log ++ new))) (.error (.diagnostics (s'.log ++ new)))
  | panicked : SameOutcome s s' (.error .panic) (.error .panic)

theorem SameOutcome.symm {x x' : Except Refusal Resolution} (h : SameOutcome s s' x x') :
    SameOutcome s' s x' x := by
  cases h with
  | above hk => exact .below hk
  | below hk => exact .above hk
  | failed new => exact .failed new
  | panicked => exact .panicked

theorem sameOutcome_of_le (henv : s'.environment = s.environment) (hle : s.minted ≤ s'.minted)
    (statement : Statement (Expr Q)) :
    SameOutcome s s' (s.resolveStatement statement).1 (s'.resolveStatement statement).1 := by
  obtain ⟨k, hk⟩ := Nat.exists_eq_add_of_le hle
  have hshift : statement.resolve s.environment (s.minted + k) = _ := statement.resolve_shifts s.minted
  rw [resolveStatement_eq, resolveStatement_eq, henv, hk, hshift]
  rcases statement.resolve s.environment s.minted with ⟨⟨(_ | _) | r, log⟩, n⟩
  · exact .failed log
  · exact .panicked
  · exact .above hk

/-- On sessions with the same environment a statement has the same outcome, whatever the sessions have
minted, logged and opened before. -/
theorem resolveStatement_sameOutcome (s s' : Session) (henv : s'.environment = s.environment)
    (statement : Statement (Expr Q)) :
    SameOutcome s s' (s.resolveStatement statement).1 (s'.resolveStatement statement).1 := by
  rcases Nat.le_total s.minted s'.minted with hle | hle
  · exact sameOutcome_of_le henv hle statement
  · exact (sameOutcome_of_le henv.symm hle statement).symm

end Session

namespace Sample

def later : Session :=
  { tables with
    minted := 40
    log := [⟨.tableNotFound, none, "table 'b' is not found"⟩]
    scopes := ⟨[(none, { relations := [{ columns := [⟨some "x", ⟨7, .stream none⟩, .int4, none, true⟩] }] })]⟩
    declared := 3 }

/-- `DROP TABLE c` -/
def dropMissing : Statement (Expr Unit) := .dropTable ⟨[.quoted "c"]⟩ false

end Sample

/-- The plan has the same operators over columns with higher numbers, and a table that is missing is
reported after what stands in the log. -/
theorem Session.resolveStatement_sameOutcome_later :
    (∃ r, (Sample.tables.resolveStatement Sample.countMatches).1 = .ok r ∧
      (Sample.later.resolveStatement Sample.countMatches).1 = .ok (r.shift 40)) ∧
    ∃ ds, (Sample.tables.resolveStatement Sample.dropMissing).1 = .error (.diagnostics ds) ∧
      (Sample.later.resolveStatement Sample.dropMissing).1 = .error (.diagnostics (Sample.later.log ++ ds)) := by
  have henv : Sample.later.environment = Sample.tables.environment := rfl
  constructor
  · have hsame := resolveStatement_sameOutcome Sample.tables Sample.later henv Sample.countMatches
    have hok : (Sample.tables.resolveStatement Sample.countMatches).1.isOk = true := by decide +kernel
    generalize (Sample.tables.resolveStatement Sample.countMatches).1 = x at hsame hok
    generalize (Sample.later.resolveStatement Sample.countMatches).1 = x' at hsame
    cases hsame with
    | above hk =>
      cases hk.trans (Nat.zero_add _)
      exact ⟨_, rfl, rfl⟩
    | below hk => exact absurd hk (by change 0 ≠ 40 + _; omega)
    | failed | panicked => cases hok
  · have hsame := resolveStatement_sameOutcome Sample.tables Sample.later henv Sample.dropMissing
    have hrefused : Sample.tables.isRefused Sample.dropMissing = true := by decide +kernel
    obtain ⟨log, hlog⟩ := exists_diagnostics hrefused
    rw [hlog] at hsame ⊢
    generalize (Sample.later.resolveStatement Sample.dropMissing).1 = x' at hsame
    cases hsame with
    | failed new => exact ⟨new, rfl, rfl⟩

end SqlPlan
