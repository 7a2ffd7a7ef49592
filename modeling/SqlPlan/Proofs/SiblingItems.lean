import SqlPlan.Proofs.PlanSoundness

namespace SqlPlan

namespace Step

variable {σ α β : Type} {env : Environment} {m : Step σ α} {s t : σ}

/-- The diagnostics that a run reports. -/
def reported (m : Step σ α) (env : Environment) (s : σ) : List Diagnostic := (m env s).1.log

/-- From every state the step reports these diagnostics, and fails if there are some. -/
def Diagnoses (m : Step σ α) (env : Environment) (log : List Diagnostic) : Prop :=
  ∀ s, (m env s).1.Regular False ∧ m.reported env s = log

namespace Diagnoses

variable {log : List Diagnostic}

theorem exists_error (h : m.Diagnoses env log) (hlog : log ≠ []) (s : σ) :
    ∃ report t, m env s = (.error report, t) ∧ report.toList = log := by
  obtain ⟨hregular, hreported⟩ := h s
  rw [reported] at hreported
  generalize m env s = x at *
  obtain ⟨o, t⟩ := x
  cases hregular with
  | ok a => exact absurd hreported.symm hlog
  | error d ds => exact ⟨⟨d, ds⟩, t, rfl, hreported⟩
  | panic h => exact h.elim

theorem map (h : m.Diagnoses env log) (f : α → β) : (m >>= fun a => pure (f a)).Diagnoses env log := by
  intro s
  obtain ⟨hregular, hreported⟩ := h s
  rw [reported, Step.bind_map]
  exact ⟨hregular.map f, hreported⟩

theorem collect {ms : List (Step σ α)} {logs : List (List Diagnostic)}
    (h : List.Forall₂ (fun m log => m.Diagnoses env log) ms logs) : (collect ms).Diagnoses env logs.flatten := by
  induction h with
  | nil => exact fun s => ⟨.ok [], rfl⟩
  | @cons m log ms logs hm _ ih =>
    refine map (m := Step.both m (Step.collect ms)) (fun s => ?_) fun p => p.1 :: p.2
    obtain ⟨hregular, hreported⟩ := hm s
    obtain ⟨hregular', hreported'⟩ := ih (m env s).2
    have hpanic : (m env s).1.result ≠ .error .panic := by
      intro hpanic
      generalize (m env s).1 = o at *
      cases hregular with
      | ok | error => cases hpanic
      | panic h => exact h
    rw [reported, Step.both_eq rfl hpanic rfl]
    exact ⟨hregular.join hregular', congrArg₂ (· ++ ·) hreported hreported'⟩

end Diagnoses

end Step

/-- What does not depend on the state does so from every state, unless it panics. -/
theorem Environment.diagnoses {env : Environment} {α : Type} {L : Link α α} {m : Analysis α}
    (h : env.anywhere.Compares L m m) {k : Nat} (hpanic : (m env k).1.result ≠ .error .panic) :
    m.Diagnoses env (m.reported env k) := by
  intro n
  have hends : env.anywhere.Ends L (m env n) (m env k) := (h n k trivial).2 trivial
  unfold Step.reported
  generalize m env n = x at *
  generalize m env k = y at *
  cases hends with
  | ok => exact ⟨.ok _, rfl⟩
  | error hlog => exact ⟨.error _ _, hlog⟩
  | panic => exact absurd rfl hpanic
  | refused h => exact h.elim

namespace Block

variable {Q : Type} {env : Environment} (b : Block)

theorem qualifiedAsterisk_reads {σ : Type} (name : Name) :
    Step.Reads (b.qualifiedAsterisk name : Step σ (List SelectColumn)) env := by
  refine .bind (Name.objectKey_reads name) fun key => ?_
  cases b.scope.relationsCalled key with
  | nil => exact .fail _ _ _
  | cons r rest =>
    cases rest with
    | nil => exact .pure _
    | cons => exact .fail _ _ _

theorem selectItem_anywhere (item : SelectItem (Expr Q)) :
    env.anywhere.Compares ⟨fun _ _ => True, fun a => ⟨a, trivial⟩⟩ (b.selectItem item) (b.selectItem item) := by
  unfold selectItem
  split
  · refine Environment.compares_of_reads (.bind ?_ fun _ => .pure _) fun _ => trivial
    unfold asterisk
    split
    · exact .fail _ _ _
    · exact .pure _
  · exact Environment.compares_of_reads (.bind (b.qualifiedAsterisk_reads _) fun _ => .pure _) fun _ => trivial
  · exact .options rfl (.bind ((Expr.exprs_anywhere env b.scopes _).resolves none) fun _ _ _ => .pure trivial)

end Block

/-- `SELECT *, NULLIF(z, z), *, y HAVING x`, where nothing is declared. -/
def Sample.siblings : SelectClauses (Expr Unit) where
  items := [.asterisk none, .expr (.nullif (column ["z"]) (column ["z"])) none, .asterisk none,
    .expr (column ["y"]) none]
  having := some (column ["x"])

end SqlPlan
