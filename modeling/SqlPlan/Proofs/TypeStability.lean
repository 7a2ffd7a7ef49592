import SqlPlan.Proofs.ExprTransfer

namespace SqlPlan

variable {Q : Type} {env : Environment}

namespace Step

variable {σ α α' β : Type}

inductive EndsLike (R : α → β → Prop) : Outcome α → Outcome β → Prop where
  | ok {a : α} {b : β} : R a b → EndsLike R (.ok a) (.ok b)
  | error (failure failure' : Failure) (log log' : List Diagnostic) :
    EndsLike R ⟨.error failure, log⟩ ⟨.error failure', log'⟩

/-- From any two states the steps end with related results, or both fail. -/
def Parallel (R : α → β → Prop) (env : Environment) (m : Step σ α) (m' : Step σ β) : Prop :=
  ∀ s s', EndsLike R (m env s).1 (m' env s').1

theorem Parallel.toOption_eq {γ : Type} {m : Step σ α} {m' : Step σ α'} {f : α → γ} {f' : α' → γ}
    (h : Parallel (fun a a' => f a = f' a') env m m') (s s' : σ) :
    (m env s).1.toOption.map f = (m' env s').1.toOption.map f' := by
  have hends := h s s'
  generalize (m env s).1 = r at *
  generalize (m' env s').1 = r' at *
  cases hends with
  | ok h => exact congrArg some h
  | error => rfl

end Step

open Step (Parallel)

/-- Runs in one environment from any two states, which fail with the same report. -/
def Environment.anywhere (env : Environment) : Comparison Nat :=
  .strict env env (fun _ => 0) ⟨fun _ _ => True, fun n => ⟨n, trivial⟩⟩

namespace Environment

variable {α β : Type} {L : Link α β}

theorem parallel_of_compares {R : α → β → Prop} {m : Analysis α} {m' : Analysis β}
    (h : env.anywhere.Compares L m m') (hR : ∀ a b, L.Rel a b → R a b) : Parallel R env m m' := by
  intro n n'
  have hends : env.anywhere.Ends L (m env n) (m' env n') := (h n n' trivial).2 trivial
  generalize m env n = x at *
  generalize m' env n' = x' at *
  cases hends with
  | ok ha => exact .ok (hR _ _ ha)
  | error | panic => exact .error _ _ _ _
  | refused h => exact h.elim

theorem compares_of_reads {L : Link α α} {m : Analysis α} (h : Step.Reads m env) (hL : ∀ a, L.Rel a a) :
    env.anywhere.Compares L m m := by
  intro n n' _
  change env.anywhere.Goes n (m env n) ∧ (_ → env.anywhere.Ends L (m env n) (m env n'))
  obtain ⟨r, hregular, hr⟩ := h
  rw [hr, hr]
  cases hregular with
  | ok a => exact ⟨⟨Nat.le_refl _, .ok a⟩, fun _ => .ok (hL a) trivial⟩
  | error d ds => exact ⟨⟨Nat.le_refl _, .error d ds⟩, fun _ => .error rfl trivial⟩
  | panic h => exact h.elim

theorem bind_reads {γ γ' : Type} {K : Link γ γ'} {m : Analysis α} (h : Step.Reads m env) {n : α → Analysis γ}
    {n' : α → Analysis γ'} (hn : ∀ a, env.anywhere.Compares K (n a) (n' a)) :
    env.anywhere.Compares K (m >>= n) (m >>= n') :=
  .bind (L := .eq) (compares_of_reads h fun _ => rfl) fun a a' (heq : a = a') => heq ▸ hn a

end Environment

open Environment (bind_reads compares_of_reads parallel_of_compares)

namespace Name

variable (name : Name) (scopes : Scopes) {L : Link ResolvedVariable ResolvedVariable}

theorem resolveBare_compares (hL : ∀ r, L.Rel r r)
    (hexternal : ∀ v w decl, v.kind = .external decl ∧ w.kind = .external decl →
      L.Rel (.external v decl.type) (.external w decl.type)) :
    env.anywhere.Compares L (name.resolveBare scopes) (name.resolveBare scopes) := by
  refine bind_reads (objectKey_reads name) fun key => ?_
  cases scopes.column key with
  | one c => exact .pure (hL _)
  | several => exact .fail _ _ _
  | nothing =>
    refine bind_reads .environment fun e => ?_
    cases e.searchPath.findVariable? key with
    | some decl => exact fun _ _ _ => ⟨⟨Nat.le_refl _, .ok _⟩, fun _ => .ok (hexternal _ _ decl ⟨rfl, rfl⟩) trivial⟩
    | none => exact .fail _ _ _

theorem resolveInRelation_reads {σ : Type} (relation column : Identifier) :
    Step.Reads (name.resolveInRelation relation column scopes : Step σ ResolvedVariable) env := by
  refine .bind .options fun o => ?_
  dsimp only
  cases scopes.relation (o.key relation) with
  | several | nothing => exact .fail _ _ _
  | one r =>
    dsimp only
    cases r.column (o.key column) with
    | one c => exact .pure _
    | nothing | several => exact .fail _ _ _

theorem resolveInTable_reads {σ : Type} :
    Step.Reads (name.resolveInTable scopes : Step σ ResolvedVariable) env := by
  refine .bind (resolveTable_reads _) fun found => .bind (objectKey_reads name) fun key => ?_
  cases scopes.scanOf? found.2 with
  | none => exact .fail _ _ _
  | some r =>
    dsimp only
    cases r.column key with
    | one c => exact .pure _
    | nothing | several => exact .fail _ _ _

theorem resolveVariable_compares (hL : ∀ r, L.Rel r r)
    (hexternal : ∀ v w decl, v.kind = .external decl ∧ w.kind = .external decl →
      L.Rel (.external v decl.type) (.external w decl.type)) :
    env.anywhere.Compares L (name.resolveVariable scopes) (name.resolveVariable scopes) := by
  unfold resolveVariable
  split
  · exact resolveBare_compares name scopes hL hexternal
  · exact compares_of_reads (resolveInRelation_reads name scopes _ _) hL
  · exact compares_of_reads (resolveInTable_reads name scopes) hL
  · exact compares_of_reads (resolveInTable_reads name scopes) hL
  · exact .fail _ _ _

theorem resolveVariable_parallel {R : ResolvedVariable → ResolvedVariable → Prop} (hR : ∀ r, R r r)
    (hexternal : ∀ v w decl, v.kind = .external decl ∧ w.kind = .external decl →
      R (.external v decl.type) (.external w decl.type)) :
    Parallel R env (name.resolveVariable scopes) (name.resolveVariable scopes) :=
  parallel_of_compares (L := ⟨R, fun r => ⟨r, hR r⟩⟩) (resolveVariable_compares name scopes hR hexternal)
    fun _ _ h => h

end Name

def Scalar.Matching.any : Matching where
  vars := ⟨fun _ _ => True, fun v => ⟨v, trivial⟩⟩
  scalars := ⟨fun _ _ => True, fun s => ⟨s, trivial⟩⟩
  immediate _ _ := trivial
  var _ := trivial
  unary _ _ _ _ := trivial
  binary _ _ _ _ _ _ _ := trivial
  compare _ _ _ _ _ _ _ := trivial
  pattern _ _ _ _ _ _ _ _ _ _ := trivial
  conditional _ _ := trivial
  letIn _ _ := trivial
  cast _ _ _ _ _ := trivial
  call _ _ _ _ := trivial
  aggregate _ _ _ _ := trivial

def Environment.exprAnywhere (env : Environment) (scopes : Scopes) : ExprComparison where
  toComparison := env.anywhere
  toMatching := .any
  scopes
  scopes' := scopes
  options := rfl
  hostParameter? _ := rfl
  placeholder? _ := rfl
  mint _ _ _ _ := ⟨⟨Nat.le_refl _, .ok _⟩, fun _ => .ok trivial trivial⟩

abbrev Typed.SameType (x y : Typed) : Prop := x.type = y.type

abbrev Analysis.TypeStable (env : Environment) (m : Analysis Typed) : Prop := Parallel Typed.SameType env m m

def Operand.Stable (env : Environment) (x : Operand) : Prop := ∀ m, x = some m → Analysis.TypeStable env m

namespace Expr

variable (env : Environment) (scopes : Scopes)

theorem exprs_anywhere (e : Expr Q) : (env.exprAnywhere scopes).Exprs e e := by
  refine exprs_of_calls ⟨trivial, fun name => ⟨rfl, rfl, fun _ => ?_⟩⟩ e ?_
  · refine .bind (name.resolveVariable_compares scopes (L := ⟨fun r r' => r.type = r'.type, fun r => ⟨r, rfl⟩⟩)
      (fun _ => rfl) fun _ _ _ _ => rfl) fun r r' htype => ?_
    exact .pure ⟨trivial, htype, rfl⟩
  · rintro _ - _ quantifier _ rfl
    refine .call ⟨rfl, fun _ _ _ => ?_, fun _ _ => rfl⟩ (fun _ => ?_) quantifier
    · exact compares_of_reads (Name.resolveAggregates_reads _ _ _ _) fun _ => rfl
    · exact compares_of_reads (Name.resolveFunctions_reads _ _) fun _ => rfl

def Stable (e : Expr Q) : Prop := ∀ target, Analysis.TypeStable env (e.resolve scopes target)

theorem stable (e : Expr Q) : e.Stable env scopes :=
  fun target => parallel_of_compares ((exprs_anywhere env scopes e).resolves target) fun _ _ h => h.2.1

theorem operands_stable (es : List (Expr Q)) : ∀ x ∈ operands scopes es, Operand.Stable env x := by
  induction es with
  | nil => simp [operands]
  | cons e es ih =>
    rw [operands]
    refine List.forall_mem_cons.mpr ⟨fun m hm => ?_, ih⟩
    unfold Operand.ofExpr at hm
    split at hm <;> cases hm
    exact e.stable env scopes none

end Expr

end SqlPlan
