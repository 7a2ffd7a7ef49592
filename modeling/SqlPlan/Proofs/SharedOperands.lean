import SqlPlan.Proofs.Elaboration
import SqlPlan.Proofs.Success

namespace SqlPlan

variable {Q : Type} {env : Environment} {scopes : Scopes}
variable {target : Option Target} {x : Typed} {n m : Nat} {location : Option Span} {t : SqlType}
  {ys : List (Option Typed)}

@[simp] theorem Literal.resolve_ok {σ : Type} {l : Literal} {s s' : σ} :
    (l.resolve target : Step σ Typed) env s = (.ok x, s') ↔
      Literal.typed env.options target l = .ok x ∧ s = s' := by
  rw [Literal.resolve_eq]
  rcases l.typed env.options target with (d | _) | y <;> simp [Outcome.ok, Outcome.error]

theorem Expr.eq_null {e : Expr Q} (h : e.isNull = true) : e = .literal .null := by
  unfold Expr.isNull at h
  split at h
  · rfl
  · cases h

theorem Literal.typed_null_eq {o : Options} (h : Literal.typed o target .null = .ok x) :
    x = .constant .null ((target.map (·.type)).getD .unknown) := by
  cases target with
  | some t =>
    cases h
    rfl
  | none =>
    simp only [Literal.typed] at h
    split at h
    · cases h
      rfl
    · cases h

def Operand.of (scopes : Scopes) (e : Expr Q) : Operand := .ofExpr e.isNull (e.resolve scopes none)

theorem Expr.operands_eq (es : List (Expr Q)) : operands scopes es = es.map (Operand.of scopes) := by
  induction es with
  | nil => rfl
  | cons e es ih => simp [operands, ih, Operand.of]

def Expr.Sound (env : Environment) (scopes : Scopes) (e : Expr Q) : Prop :=
  ∀ p n x m, e.resolve scopes (p.expected e.isNull) env n = (.ok x, m) → Elaborates env scopes p [e] n [x] m

theorem Elaborates.null {e : Expr Q} (he : e.isNull = true) (nulls : Nat → SqlType) (n : Nat) :
    Elaborates env scopes (.operands nulls) [e] n [.constant .null (nulls 0)] n := by
  rw [Expr.eq_null he]
  exact .literal n rfl

theorem Operand.elaborates {e : Expr Q} {nulls : Nat → SqlType} (he : e.Sound env scopes)
    (h : (Operand.of scopes e).resolve target env n = (.ok x, m))
    (htarget : e.isNull = true → (target.map (·.type)).getD .unknown = nulls 0) :
    Elaborates env scopes (.operands nulls) [e] n [x] m := by
  unfold Operand.of Operand.ofExpr at h
  split at h
  · rename_i hn
    obtain ⟨hx, rfl⟩ := Literal.resolve_ok.mp h
    rw [Literal.typed_null_eq hx, htarget hn]
    exact .null hn nulls n
  · rename_i hn
    refine he (.operands nulls) n x m ?_
    rw [Bool.eq_false_iff.mpr hn]
    exact h

theorem Operand.isNone_of (scopes : Scopes) (e : Expr Q) : (Operand.of scopes e).isNone = e.isNull := by
  unfold Operand.of Operand.ofExpr
  split <;> simp_all

namespace Shared

/-- The operands resolved before the bare NULLs are filled: which of them are open, what the others
unify to, and that filling the open ones elaborates all of them. -/
theorem typedOperands_ok {es : List (Expr Q)} (hs : ∀ e ∈ es, e.Sound env scopes) {T : SqlType}
    {exprs : List (Option Scalar)} {aggregated : Bool}
    (h : typedOperands location (es.map (Operand.of scopes)) t env n = (.ok (exprs, T, aggregated), m)) :
    ∃ ys : List (Option Typed), exprs = ys.map (Option.map (·.expr)) ∧
      aggregated = ys.any (Option.any (·.aggregated)) ∧
      ((ys.map (Option.map (·.type))).filterMap id).foldlM SqlType.unify t = some T ∧
      es.map (·.isNull) = ys.map (·.isNone) ∧
      ∀ u, Elaborates env scopes (.all u) es n (ys.map (·.getD (.constant .null u))) m := by
  induction es generalizing t exprs aggregated n with
  | nil =>
    simp only [List.map_nil, typedOperands, Step.pure_ok, Prod.mk.injEq] at h
    obtain ⟨⟨rfl, rfl, rfl⟩, rfl⟩ := h
    exact ⟨[], rfl, rfl, rfl, rfl, fun _ => .nil n⟩
  | cons e es ih =>
    have hrest : ∀ e ∈ es, e.Sound env scopes := fun e' he' => hs e' (by simp [he'])
    have hnone := Operand.isNone_of scopes e
    rw [List.map_cons] at h
    rcases ho : Operand.of scopes e with _ | step
    · rw [ho] at hnone
      simp only [ho, typedOperands, Step.bind_ok, Step.pure_ok, Prod.exists, Prod.mk.injEq] at h
      obtain ⟨exprs', T', aggregated', _, h, ⟨rfl, rfl, rfl⟩, rfl⟩ := h
      obtain ⟨ys, rfl, rfl, hu, hnull, hel⟩ := ih hrest h
      exact ⟨none :: ys, rfl, by simp, hu, by simp [hnull, ← hnone], fun u => .cons (.null hnone.symm _ n) (hel u)⟩
    · rw [ho] at hnone
      simp only [ho, typedOperands, Step.bind_ok] at h
      obtain ⟨x, k, hx, h⟩ := h
      have hex : ∀ u, Elaborates env scopes (.all u) [e] n [x] k := by
        have hx' : (Operand.of scopes e).resolve none env n = (.ok x, k) := by rw [ho]; exact hx
        exact fun u => Operand.elaborates (hs e (by simp)) hx' (by simp [← hnone])
      rcases hunified : t.unify x.type with _ | unified
      · simp [hunified] at h
      · simp only [hunified, Step.bind_ok, Step.pure_ok, Prod.exists, Prod.mk.injEq] at h
        obtain ⟨exprs', T', aggregated', _, h, ⟨rfl, rfl, rfl⟩, rfl⟩ := h
        obtain ⟨ys, rfl, rfl, hu, hnull, hel⟩ := ih hrest h
        refine ⟨some x :: ys, rfl, by simp, ?_, by simp [hnull, ← hnone], ?_⟩
        · exact (SqlType.foldlM_unify_cons _ _ _ _).mpr ⟨unified, hunified, hu⟩
        · exact fun u => .cons (hex u) (hel u)

theorem none_mem_iff {es : List (Expr Q)} (h : es.map (·.isNull) = ys.map (·.isNone)) :
    none ∈ ys ↔ es.any (·.isNull) = true := by
  have hes : es.any (·.isNull) = (es.map (·.isNull)).any id := by simp [List.any_map]
  rw [hes, h]
  simp [List.any_map]

theorem givenTypes_filled {es : List (Expr Q)} (h : es.map (·.isNull) = ys.map (·.isNone)) (z : Typed) :
    givenTypes es (ys.map (·.getD z)) = (ys.map (Option.map (·.type))).filterMap id := by
  induction es generalizing ys with
  | nil =>
    obtain rfl := List.map_eq_nil_iff.mp h.symm
    rfl
  | cons e es ih =>
    cases ys with
    | nil => simp at h
    | cons y ys =>
      rw [List.map_cons, List.map_cons, List.cons.injEq] at h
      have ih := ih h.2
      cases y with
      | none | some x => simpa [givenTypes, h.1] using ih

theorem eq_map_some (h : none ∉ ys) : ∃ xs : List Typed, ys = xs.map some := by
  induction ys with
  | nil => exact ⟨[], rfl⟩
  | cons y ys ih =>
    obtain ⟨xs, rfl⟩ := ih fun hn => h (by simp [hn])
    cases y with
    | none => simp at h
    | some x => exact ⟨x :: xs, rfl⟩

theorem resolve_ok {fallback : Option Target} {es : List (Expr Q)} (hs : ∀ e ∈ es, e.Sound env scopes)
    {shared : Shared} (h : resolve location fallback (es.map (Operand.of scopes)) env n = (.ok shared, m)) :
    ∃ xs : List Typed, shared.exprs = xs.map (·.expr) ∧
      shared.aggregated = xs.any (·.aggregated) ∧ Elaborates env scopes (.all shared.type) es n xs m ∧
      SharedType ((fallback.map (·.type)).getD .unknown) es xs shared.type := by
  simp only [resolve, Step.bind_ok, Prod.exists] at h
  obtain ⟨exprs, t, aggregated, k, h, h'⟩ := h
  obtain ⟨ys, rfl, rfl, hu, hnull, hel⟩ := typedOperands_ok hs h
  have hany : (es.map (Operand.of scopes)).any Option.isNone = es.any (·.isNull) := by
    simp [List.any_map, Function.comp_def, Operand.isNone_of]
  rw [hany] at h'
  by_cases hopen : none ∈ ys
  · have hes := (none_mem_iff hnull).mp hopen
    simp only [hes, if_true, Step.bind_ok, Literal.resolve_ok, Step.pure_ok] at h'
    obtain ⟨z, _, ⟨hz, rfl⟩, rfl, rfl⟩ := h'
    have hz : z = .constant .null (if t = .unknown then (fallback.map (·.type)).getD .unknown else t) := by
      rw [Literal.typed_null_eq hz]
      split <;> simp [Function.comp_def]
    have htype : (if t = .unknown then z.type else t) = z.type := by
      rw [hz]
      split <;> simp_all [Typed.constant]
    have hzagg : z.aggregated = false := by rw [hz]; rfl
    have hconst : z = .constant .null z.type := by rw [hz]; rfl
    rw [htype]
    refine ⟨ys.map (·.getD z), ?_, ?_, by rw [hconst]; exact hel z.type, ?_, t, ?_, ?_⟩
    · simp only [List.map_map]
      congr 1
      funext y
      cases y <;> rfl
    · simp only [List.any_map]
      congr 1
      funext y
      cases y <;> simp [hzagg]
    · have htypes : (ys.map (·.getD z)).map (·.type) = (ys.map (Option.map (·.type))).map (·.getD z.type) := by
        simp only [List.map_map]
        congr 1
        funext y
        cases y <;> rfl
      rw [htypes, ← htype]
      split
      · rename_i ht
        rw [ht] at hu
        exact SqlType.unifyAll_filled_unknown hu (List.mem_map.mpr ⟨none, hopen, rfl⟩)
      · exact SqlType.foldlM_unify_filled hu
    · rw [givenTypes_filled hnull]
      exact hu
    · simp [hes, hz, Typed.constant]
  · have hes : es.any (·.isNull) = false := by
      rwa [none_mem_iff hnull, Bool.not_eq_true] at hopen
    simp only [hes, Bool.false_eq_true, if_false, Step.pure_ok] at h'
    obtain ⟨rfl, rfl⟩ := h'
    obtain ⟨xs, rfl⟩ := eq_map_some hopen
    have hel' := hel t
    have hgiven := givenTypes_filled hnull (.constant .null t)
    simp only [List.map_map, Function.comp_def, Option.getD_some, List.map_id'] at hel' hgiven
    refine ⟨xs, ?_, ?_, hel', ?_, t, ?_, ?_⟩
    · simp only [List.filterMap_map, Function.comp_def, Option.map_some, id_eq, List.filterMap_eq_map']
    · simp [List.any_map, Function.comp_def]
    · simpa [SqlType.unifyAll, List.filterMap_map, Function.comp_def] using hu
    · rw [hgiven]
      simpa [SqlType.unifyAll, Function.comp_def] using hu
    · simp [hes]

end Shared

end SqlPlan
