import Mathlib.Data.List.Perm.Basic
import SqlPlan.Proofs.PlanColumns
import SqlPlan.Proofs.TypeLattice
import SqlPlan.Proofs.TypeStability

namespace SqlPlan

variable {Q : Type} {env : Environment}

theorem mapM_perm {α β : Type} {f : α → Option β} {xs xs' : List α} {ys : List β} (h : xs.Perm xs')
    (hys : xs.mapM f = some ys) : ∃ ys', xs'.mapM f = some ys' ∧ ys'.Perm ys := by
  obtain ⟨ys', hall, hperm⟩ := List.perm_comp_forall₂ h.symm (mapM_eq_some_iff.mp hys)
  exact ⟨ys', mapM_eq_some_iff.mpr hall, hperm⟩

theorem SqlType.bind_unifyAll_perm {α : Type} {f : α → Option SqlType} {xs xs' : List α} (h : xs.Perm xs') :
    (xs.mapM f).bind unifyAll = (xs'.mapM f).bind unifyAll := by
  cases hx : xs.mapM f with
  | some ys =>
    obtain ⟨ys', hys', hperm⟩ := mapM_perm h hx
    rw [hys', Option.bind_some, Option.bind_some, unifyAll_perm hperm]
  | none =>
    cases hx' : xs'.mapM f with
    | some ys' =>
      obtain ⟨ys, hys, -⟩ := mapM_perm h.symm hx'
      cases hx.symm.trans hys
    | none => rfl

theorem Literal.toOption_resolve {σ : Type} (l : Literal) (target : Option Target) (env : Environment) (s : σ) :
    ((l.resolve target : Step σ Typed) env s).1.toOption = (l.typed env.options target).toOption := by
  rw [l.resolve_eq]
  rcases l.typed env.options target with (d | _) | x <;> rfl

def Analysis.type? (env : Environment) (m : Analysis Typed) : Option SqlType :=
  (m env 0).1.toOption.map (·.type)

namespace Shared

variable {xs ys : List Operand}

theorem typedOperands_type (location : Option Span) (h : ∀ x ∈ xs, x.Stable env) (t : SqlType) (n : Nat) :
    (typedOperands location xs t env n).1.toOption.map (·.2.1) =
      ((xs.filterMap id).mapM (Analysis.type? env)).bind (·.foldlM SqlType.unify t) := by
  induction xs generalizing t n with
  | nil => rfl
  | cons x xs ih =>
    obtain ⟨hx, hxs⟩ := List.forall_mem_cons.mp h
    cases x with
    | none =>
      have hrest := ih hxs t n
      rw [List.filterMap_cons_none rfl, ← hrest, typedOperands]
      rw [Step.toOption_bind]
      cases (typedOperands location xs t env n).1.toOption <;> rfl
    | some m =>
      have htype : Analysis.type? env m = (m env n).1.toOption.map (·.type) := (hx m rfl).toOption_eq 0 n
      have hcons : (some m :: xs).filterMap id = m :: xs.filterMap id := rfl
      rw [hcons, List.mapM_cons, htype, typedOperands, Step.toOption_bind]
      cases (m env n).1.toOption with
      | none => rfl
      | some x =>
        simp only [Option.map_some, Option.bind_eq_bind, Option.bind_some, Option.bind_assoc, List.foldlM_cons,
          Option.pure_def]
        cases t.unify x.type with
        | none => simp [Step.fail_eq]
        | some unified =>
          simp only [Option.bind_some]
          rw [← ih hxs unified (m env n).2, Step.toOption_bind]
          cases (typedOperands location xs unified env (m env n).2).1.toOption <;> rfl

/-- The type of operands whose own types unify to the given one, where some may be open. -/
def filledType (o : Options) (fallback : Option Target) (hasOpen : Bool) (t : SqlType) : Option SqlType :=
  if hasOpen then
    let nullTarget : Option Target :=
      if t = .unknown then fallback.map fun t => { type := t.type } else some { type := t }
    (Literal.null.typed o nullTarget).toOption.map fun x => if t = .unknown then x.type else t
  else some t

theorem resolve_type (location : Option Span) (fallback : Option Target) (xs : List Operand) (n : Nat) :
    (resolve location fallback xs env n).1.toOption.map (·.type) =
      ((typedOperands location xs .unknown env n).1.toOption.map (·.2.1)).bind
        (filledType env.options fallback (xs.any Option.isNone)) := by
  unfold resolve filledType
  rw [Step.toOption_bind]
  rcases (typedOperands location xs .unknown env n).1.toOption with _ | ⟨exprs, t, g⟩
  · rfl
  dsimp only [Option.map_some, Option.bind_some]
  cases xs.any Option.isNone with
  | false => rfl
  | true =>
    simp only [if_true]
    rw [Step.toOption_bind, Literal.toOption_resolve]
    cases (Literal.null.typed env.options (if t = .unknown then fallback.map fun t => { type := t.type }
      else some { type := t })).toOption <;> rfl

theorem resolve_type_perm (h : ∀ x ∈ xs, x.Stable env) (hperm : xs.Perm ys) (location location' : Option Span)
    (fallback : Option Target) (n n' : Nat) :
    (resolve location fallback xs env n).1.toOption.map (·.type) =
      (resolve location' fallback ys env n').1.toOption.map (·.type) := by
  have hopen : xs.any Option.isNone = ys.any Option.isNone := by
    rw [Bool.eq_iff_iff, List.any_eq_true, List.any_eq_true]
    simp only [hperm.mem_iff]
  have htypes := SqlType.bind_unifyAll_perm (f := Analysis.type? env) (hperm.filterMap id)
  rw [resolve_type, resolve_type, typedOperands_type _ h,
    typedOperands_type _ fun y hy => h y (hperm.mem_iff.mpr hy), hopen]
  exact congrArg (fun t : Option SqlType => t.bind (filledType env.options fallback (ys.any Option.isNone))) htypes

end Shared

namespace Values

def knownTypes (cells : List (Option Typed × Option Span)) : List SqlType :=
  cells.filterMap fun c => c.1.map (·.type)

variable {σ : Type}

theorem unifyColumn_type (position : Nat) (cells : List (Option Typed × Option Span)) (t : SqlType) (s : σ) :
    (unifyColumn position cells (some t) env s).1.toOption =
      ((knownTypes cells).foldlM SqlType.unify t).map some := by
  induction cells generalizing t with
  | nil => rfl
  | cons c cells ih =>
    obtain ⟨_ | x, location⟩ := c
    · rw [unifyColumn, ih]
      rfl
    · have hknown : knownTypes ((some x, location) :: cells) = x.type :: knownTypes cells := rfl
      rw [unifyColumn, hknown, List.foldlM_cons]
      cases t.unify x.type with
      | none => rfl
      | some unified => exact ih unified

theorem unifyColumn_none_type (position : Nat) (cells : List (Option Typed × Option Span)) (s : σ) :
    (unifyColumn position cells none env s).1.toOption =
      (SqlType.unifyAll (knownTypes cells)).map fun t => if (knownTypes cells).isEmpty then none else some t := by
  induction cells with
  | nil => rfl
  | cons c cells ih =>
    obtain ⟨_ | x, location⟩ := c
    · rw [unifyColumn, ih]
      rfl
    · have hknown : knownTypes ((some x, location) :: cells) = x.type :: knownTypes cells := rfl
      rw [unifyColumn, hknown, SqlType.unifyAll, List.foldlM_cons, SqlType.unify_unknown_left, unifyColumn_type]
      rfl

theorem unifyColumn_perm {cells cells' : List (Option Typed × Option Span)} (h : cells.Perm cells')
    (position : Nat) (s s' : σ) :
    (unifyColumn position cells none env s).1.toOption = (unifyColumn position cells' none env s').1.toOption := by
  have hperm : (knownTypes cells).Perm (knownTypes cells') := h.filterMap _
  have hempty : (knownTypes cells).isEmpty = (knownTypes cells').isEmpty := by
    rw [Bool.eq_iff_iff, List.isEmpty_iff_length_eq_zero, List.isEmpty_iff_length_eq_zero, hperm.length_eq]
  rw [unifyColumn_none_type, unifyColumn_none_type, SqlType.unifyAll_perm hperm, hempty]

end Values

/-- A partial operation that is a join where it is defined, with a least element. Both sides of the
associative law are defined, or neither is. -/
structure IsPartialJoin {α : Type} (join : α → α → Option α) (bottom : α) : Prop where
  idempotent (a : α) : join a a = some a
  commutative (a b : α) : join a b = join b a
  bottom_left (a : α) : join bottom a = some a
  bottom_right (a : α) : join a bottom = some a
  associative (a b c : α) : (join a b).bind (join · c) = (join b c).bind (join a)
  absorptive {a b c : α} : join a b = some c → join a c = some c

namespace SqlType

theorem unify_isPartialJoin : IsPartialJoin unify .unknown where
  idempotent := unify_self
  commutative := unify_comm
  bottom_left := unify_unknown_left
  bottom_right := unify_unknown_right
  associative := unify_assoc
  absorptive h := (widens_left h).unify_eq

theorem foldlM_unify_perm (a : SqlType) {ts us : List SqlType} (h : ts.Perm us) :
    ts.foldlM unify a = us.foldlM unify a := by
  have hfold : ∀ vs : List SqlType, vs.foldlM unify a = unifyAll (a :: vs) := by
    intro vs
    rw [unifyAll, List.foldlM_cons, unify_unknown_left]
    rfl
  rw [hfold, hfold]
  exact unifyAll_perm (h.cons a)

/-- Unification is a partial join of types with `unknown` at the bottom. So whether types unify from the left,
and to what, does not depend on their order: neither for operands that share a type, such as those of a
comparison, of IN or of CASE, nor for the cells of a column of VALUES. -/
theorem unify_orderIndependent (env : Environment) (scopes : Scopes) :
    IsPartialJoin unify .unknown ∧
    (∀ (a : SqlType) {ts us : List SqlType}, ts.Perm us → ts.foldlM unify a = us.foldlM unify a) ∧
    (∀ {es es' : List (Expr Q)} (location location' : Option Span) (fallback : Option Target) (n n' : Nat),
      es.Perm es' →
        (Shared.resolve location fallback (Expr.operands scopes es) env n).1.toOption.map (·.type) =
          (Shared.resolve location' fallback (Expr.operands scopes es') env n').1.toOption.map (·.type)) ∧
    ∀ {cells cells' : List (Option Typed × Option Span)} (position n n' : Nat), cells.Perm cells' →
      (Values.unifyColumn position cells none env n).1.toOption =
        (Values.unifyColumn position cells' none env n').1.toOption := by
  refine ⟨unify_isPartialJoin, foldlM_unify_perm, fun location location' fallback n n' h => ?_,
    fun position n n' h => Values.unifyColumn_perm h position n n'⟩
  refine Shared.resolve_type_perm (Expr.operands_stable env scopes _) ?_ location location' fallback n n'
  rw [Expr.operands_eq, Expr.operands_eq]
  exact h.map _

end SqlType

namespace Sample

def empty : Environment := { catalog := { name := "db", schemas := [] } }

/-- `CAST(NULL AS BIGINT)` -/
def bigint : Expr Unit := .cast (.literal .null) (.integer .w64)

/-- `CAST(NULL AS DECIMAL(5, 2))` -/
def price : Expr Unit := .cast (.literal .null) (.decimal (some (.value 5)) (some (.value 2)))

end Sample

/-- The nineteen digits of a `bigint` and the scale of a `decimal(5, 2)`, in either order. -/
theorem SqlType.unify_orderIndependent_price :
    (Shared.resolve none none (Expr.operands [] [Sample.bigint, Sample.price]) Sample.empty 0).1.toOption.map
      (·.type) = some (.decimal (some 21) (some 2)) ∧
    (Shared.resolve none none (Expr.operands [] [Sample.price, Sample.bigint]) Sample.empty 7).1.toOption.map
      (·.type) = some (.decimal (some 21) (some 2)) := by
  obtain ⟨-, -, hoperands, -⟩ := unify_orderIndependent (Q := Unit) Sample.empty []
  have htype : (Shared.resolve none none (Expr.operands [] [Sample.bigint, Sample.price]) Sample.empty
      0).1.toOption.map (·.type) = some (.decimal (some 21) (some 2)) := by
    decide +kernel
  have hperm : [Sample.bigint, Sample.price].Perm [Sample.price, Sample.bigint] := .swap _ _ []
  exact ⟨htype, (hoperands none none none 0 7 hperm).symm.trans htype⟩

end SqlPlan
