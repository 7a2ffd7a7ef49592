import SqlPlan.Proofs.ElaborationSound
import SqlPlan.Proofs.ScalarTyping

namespace SqlPlan

variable {xs : List Typed} {Δ : Temporaries} {tests : List Scalar} {t u : SqlType} {s : Scalar} {l : Literal}
  {x : Typed} {n m : Nat} {o : Options} {target : Option Target}

def ColumnTypes.Has (Γ : ColumnTypes) (columns : List ColumnInfo) : Prop :=
  ∀ c ∈ columns, c.carrier.isStream = true ∧ Γ c.carrier = some c.type

/-- The expression has the type, whatever let expressions are around it. -/
def Scalar.HasType (Γ : ColumnTypes) (s : Scalar) (t : SqlType) : Prop := ∀ Δ, s.typeIn Γ Δ = some t

namespace Scalar

variable {Γ : ColumnTypes}

theorem listTypes_map {α : Type} {f : α → Scalar} {g : α → SqlType} {xs : List α}
    (h : ∀ x ∈ xs, (f x).typeIn Γ Δ = some (g x)) : listTypes Γ Δ (xs.map f) = some (xs.map g) := by
  induction xs with
  | nil => rfl
  | cons x xs ih =>
    have hx := h x (by simp)
    have hxs := ih fun y hy => h y (by simp [hy])
    simp [listTypes, hx, hxs]

theorem bodyTypes_zip (hlen : tests.length = xs.length) (ht : ∀ s ∈ tests, ∃ t, s.typeIn Γ Δ = some t)
    (hx : ∀ x ∈ xs, x.expr.typeIn Γ Δ = some x.type) :
    bodyTypes Γ Δ (tests.zip (xs.map (·.expr))) = some (xs.map (·.type)) := by
  induction tests generalizing xs with
  | nil =>
    cases xs with
    | nil => rfl
    | cons => simp at hlen
  | cons s tests ih =>
    cases xs with
    | nil => simp at hlen
    | cons x xs =>
      obtain ⟨t, hs⟩ := ht s (by simp)
      have hrest := ih (by simpa using hlen) (fun s' hs' => ht s' (by simp [hs']))
        fun y hy => hx y (by simp [hy])
      simp [bodyTypes, hs, hx x (by simp), hrest]

theorem typeIn_conditionalOf {k : Nat} {bodies : List Typed} (hk : tests.length = k) (hlow : k ≤ bodies.length)
    (hhigh : bodies.length ≤ k + 1) (htests : ∀ s ∈ tests, ∃ u, s.typeIn Γ Δ = some u)
    (hbodies : ∀ x ∈ bodies, x.expr.typeIn Γ Δ = some x.type) (ht : SqlType.unifyAll (bodies.map (·.type)) = some t) :
    (conditionalOf k tests bodies).typeIn Γ Δ = some t := by
  have htake : bodyTypes Γ Δ (tests.zip ((bodies.map (·.expr)).take k)) =
      some ((bodies.take k).map (·.type)) := by
    rw [← List.map_take]
    refine bodyTypes_zip ?_ htests fun x hx => hbodies x (List.mem_of_mem_take hx)
    rw [List.length_take, hk]
    omega
  have hlast : optionTypes Γ Δ (bodies.map (·.expr))[k]? = some ((bodies.drop k).map (·.type)) := by
    rcases hd : bodies.drop k with _ | ⟨x, rest⟩
    · have hge : bodies.length ≤ k := List.drop_eq_nil_iff.mp hd
      rw [List.getElem?_eq_none (by simpa using hge)]
      rfl
    · have hx : bodies[k]? = some x := by
        have h0 := congrArg (·[0]?) hd
        simpa using h0
      have hrest : rest = [] := by
        have hlen := congrArg List.length hd
        simp only [List.length_drop, List.length_cons] at hlen
        exact List.length_eq_zero_iff.mp (by omega)
      subst hrest
      rw [List.getElem?_map, hx]
      simp [optionTypes, hbodies x (List.mem_of_getElem? hx)]
  simp only [conditionalOf, typeIn, htake, hlast, Option.bind_eq_bind, Option.bind_some]
  rw [← List.map_append, List.take_append_drop]
  exact ht

theorem typeIn_negatedIf (negated : Bool) (h : s.typeIn Γ Δ = some .boolean) :
    (s.negatedIf negated).typeIn Γ Δ = some .boolean := by
  cases negated with
  | false => exact h
  | true => simp [negatedIf, negation, typeIn, h, UnaryOperator.type]

theorem typeIn_inRange {l x h : Scalar} {w : SqlType} (hl : l.typeIn Γ Δ = some t) (hx : x.typeIn Γ Δ = some u)
    (hh : h.typeIn Γ Δ = some w) : (Form.inRange l x h).typeIn Γ Δ = some .boolean := by
  simp [Form.inRange, conjunction, typeIn, hl, hx, hh, BinaryOperator.type]

theorem typeIn_anyOf {first : Scalar} {rest : List Scalar} (hf : first.typeIn Γ Δ = some .boolean)
    (hr : ∀ s ∈ rest, s.typeIn Γ Δ = some .boolean) : (Form.anyOf first rest).typeIn Γ Δ = some .boolean := by
  unfold Form.anyOf
  induction rest generalizing first with
  | nil => exact hf
  | cons s rest ih =>
    refine ih ?_ fun s' hs' => hr s' (by simp [hs'])
    simp [disjunction, typeIn, hf, hr s (by simp), BinaryOperator.type]

@[simp] theorem typeIn_temporary_head (n : Nat) (t : SqlType) (Δ : Temporaries) :
    (temporaryAfter n).typeIn Γ ((temporaryAfter n, t) :: Δ) = some t := by
  simp [temporaryAfter, Variable.typeIn, Variable.same, Variable.isMinted]

theorem typeIn_temporary_tail (h : n ≠ m) (t : SqlType) (Δ : Temporaries) :
    (temporaryAfter n).typeIn Γ ((temporaryAfter m, t) :: Δ) = (temporaryAfter n).typeIn Γ Δ := by
  simp [temporaryAfter, Variable.typeIn, Variable.same, Variable.isMinted, h]

/-- A temporary lies between two others, in whichever order these are. -/
theorem typeIn_eitherRange (n : Nat) (t u w : SqlType) (Δ : Temporaries) :
    (disjunction
      (Form.inRange (.var (temporaryAfter (n + 1))) (.var (temporaryAfter n)) (.var (temporaryAfter (n + 2))))
      (Form.inRange (.var (temporaryAfter (n + 2))) (.var (temporaryAfter n))
        (.var (temporaryAfter (n + 1))))).typeIn Γ
      ((temporaryAfter (n + 2), w) :: (temporaryAfter (n + 1), u) :: (temporaryAfter n, t) :: Δ) =
        some .boolean := by
  -- The three temporaries have different numbers, so each is found under its own.
  have hx : (var (temporaryAfter n)).typeIn Γ ((temporaryAfter (n + 2), w) :: (temporaryAfter (n + 1), u) ::
      (temporaryAfter n, t) :: Δ) = some t := by
    simp [typeIn, typeIn_temporary_tail]
  have hl : (var (temporaryAfter (n + 1))).typeIn Γ ((temporaryAfter (n + 2), w) ::
      (temporaryAfter (n + 1), u) :: (temporaryAfter n, t) :: Δ) = some u := by
    simp [typeIn, typeIn_temporary_tail]
  have hh : (var (temporaryAfter (n + 2))).typeIn Γ ((temporaryAfter (n + 2), w) ::
      (temporaryAfter (n + 1), u) :: (temporaryAfter n, t) :: Δ) = some w := by
    simp [typeIn]
  simp [disjunction, typeIn, typeIn_inRange hl hx hh, typeIn_inRange hh hx hl, BinaryOperator.type]

theorem typeIn_letCons {body : Scalar} {rest : List (Variable × Scalar)} (h : s.typeIn Γ Δ = some t) :
    (letIn ((temporaryAfter n, s) :: rest) body).typeIn Γ Δ =
      (letIn rest body).typeIn Γ ((temporaryAfter n, t) :: Δ) := by
  simp [typeIn, declare, temporaryAfter, h]

theorem typeIn_letNil (body : Scalar) (Δ : Temporaries) : (letIn [] body).typeIn Γ Δ = body.typeIn Γ Δ := rfl

theorem typeIn_equals {value : Scalar} (h : value.typeIn Γ ((temporaryAfter n, t) :: Δ) = some u) :
    (Form.equals (temporaryAfter n) value).typeIn Γ ((temporaryAfter n, t) :: Δ) = some .boolean := by
  simp [Form.equals, typeIn, h]

end Scalar

variable {Q : Type} {env : Environment} {scopes : Scopes} {Γ : ColumnTypes} {p : Position} {fallback : SqlType}

theorem Literal.typed_ok (h : l.typed o target = .ok x) :
    (∃ v t, x = .constant v t) ∨ ∃ v t u, x = ⟨.cast .error u (.immediate v t), u, false⟩ := by
  unfold typed at h
  split at h
  · split at h
    · cases h
      exact .inl ⟨_, _, rfl⟩
    · split at h
      · cases h
        exact .inl ⟨_, _, rfl⟩
      · cases h
  · split at h
    · cases h
      exact .inl ⟨_, _, rfl⟩
    · cases h
  · rcases hc : l.constant o with _ | ⟨value, type⟩
    · rw [hc] at h
      cases h
    · simp only [hc, bind, Except.bind] at h
      split at h
      · split at h
        · cases h
          exact .inr ⟨_, _, _, rfl⟩
        · cases h
          exact .inl ⟨_, _, rfl⟩
      · cases h
        exact .inl ⟨_, _, rfl⟩

theorem Literal.hasType (h : l.typed o target = .ok x) : x.expr.HasType Γ x.type := by
  intro Δ
  rcases typed_ok h with ⟨v, t, rfl⟩ | ⟨v, t, u, rfl⟩
  · rfl
  · rfl

theorem Form.type_truthTest {e : Expr Q} {test : UnaryOperator} (h : truthTest? e = some test)
    (t : SqlType) : test.type t = .boolean := by
  unfold truthTest? at h
  split at h <;> cases h <;> rfl

theorem BinaryOp.type_arithmetic (op : BinaryOp) (t u : SqlType) : op.arithmetic.type t u = t.unify u := by
  cases op <;> rfl

namespace Elaborates

theorem minted_le {es : List (Expr Q)} (h : Elaborates env scopes p es n xs m) : n ≤ m := by
  induction h with
  | reference hr =>
    rcases Name.resolveVariable_ok hr with ⟨_, _, _, rfl⟩ | ⟨_, _, rfl⟩
    · exact Nat.le_refl _
    · omega
  | hostParameter hx =>
    rcases Form.hostParameter_ok hx with ⟨_, _, rfl, -⟩ | ⟨_, _, _, rfl, -⟩
    · omega
    · exact Nat.le_refl _
  | _ => omega

theorem typeIn_branches {clauses : List (Expr Q × Expr Q)} {default : Option (Expr Q)} {bs : List Typed}
    (h : Elaborates env scopes p (clauses.map (·.2) ++ default.toList) n bs m)
    (ht : SharedType fallback (clauses.map (·.2) ++ default.toList) bs t) (hlen : tests.length = clauses.length)
    (htests : ∀ s ∈ tests, ∃ u, s.typeIn Γ Δ = some u) (hbodies : ∀ x ∈ bs, x.expr.typeIn Γ Δ = some x.type) :
    (conditionalOf clauses.length tests bs).typeIn Γ Δ = some t := by
  have hbodiesLen := h.length_eq
  have hdefault : default.toList.length ≤ 1 := Option.length_toList_le
  simp only [List.length_map, List.length_append] at hbodiesLen
  exact Scalar.typeIn_conditionalOf hlen (by omega) (by omega) htests hbodies ht.unified

theorem hasType (hΓ : Γ.Has scopes.visible) {es : List (Expr Q)} (h : Elaborates env scopes p es n xs m) :
    ∀ x ∈ xs, x.expr.HasType Γ x.type := by
  induction h with
  | nil => simp
  | cons _ _ ih ih' => exact List.forall_mem_cons.mpr ⟨ih _ (by simp), ih'⟩
  | literal _ hx | negated _ _ hx => simpa using Literal.hasType hx
  | reference hr =>
    simp only [List.mem_singleton, forall_eq]
    intro Δ
    rcases Name.resolveVariable_ok hr with ⟨c, hc, rfl, _⟩ | ⟨decl, rfl, _⟩
    · obtain ⟨hs, ht⟩ := hΓ c hc
      exact (Variable.typeIn_stream hs Γ Δ).trans ht
    · rfl
  | hostParameter hx =>
    simp only [List.mem_singleton, forall_eq]
    intro Δ
    rcases Form.hostParameter_ok hx with ⟨decl, rfl, _⟩ | ⟨v, t, rfl, _⟩
    · rfl
    · rfl
  | @sign op e x _ _ _ hop _ _ ih =>
    simp only [List.mem_singleton, forall_eq] at ih ⊢
    intro Δ
    cases op <;> simp_all [Form.isSign, Form.unaryTest, Scalar.typeIn, UnaryOperator.type, ih Δ]
  | @test op e x _ _ _ hop _ ih =>
    simp only [List.mem_singleton, forall_eq] at ih ⊢
    intro Δ
    refine Scalar.typeIn_negatedIf _ ?_
    cases op <;> simp_all [Form.isSign, Form.unaryTest, Scalar.typeIn, UnaryOperator.type, ih Δ]
  | isTest _ ht _ ih =>
    simp only [List.mem_singleton, forall_eq] at ih ⊢
    intro Δ
    refine Scalar.typeIn_negatedIf _ ?_
    simp [Scalar.typeIn, ih Δ, Form.type_truthTest ht]
  | logical hop _ ih =>
    simp only [List.forall_mem_cons, List.mem_singleton, forall_eq] at ih ⊢
    intro Δ
    rcases hop with ⟨_, rfl⟩ | ⟨_, rfl⟩
    · simp [Scalar.typeIn, ih.1 Δ, ih.2 Δ, BinaryOperator.type]
    · simp [Scalar.typeIn, ih.1 Δ, ih.2 Δ, BinaryOperator.type]
  | concat _ ht ih =>
    simp only [List.forall_mem_cons, List.mem_singleton, forall_eq] at ih ⊢
    intro Δ
    simp [Scalar.typeIn, ih.1 Δ, ih.2 Δ, BinaryOperator.type, ht]
  | arithmetic _ _ ht ih =>
    simp only [List.forall_mem_cons, List.mem_singleton, forall_eq] at ih ⊢
    intro Δ
    have hu := ht.unified
    simp only [List.map_cons, List.map_nil, SqlType.unifyAll_pair] at hu
    simp [Scalar.typeIn, ih.1 Δ, ih.2 Δ, BinaryOp.type_arithmetic, hu]
  | comparison _ _ ih =>
    simp only [List.forall_mem_cons, List.mem_singleton, forall_eq] at ih ⊢
    intro Δ
    simp [Scalar.typeIn, ih.1 Δ, ih.2 Δ]
  | between _ _ ih =>
    simp only [List.forall_mem_cons, List.mem_singleton, forall_eq] at ih ⊢
    intro Δ
    obtain ⟨hx, hl, hh⟩ := ih
    refine Scalar.typeIn_negatedIf _ ?_
    rw [Scalar.typeIn_letCons (hx Δ), Scalar.typeIn_letNil]
    exact Scalar.typeIn_inRange (hl _) (Scalar.typeIn_temporary_head _ _ _) (hh _)
  | @betweenSymmetric _ _ _ x l h _ _ _ m _ _ _ ih =>
    simp only [List.forall_mem_cons, List.mem_singleton, forall_eq] at ih ⊢
    intro Δ
    obtain ⟨hx, hl, hh⟩ := ih
    refine Scalar.typeIn_negatedIf _ ?_
    rw [Scalar.typeIn_letCons (hx _), Scalar.typeIn_letCons (hl _), Scalar.typeIn_letCons (hh _),
      Scalar.typeIn_letNil]
    exact Scalar.typeIn_eitherRange m x.type l.type h.type Δ
  | inList _ _ ih =>
    simp only [List.forall_mem_cons, List.mem_singleton, forall_eq] at ih ⊢
    intro Δ
    obtain ⟨hx, hy, hys⟩ := ih
    refine Scalar.typeIn_negatedIf _ ?_
    rw [Scalar.typeIn_letCons (hx Δ), Scalar.typeIn_letNil]
    refine Scalar.typeIn_anyOf (Scalar.typeIn_equals (hy _)) ?_
    intro s hs
    simp only [List.map_map, List.mem_map, Function.comp_apply] at hs
    obtain ⟨y, hmem, rfl⟩ := hs
    exact Scalar.typeIn_equals (hys y hmem _)
  | pattern _ ih =>
    simp only [List.forall_mem_cons, List.mem_singleton, forall_eq] at ih ⊢
    intro Δ
    refine Scalar.typeIn_negatedIf _ ?_
    simp [Scalar.typeIn, ih.1 Δ, ih.2 Δ, Form.noEscape, Typed.constant]
  | patternEscape _ ih =>
    simp only [List.forall_mem_cons, List.mem_singleton, forall_eq] at ih ⊢
    intro Δ
    refine Scalar.typeIn_negatedIf _ ?_
    simp [Scalar.typeIn, ih.1 Δ, ih.2.1 Δ, ih.2.2 Δ]
  | searchedCase _ hw hb ht ihw ihb =>
    simp only [List.mem_singleton, forall_eq]
    intro Δ
    have hwidth := hw.length_eq
    refine hb.typeIn_branches ht (by simpa using hwidth.symm) ?_ fun x hx => ihb x hx Δ
    intro s hs
    obtain ⟨w, hmem, rfl⟩ := List.mem_map.mp hs
    exact ⟨w.type, ihw w hmem Δ⟩
  | simpleCase _ hw _ hb ht ihw ihb =>
    simp only [List.forall_mem_cons, List.mem_singleton, forall_eq] at ihw ⊢
    intro Δ
    obtain ⟨hx, hws⟩ := ihw
    have hwidth := hw.length_eq
    simp only [List.length_map, List.length_cons, Nat.add_right_cancel_iff] at hwidth
    rw [Scalar.typeIn_letCons (hx Δ), Scalar.typeIn_letNil]
    refine hb.typeIn_branches ht (by simpa using hwidth.symm) ?_ fun x hx => ihb x hx _
    intro s hs
    simp only [List.map_map, List.mem_map, Function.comp_apply] at hs
    obtain ⟨w, hmem, rfl⟩ := hs
    exact ⟨.boolean, Scalar.typeIn_equals (hws w hmem _)⟩
  | @nullif l r x y t n m _ _ ht ih =>
    simp only [List.forall_mem_cons, List.mem_singleton, forall_eq] at ih ⊢
    intro Δ
    obtain ⟨hx, hy⟩ := ih
    have hu := ht.unified
    simp only [List.map_cons, List.map_nil, SqlType.unifyAll_pair] at hu
    have hback : t.unify x.type = some t := by
      rw [SqlType.unify_comm]
      exact (SqlType.widens_left hu).unify_eq
    rw [Scalar.typeIn_letCons (hx Δ), Scalar.typeIn_letNil]
    simp [Scalar.typeIn, Scalar.bodyTypes, Scalar.optionTypes, Scalar.typeIn_equals (hy _),
      SqlType.unifyAll_pair, hback]
  | cast _ _ ih =>
    simp only [List.mem_singleton, forall_eq] at ih ⊢
    intro Δ
    simp [Scalar.typeIn, ih Δ]
  | call _ _ _ ih =>
    simp only [List.mem_singleton, forall_eq]
    intro Δ
    simp [Scalar.typeIn, Scalar.listTypes_map fun x hx => ih x hx Δ]
  | aggregate _ _ _ _ ih =>
    simp only [List.mem_singleton, forall_eq]
    intro Δ
    simp [Scalar.typeIn, Scalar.listTypes_map fun x hx => ih x hx []]

end Elaborates

theorem Expr.resolve_hasType (hΓ : Γ.Has scopes.visible) {e : Expr Q}
    (h : e.resolve scopes target env n = (.ok x, m)) : n ≤ m ∧ x.expr.HasType Γ x.type := by
  have hel := Expr.sound env scopes e target n x m h
  exact ⟨hel.minted_le, hel.hasType hΓ x (List.mem_singleton_self x)⟩

end SqlPlan
