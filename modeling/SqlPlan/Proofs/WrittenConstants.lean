import SqlPlan.Proofs.ElaborationSound

namespace SqlPlan

variable {Q : Type} {env : Environment} {scopes : Scopes}

/-- The constant as its position expects it: cast to the type of the position if it has another one and
literals are cast at all. -/
def Typed.placed (o : Options) (target : Option Target) (v : Value) (t : SqlType) : Typed :=
  match target with
  | some target =>
    if target.type ≠ t ∧ o.castLiteralsInContext then
      ⟨.cast .error target.type (.immediate v t), target.type, false⟩
    else .constant v t
  | none => .constant v t

theorem Typed.constant?_placed (o : Options) (target : Option Target) (v : Value) (t : SqlType) :
    (placed o target v t).expr.constant? = some (v, t) := by
  unfold placed
  split
  · split <;> rfl
  · rfl

namespace Literal

variable {l : Literal} {o : Options} {target : Option Target} {x : Typed} {v : Value} {t : SqlType}

theorem typed_eq_map (hnull : l ≠ .null) (hdefault : l ≠ .default) (o : Options) (target : Option Target) :
    l.typed o target = (l.constant o).map fun p => .placed o target p.1 p.2 := by
  unfold typed
  split
  · exact absurd rfl hnull
  · exact absurd rfl hdefault
  · cases l.constant o with
    | error d => rfl
    | ok p =>
      obtain ⟨v, t⟩ := p
      cases target with
      | none => rfl
      | some target =>
        simp only [bind, Except.bind, Except.map, Typed.placed]
        split <;> rfl

theorem constant_of_typed (hdefault : ∀ t ∈ target, t.default = none) (h : l.typed o target = .ok x)
    (hx : x.expr.constant? = some (v, t)) : l.constant o = .ok (v, t) ∨ l = .null ∧ v = .null := by
  by_cases hl : l = .null ∨ l = .default
  · obtain rfl | rfl := hl
    · cases target with
      | none =>
        simp only [typed, constant, Except.map] at h
        split at h <;> cases h
        cases hx
        exact .inr ⟨rfl, rfl⟩
      | some target =>
        cases h
        cases hx
        exact .inr ⟨rfl, rfl⟩
    · cases target with
      | none => cases h
      | some target =>
        obtain ⟨type, default⟩ := target
        obtain rfl : default = none := hdefault _ rfl
        cases h
  · rw [not_or] at hl
    rw [typed_eq_map hl.1 hl.2] at h
    cases hc : l.constant o with
    | error d =>
      rw [hc] at h
      cases h
    | ok p =>
      rw [hc] at h
      cases h
      rw [Typed.constant?_placed] at hx
      cases hx
      exact .inl rfl

end Literal

namespace Form

theorem constant_of_hostParameter {name : String} {span : Span} {x : Typed} {n m : Nat} {v : Value} {t : SqlType}
    (h : hostParameter name span env n = (.ok x, m)) (hx : x.expr.constant? = some (v, t)) :
    env.hostParameter? (parameterKey name) = none ∧ env.placeholder? (parameterKey name) = some (v, t) := by
  obtain ⟨decl, rfl, -, -⟩ | ⟨v, t, rfl, -, hdecl, hplaceholder⟩ := hostParameter_ok h
  · cases hx
  · cases hx
    exact ⟨hdecl, hplaceholder⟩

end Form

namespace Expr

/-- The expression is a constant under any number of casts. A NULL has the type that its position gives it. -/
inductive Constant (env : Environment) : Expr Q → Value → SqlType → Prop where
  | literal {l : Literal} {v : Value} {t : SqlType} :
      l.constant env.options = .ok (v, t) → Constant env (.literal l) v t
  | null (t : SqlType) : Constant env (.literal .null) .null t
  | negated {l l' : Literal} {v : Value} {t : SqlType} : l.negated? = some l' →
      l'.constant env.options = .ok (v, t) → Constant env (.unary .minus (.literal l)) v t
  | placeholder {name : String} {span : Span} {v : Value} {t : SqlType} :
      env.hostParameter? (Form.parameterKey name) = none →
      env.placeholder? (Form.parameterKey name) = some (v, t) → Constant env (.hostParameter name span) v t
  | cast {e : Expr Q} {v : Value} {t : SqlType} (target : DataType) :
      Constant env e v t → Constant env (.cast e target) v t

theorem Constant.unique {e : Expr Q} {v w : Value} {t u : SqlType} (h : e.Constant env v t)
    (h' : e.Constant env w u) : v = w := by
  induction h with
  | literal h =>
    cases h' with
    | literal h' =>
      cases h.symm.trans h'
      rfl
    | null => cases h
  | null =>
    cases h' with
    | literal h' => cases h'
    | null => rfl
  | negated hl h =>
    cases h' with
    | negated hl' h' =>
      cases hl.symm.trans hl'
      cases h.symm.trans h'
      rfl
  | placeholder _ h =>
    cases h' with
    | placeholder _ h' =>
      cases h.symm.trans h'
      rfl
  | cast target _ ih =>
    cases h' with
    | cast _ h' => exact ih h'

def hasConstantForm : Expr Q → Bool
  | .literal _ => true
  | .unary .minus (.literal l) => l.negated?.isSome
  | .hostParameter _ _ => true
  | .cast _ _ => true
  | _ => false

theorem exists_negated {op : UnaryOp} {e : Expr Q} (h : (unary op e).hasConstantForm = true) :
    ∃ l l', op = .minus ∧ e = .literal l ∧ l.negated? = some l' := by
  unfold hasConstantForm at h
  split at h
  · next heq => cases heq
  · next l heq =>
    cases heq
    obtain ⟨l', hl⟩ := Option.isSome_iff_exists.mp h
    exact ⟨l, l', rfl, rfl, hl⟩
  · next heq => cases heq
  · next heq => cases heq
  · cases h

theorem constant?_truth {s : Scalar} (hs : s.constant? = none) (negated aggregated : Bool) :
    (Typed.truth s negated aggregated).expr.constant? = none := by
  cases negated with
  | false => exact hs
  | true => rfl

theorem hasConstantForm_of_elaborates {p : Position} {es : List (Expr Q)} {xs : List Typed} {n m : Nat}
    (h : Elaborates env scopes p es n xs m) :
    ∀ p ∈ es.zip xs, p.2.expr.constant?.isSome → p.1.hasConstantForm = true := by
  induction h with
  | nil => simp
  | @cons e es x xs n m k _ _ _ ihe ihes =>
    intro p hp
    rw [List.zip_cons_cons, List.mem_cons] at hp
    rcases hp with rfl | hp
    · exact ihe _ List.mem_cons_self
    · exact ihes p hp
  | literal | hostParameter | cast =>
    intro p hp _
    cases List.mem_singleton.mp hp
    rfl
  | negated _ hl =>
    intro p hp _
    cases List.mem_singleton.mp hp
    rw [hasConstantForm, hl]
    rfl
  | test | isTest | between | betweenSymmetric | inList | pattern | patternEscape =>
    intro p hp hsome
    cases List.mem_singleton.mp hp
    rw [constant?_truth rfl] at hsome
    cases hsome
  | _ =>
    intro p hp hsome
    cases List.mem_singleton.mp hp
    cases hsome

/-- What is found under the casts of a resolved expression is the constant that the expression is written with. -/
theorem constant_of_resolve {v : Value} {t : SqlType} : ∀ (e : Expr Q) {target : Option Target} {n m : Nat} {x : Typed},
    (∀ t ∈ target, t.default = none) → e.resolve scopes target env n = (.ok x, m) →
      x.expr.constant? = some (v, t) → e.Constant env v t
  | .literal l, _, _, _, _, hdefault, h, hx => by
    obtain ⟨htyped, -⟩ := Literal.resolve_ok.mp h
    obtain hl | ⟨rfl, rfl⟩ := Literal.constant_of_typed hdefault htyped hx
    · exact .literal hl
    · exact .null t
  | .hostParameter _ _, _, _, _, _, _, h, hx => by
    obtain ⟨hdecl, hplaceholder⟩ := Form.constant_of_hostParameter h hx
    exact .placeholder hdecl hplaceholder
  | .cast e dataType, _, n, _, x, _, h, hx => by
    simp only [resolve, Form.cast, Step.bind_ok, Step.pure_ok] at h
    obtain ⟨type, k, -, y, m, hy, rfl, -⟩ := h
    have hconstant : y.expr.constant? = some (v, t) := hx
    refine .cast dataType ?_
    cases hnull : e.isNull with
    | true =>
      rw [hnull] at hy
      have hliteral : (Literal.null.resolve (some { type }) : Analysis Typed) env k = (.ok y, m) := hy
      obtain ⟨htyped, -⟩ := Literal.resolve_ok.mp hliteral
      obtain rfl := eq_null hnull
      cases htyped
      cases hconstant
      exact .null type
    | false =>
      rw [hnull] at hy
      exact constant_of_resolve e (by simp) hy hconstant
  | .unary op e, target, n, m, x, _, h, hx => by
    have hform : (unary op e).hasConstantForm = true :=
      hasConstantForm_of_elaborates (sound env scopes _ target n x m h) _ List.mem_cons_self (by rw [hx]; rfl)
    obtain ⟨l, l', rfl, rfl, hl⟩ := exists_negated hform
    simp only [resolve, hl] at h
    obtain ⟨htyped, -⟩ := Literal.resolve_ok.mp h
    obtain hconstant | ⟨rfl, -⟩ := Literal.constant_of_typed (by simp) htyped hx
    · exact .negated hl hconstant
    · cases l <;> cases hl
  | .reference _, target, n, m, x, _, h, hx
  | .binary _ _ _, target, n, m, x, _, h, hx
  | .comparison _ _ _, target, n, m, x, _, h, hx
  | .between _ _ _ _ _, target, n, m, x, _, h, hx
  | .inList _ _ _, target, n, m, x, _, h, hx
  | .inQuery _ _ _, target, n, m, x, _, h, hx
  | .pattern _ _ _ _ _, target, n, m, x, _, h, hx
  | .case _ _ _, target, n, m, x, _, h, hx
  | .nullif _ _, target, n, m, x, _, h, hx
  | .call _ _ _, target, n, m, x, _, h, hx
  | .subquery _, target, n, m, x, _, h, hx => by
    cases hasConstantForm_of_elaborates (sound env scopes _ target n x m h) _ List.mem_cons_self (by rw [hx]; rfl)

end Expr

end SqlPlan
