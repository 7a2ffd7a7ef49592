import SqlPlan.Proofs.CallArguments

namespace SqlPlan

variable {α β : Type} {as : List α} {bs : List β} {cl : Clauses} {p : SortRequest × Bool}
  {columns : List SelectColumn} {scopes : Scopes} {xs : List Typed}

open List (Forall₂)

variable {Q : Type} {env : Environment} {n m : Nat} {position : Position}

namespace SelectClauses

def selected (c : SelectClauses (Expr Q)) : List (Expr Q) :=
  c.items.filterMap SelectItem.expr? ++ c.orderBy.map (·.key)

def grouped (c : SelectClauses (Expr Q)) : List (Expr Q) :=
  c.items.filterMap SelectItem.expr? ++ (c.having.toList ++ c.orderBy.map (·.key))

def isGrouped (env : Environment) (c : SelectClauses (Expr Q)) : Bool :=
  !c.groupBy.isEmpty || c.having.isSome || c.selected.any (Expr.callsAggregate env)

/-- Whether an aggregate call has an argument that is not just a variable. -/
def computesArgument (env : Environment) (c : SelectClauses (Expr Q)) : Bool :=
  c.grouped.any (Expr.someCall env fun es => es.any fun e => !e.isVariable env)

/-- Whether an aggregate call has an argument that is just a variable with one value for all rows. -/
def feedsConstant (env : Environment) (scopes : Scopes) (c : SelectClauses (Expr Q)) : Bool :=
  c.grouped.any (Expr.someCall env fun es => es.any (Expr.isConstant env scopes))

end SelectClauses

theorem any_eq_of_forall₂ {f : α → Bool} {g : β → Bool} (h : Forall₂ (fun a b => f a = g b) as bs) :
    as.any f = bs.any g := by
  induction h with
  | nil => rfl
  | cons hab _ ih => rw [List.any_cons, List.any_cons, hab, ih]

theorem isEmpty_eq_of_length_eq (h : as.length = bs.length) : as.isEmpty = bs.isEmpty := by
  rw [Bool.eq_iff_iff, List.isEmpty_iff_length_eq_zero, List.isEmpty_iff_length_eq_zero, h]

variable {c : SelectClauses (Expr Q)}

namespace Block

variable {b : Block}

/-- The resolved clauses, clause by clause. -/
theorem clauses_cases (h : b.clauses c env n = (.ok cl, m)) :
    ∃ (items : List (List SelectColumn × Bool)) (sorts : List (SortRequest × Bool)),
      Forall₂ (fun item p => ∃ n m, b.selectItem item env n = (.ok p, m)) c.items items ∧
      cl.columns = items.flatMap (·.1) ∧
      Forall₂ (fun e s => ∃ x n m, Elaborates env b.scopes (.target none) [e] n [x] m ∧ s.1 = x.expr) c.having.toList
        cl.having.toList ∧
      Forall₂ (fun item p => ∃ n m, b.sortRequest cl.columns item env n = (.ok p, m)) c.orderBy sorts ∧
      cl.sorts = sorts.map (·.1) ∧ cl.having.isSome = c.having.isSome ∧ cl.limit.isSome = c.limit.isSome ∧
      cl.active = (!c.groupBy.isEmpty || items.any (·.2) || c.having.isSome || sorts.any (·.2)) := by
  simp only [clauses, Step.bind_ok, Step.pure_ok] at h
  obtain ⟨keys, n₁, hkeys, items, n₂, hitems, having, n₃, hhaving, sorts, n₄, hsorts, limit, n₅, hlimit,
    rfl, rfl⟩ := h
  have hlength := (collect_forall₂ hkeys).length_eq
  have hempty := isEmpty_eq_of_length_eq hlength.symm
  have hpresent := optional_isSome hhaving
  refine ⟨items, sorts, collect_forall₂ hitems, rfl, ?_, collect_forall₂ hsorts, rfl, ?_, optional_isSome hlimit, ?_⟩
  · rcases optional_ok hhaving with ⟨hnone, rfl, -⟩ | ⟨e, x, hsome, rfl, hx⟩
    · rw [hnone]
      exact .nil
    · rw [hsome]
      exact .cons ⟨x, _, _, predicate_ok hx, rfl⟩ .nil
  · rw [Option.isSome_map, hpresent]
  · rw [← hempty, ← hpresent]

theorem any_expr? {f : Expr Q → Bool} (items : List (SelectItem (Expr Q))) :
    (items.filterMap SelectItem.expr?).any f = items.any fun item => item.expr?.any f := by
  rw [List.any_filterMap]
  rfl

section Any

variable {f : Expr Q → Bool} {g : Scalar → Bool}

theorem selectItem_any {item : SelectItem (Expr Q)} {p : List SelectColumn × Bool}
    (h : b.selectItem item env n = (.ok p, m)) (hvar : ∀ v, g (.var v) = false)
    (hfg : ∀ e x n m, Elaborates env b.scopes (.target none) [e] n [x] m → f e = g x.expr) :
    item.expr?.any f = p.1.any fun x => g x.value := by
  rcases selectItem_cases h with ⟨⟨name, rfl⟩, -, -, hpassed⟩ | ⟨e, label, x, column, rfl, hel, rfl, hvalue, -⟩
  · refine (List.any_eq_false.mpr fun y hy => ?_).symm
    obtain ⟨c, -, rfl⟩ := hpassed y hy
    simp [passed, hvar]
  · simp [SelectItem.expr?, hvalue, hfg e x n m hel]

variable {item : SortItem (Expr Q)}

theorem sortRequest_cases (h : b.sortRequest columns item env n = (.ok p, m)) :
    p.1.order = sortOrder item.direction ∧
      ((∃ i, i < columns.length ∧ p.1.target = .output i ∧ p.2 = false ∧
          ((∃ name, item.key = .reference name) ∨ ∃ l, item.key = .literal l)) ∨
        ∃ x, Elaborates env b.scopes (.target none) [item.key] n [x] m ∧ p.1.target = .expr x.expr ∧
          p.2 = x.aggregated) := by
  simp only [sortRequest, Step.bind_ok, Step.pure_ok, Prod.exists] at h
  obtain ⟨target, aggregated, k, htarget, rfl, rfl⟩ := h
  refine ⟨rfl, ?_⟩
  rcases sortTarget_cases htarget with ⟨i, hi, hp, -, hkey⟩ | ⟨x, hel, hp⟩
  · cases hp
    exact .inl ⟨i, hi, rfl, rfl, hkey⟩
  · cases hp
    exact .inr ⟨x, hel, rfl, rfl⟩

theorem sortRequest_any (h : b.sortRequest columns item env n = (.ok p, m))
    (hname : ∀ name, f (.reference name) = false) (hliteral : ∀ l, f (.literal l) = false)
    (hfg : ∀ e x n m, Elaborates env b.scopes (.target none) [e] n [x] m → f e = g x.expr) :
    f item.key = (SortTarget.exprs p.1.target).any g := by
  obtain ⟨-, ⟨i, -, htarget, -, ⟨name, hkey⟩ | ⟨l, hkey⟩⟩ | ⟨x, hel, htarget, -⟩⟩ := sortRequest_cases h
  · rw [htarget, hkey, hname]
    rfl
  · rw [htarget, hkey, hliteral]
    rfl
  · simp [htarget, SortTarget.exprs, hfg _ x n m hel]

/-- What holds of an expression as written if it holds of what the expression elaborates to holds of the
clauses as written if it holds of the resolved ones. It must not hold of a bare column, for which nothing may
be written. -/
theorem clauses_any (h : b.clauses c env n = (.ok cl, m)) (hname : ∀ name, f (.reference name) = false)
    (hliteral : ∀ l, f (.literal l) = false) (hvar : ∀ v, g (.var v) = false)
    (hfg : ∀ e x n m, Elaborates env b.scopes (.target none) [e] n [x] m → f e = g x.expr) :
    c.grouped.any f = cl.exprs.any g := by
  obtain ⟨items, sorts, hitems, hcolumns, hhaving, hsorts, hsorted, -, -, -⟩ := clauses_cases h
  have hselect : c.items.any (fun item => item.expr?.any f) = items.any fun p => p.1.any fun x => g x.value := by
    refine any_eq_of_forall₂ (hitems.imp fun item p hp => ?_)
    obtain ⟨n, m, hp⟩ := hp
    exact selectItem_any hp hvar hfg
  have hcondition : c.having.toList.any f = cl.having.toList.any fun x => g x.1 := by
    refine any_eq_of_forall₂ (hhaving.imp fun e s hs => ?_)
    obtain ⟨x, n, m, hel, hs⟩ := hs
    rw [hs]
    exact hfg e x n m hel
  have hsort : c.orderBy.any (fun item => f item.key) =
      sorts.any fun p => (SortTarget.exprs p.1.target).any g := by
    refine any_eq_of_forall₂ (hsorts.imp fun item p hp => ?_)
    obtain ⟨n, m, hp⟩ := hp
    exact sortRequest_any hp hname hliteral hfg
  rw [SelectClauses.grouped, Clauses.exprs, hcolumns, hsorted]
  simp only [List.any_append, any_expr?, hselect, hcondition, List.any_map, Function.comp_def, hsort,
    List.any_flatMap, List.any_cons, List.any_nil, Bool.or_false]

end Any

theorem clauses_active (h : b.clauses c env n = (.ok cl, m)) : cl.active = c.isGrouped env := by
  obtain ⟨items, sorts, hitems, -, -, hsorts, -, -, -, hactive⟩ := clauses_cases h
  have hselect : c.items.any (fun item => item.expr?.any (Expr.callsAggregate env)) = items.any (·.2) := by
    refine any_eq_of_forall₂ (hitems.imp fun item p hp => ?_)
    obtain ⟨n, m, hp⟩ := hp
    rcases selectItem_cases hp with ⟨⟨name, rfl⟩, hflag, -, -⟩ | ⟨e, label, x, column, rfl, hel, rfl, -⟩
    · rw [hflag]
      rfl
    · exact (List.cons.inj hel.aggregated_eq).1.symm
  have hsort : c.orderBy.any (fun item => item.key.callsAggregate env) = sorts.any (·.2) := by
    refine any_eq_of_forall₂ (hsorts.imp fun item p hp => ?_)
    obtain ⟨n, m, hp⟩ := hp
    obtain ⟨-, ⟨i, -, -, hflag, ⟨name, hkey⟩ | ⟨l, hkey⟩⟩ | ⟨x, hel, -, hflag⟩⟩ := sortRequest_cases hp
    · rw [hflag, hkey]
      rfl
    · rw [hflag, hkey]
      rfl
    · rw [hflag]
      exact (List.cons.inj hel.aggregated_eq).1.symm
  rw [hactive, SelectClauses.isGrouped, SelectClauses.selected, List.any_append, any_expr?, hselect, List.any_map,
    Function.comp_def, hsort]
  ac_rfl

end Block

/-- Whether an argument of a call has to be computed before it. -/
def Scalar.anyComputed (ss : List Scalar) : Bool := ss.any fun s => s.asVariable?.isNone

/-- Whether an argument of a call has one value for all rows. -/
def Scalar.anyConstant (ss : List Scalar) : Bool := ss.any isConstant

theorem Variable.isConstant_of_same {v w : Variable} (h : v.same w = true) : v.isConstant = w.isConstant := by
  obtain ⟨i, k⟩ := v
  obtain ⟨j, l⟩ := w
  cases k <;> cases l <;> first | rfl | simp [same, isMinted] at h

/-- Expressions that are the same are the same variable, or none of them is one. -/
theorem Scalar.asVariable?_of_same {s t : Scalar} (h : s.same t = true) :
    s.asVariable? = none ∧ t.asVariable? = none ∨
      ∃ v w, s.asVariable? = some v ∧ t.asVariable? = some w ∧ v.same w = true := by
  obtain ⟨⟨hhead, -⟩, -⟩ := same_iff.mp h
  cases s with
  | var v =>
    cases t with
    | var w => exact .inr ⟨v, w, rfl, rfl, by rwa [same] at h⟩
    | _ => cases hhead
  | _ =>
    cases t with
    | var w => cases hhead
    | _ => exact .inl ⟨rfl, rfl⟩

theorem Scalar.anyComputed_respects : Scalar.Respects Scalar.anyComputed := by
  intro ss ts h
  refine any_eq_of_forall₂ ((sameList_iff.mp h).imp fun s t hst => ?_)
  rcases asVariable?_of_same hst with ⟨hs, ht⟩ | ⟨v, w, hs, ht, -⟩
  · rw [hs, ht]
  · rw [hs, ht]
    rfl

theorem Scalar.anyConstant_respects : Scalar.Respects Scalar.anyConstant := by
  intro ss ts h
  refine any_eq_of_forall₂ ((sameList_iff.mp h).imp fun s t hst => ?_)
  rcases asVariable?_of_same hst with ⟨hs, ht⟩ | ⟨v, w, hs, ht, hsame⟩
  · rw [isConstant, isConstant, hs, ht]
  · rw [isConstant, isConstant, hs, ht]
    exact Variable.isConstant_of_same hsame

theorem Elaborates.anyComputed_eq {es : List (Expr Q)} (h : Elaborates env scopes position es n xs m) :
    Scalar.anyComputed (xs.map (·.expr)) = es.any fun e => !e.isVariable env := by
  have hany : es.any (fun e => !e.isVariable env) = (xs.map (·.expr.asVariable?)).any Option.isNone :=
    any_eq_of_forall₂ (h.standsFor.imp fun e o he => by cases he <;> simp_all [Expr.isVariable, Form.parameterKey])
  rw [hany, Scalar.anyComputed, List.any_map, List.any_map]
  rfl

theorem Elaborates.anyConstant_eq (hvisible : ∀ c ∈ scopes.visible, c.carrier.isConstant = false)
    {es : List (Expr Q)} (h : Elaborates env scopes position es n xs m) :
    Scalar.anyConstant (xs.map (·.expr)) = es.any (Expr.isConstant env scopes) := by
  have hany : es.any (Expr.isConstant env scopes) =
      (xs.map (·.expr.asVariable?)).any fun o => o.any Variable.isConstant := by
    refine any_eq_of_forall₂ (h.standsFor.imp fun e o he => ?_)
    cases he with
    | column hc hname => exact hname.trans (hvisible _ hc).symm
    | external hname hv => exact hname.trans hv.symm
    | host hdecl hv => exact hdecl.trans hv.symm
    | none he => cases e <;> first | exact he | cases he
  rw [hany, Scalar.anyConstant, List.any_map, List.any_map]
  rfl

namespace Block

variable {b : Block}

theorem clauses_computesArgument (h : b.clauses c env n = (.ok cl, m)) :
    c.computesArgument env = cl.exprs.any (Scalar.someCall Scalar.anyComputed) := by
  refine clauses_any h (fun _ => rfl) (fun _ => rfl) (fun v => ?_) fun e x n m hel => ?_
  · exact Scalar.someCall_of_not_hasAggregate rfl
  · exact (List.cons.inj (hel.someCall_eq fun _ _ _ _ _ hel => hel.anyComputed_eq)).1.symm

theorem target_mem_exprs {c : Clauses} {s : SortRequest} {e : Scalar} (hs : s ∈ c.sorts)
    (he : s.target = .expr e) : e ∈ c.exprs := by
  simp only [Clauses.exprs, List.mem_append, List.mem_flatMap]
  exact .inr (.inr ⟨s, hs, by simp [he, SortTarget.exprs]⟩)

theorem clauses_feedsConstant (hvisible : ∀ col ∈ b.scopes.visible, col.carrier.isConstant = false)
    (h : b.clauses c env n = (.ok cl, m)) :
    c.feedsConstant env b.scopes = cl.exprs.any (Scalar.someCall Scalar.anyConstant) := by
  refine clauses_any h (fun _ => rfl) (fun _ => rfl) (fun v => ?_) fun e x n m hel => ?_
  · exact Scalar.someCall_of_not_hasAggregate rfl
  · exact (List.cons.inj (hel.someCall_eq fun _ _ _ _ _ hel => hel.anyConstant_eq hvisible)).1.symm

end Block

end SqlPlan
