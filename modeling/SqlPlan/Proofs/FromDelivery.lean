import SqlPlan.Proofs.Delivery
import SqlPlan.Proofs.SharedColumns

namespace SqlPlan

variable {s right' : Source} {name function : Name} {correlation : Option Correlation} {p : Planned} {σ : Type}
  {s' : σ} {relations : List RelationInfo} {Γ : Columns} {kind : JoinKind} {meet : Meet} {decl : FunctionDecl}
  {fields : List (String × SqlType)}

open List (Forall₂)

variable {env : Environment} {d d₁ d₂ d₃ : Draft}

namespace Source

theorem singleRow_delivers (h : singleRow env d = (.ok s, d₁)) : Delivers d s d₁ := by
  simp only [singleRow, Step.bind_ok, Planning.add_ok, Step.pure_ok] at h
  obtain ⟨_, _, ⟨rfl, hk, hg⟩, rfl, rfl⟩ := h
  refine ⟨[], ?_, .nil _⟩
  exact Builds.source (Nat.le_of_eq hk.symm) hg rfl (by simp [Columns.Within])
    (by simp [Operator.subqueries])

theorem scanColumn_ok {ref : ColumnRef} {n m : Nat} {c : (Variable × Variable) × ColumnInfo}
    (h : scanColumn ref env n = (.ok c, m)) :
    (∃ label, c.2.carrier = ⟨n + 1, .stream label⟩) ∧ n + 1 ≤ m ∧
      c.1.1.columnRef? = some ref ∧ c.1.2 = c.2.carrier ∧ c.2.type = ref.column.type := by
  simp only [scanColumn, Step.bind_ok, Analysis.stream_ok, Analysis.mint_ok, Step.pure_ok] at h
  obtain ⟨_, _, ⟨rfl, rfl⟩, _, _, ⟨rfl, rfl⟩, rfl, rfl⟩ := h
  exact ⟨⟨_, rfl⟩, Nat.le_succ _, rfl, rfl, rfl⟩

theorem copyColumn_ok {column : ColumnInfo} {n m : Nat} {c : (Variable × Variable) × ColumnInfo}
    (h : copyColumn column env n = (.ok c, m)) :
    (∃ label, c.2.carrier = ⟨n + 1, .stream label⟩) ∧ n + 1 ≤ m ∧
      c.1 = (column.carrier, c.2.carrier) ∧ c.2.type = column.type := by
  simp only [copyColumn, Step.bind_ok, Analysis.stream_ok, Step.pure_ok] at h
  obtain ⟨_, _, ⟨rfl, rfl⟩, rfl, rfl⟩ := h
  exact ⟨⟨_, rfl⟩, Nat.le_refl _, rfl, rfl⟩

theorem scan_delivers (h : scan name correlation env d = (.ok p, d₁)) : Delivers d ⟨p.output, [p.relation]⟩ d₁ := by
  simp only [scan, Step.bind_ok, Planning.lift_ok, Planning.add_ok, Step.pure_ok, Prod.exists] at h
  obtain ⟨schema, table, _, htable, columns, dm, ⟨hcolumns, hgm⟩, _, da, ⟨rfl, hma, hga⟩, info, _, hinfo,
    rfl, rfl⟩ := h
  obtain ⟨rfl, -⟩ := (Name.resolveTable_reads name).ok_iff htable
  obtain ⟨hbindings, rfl⟩ := RelationInfo.correlate_ok hinfo
  obtain ⟨hle, hfresh, hall⟩ := each_minted (fun c => c.2.carrier) (fun _ _ _ _ => scanColumn_ok) hcolumns
  have hb : bindings [info] = columns.map fun c => (c.2.carrier, c.2.type) := by
    rw [bindings_singleton, hbindings, RelationInfo.bindings, List.map_map]
    rfl
  have hc : ∀ relation, Operator.columns .both (.scan relation (columns.map (·.1))) [] =
      some (bindings [info]) := by
    intro relation
    rw [hb]
    refine mapM_map_eq_some fun c hc => ?_
    obtain ⟨ref, -, hsource, hdestination, htype⟩ := exists_of_forall₂ hall c hc
    change (c.1.1.columnRef?.map fun ref => (c.1.2, ref.column.type)) = _
    rw [hsource, hdestination, htype]
    rfl
  refine minted_delivers ?_ hle hma (by rw [hga, hgm]) (by rw [← hgm]) (hc _)
    (by simp [Operator.subqueries])
  rwa [hb, Columns.carriers, List.map_map]

theorem instantiate_delivers {name : String} {query : NamedQuery} (hquery : query.Sound)
    (h : instantiate name query correlation env d = (.ok p, d₁)) : Delivers d ⟨p.output, [p.relation]⟩ d₁ := by
  simp only [instantiate, Step.bind_ok, Planning.lift_ok, Planning.add_ok, Step.pure_ok] at h
  obtain ⟨columns, dm, ⟨hcolumns, hgm⟩, _, da, ⟨rfl, hma, hga⟩, info, _, hinfo, rfl, rfl⟩ := h
  obtain ⟨hbindings, rfl⟩ := RelationInfo.correlate_ok hinfo
  obtain ⟨hle, hfresh, hall⟩ := each_minted (fun c => c.2.carrier) (fun _ _ _ _ => copyColumn_ok) hcolumns
  obtain ⟨Γ, hΓ, hcarries⟩ := hquery.carries
  have hb : bindings [info] = columns.map fun c => (c.2.carrier, c.2.type) := by
    rw [bindings_singleton, hbindings, RelationInfo.bindings, List.map_map]
    rfl
  have hc : Operator.columns .both (.subquery query.graph query.output (columns.map (·.1))) [] =
      some (bindings [info]) := by
    rw [hb, Operator.columns]
    have hΓ' : (query.graph.columns .both)[query.output.node]?.join = some Γ := hΓ
    simp only [hΓ', Option.bind_eq_bind, Option.bind_some]
    refine mapM_map_eq_some fun c hc => ?_
    obtain ⟨column, hmem, hpair, htype⟩ := exists_of_forall₂ hall c hc
    have htyped := hcarries.typed (column.carrier, column.type) (List.mem_map.mpr ⟨column, hmem, rfl⟩)
    rw [hpair, htype]
    simp [htyped.2]
  refine minted_delivers ?_ hle hma (by rw [hga, hgm]) (by rw [← hgm]) hc ?_
  · rwa [hb, Columns.carriers, List.map_map]
  · exact List.forall_mem_cons.mpr ⟨hquery.endsIn, hquery.subqueries⟩

theorem named_cases {outer : Scopes} (h : named outer name correlation env d = (.ok p, d₁)) :
    ((∀ identifier, name.segments = [identifier] → outer.named? (env.options.key identifier) = none) ∧
      scan name correlation env d = (.ok p, d₁)) ∨
    ∃ identifier query, name.segments = [identifier] ∧ outer.named? (env.options.key identifier) = some query ∧
      instantiate (env.options.key identifier) query correlation env d = (.ok p, d₁) := by
  simp only [named, Step.bind_ok, Step.options_ok] at h
  obtain ⟨_, _, ⟨rfl, rfl⟩, h⟩ := h
  rcases hsegments : name.segments with _ | ⟨identifier, _ | ⟨_, _⟩⟩
  · rw [hsegments] at h
    exact .inl ⟨by simp, h⟩
  · rcases hq : outer.named? (env.options.key identifier) with _ | query
    · simp only [hsegments, hq] at h
      exact .inl ⟨by simp [hq], h⟩
    · simp only [hsegments, hq] at h
      exact .inr ⟨identifier, query, rfl, hq, h⟩
  · rw [hsegments] at h
    exact .inl ⟨by simp, h⟩

theorem named_delivers {outer : Scopes} (houter : outer.Sound)
    (h : named outer name correlation env d = (.ok p, d₁)) : Delivers d ⟨p.output, [p.relation]⟩ d₁ := by
  rcases named_cases h with ⟨-, h⟩ | ⟨_, query, -, hq, h⟩
  · exact scan_delivers h
  · exact instantiate_delivers (houter.named hq) h

theorem derived_delivers {query : Planned} (hquery : Delivers d ⟨query.output, [query.relation]⟩ d₁)
    (h : derived query correlation env d₁ = (.ok s, d₂)) : Delivers d s d₂ := by
  simp only [derived, Step.bind_ok, Step.pure_ok] at h
  obtain ⟨info, _, hinfo, rfl, rfl⟩ := h
  obtain ⟨hbindings, rfl⟩ := RelationInfo.correlate_ok hinfo
  obtain ⟨Γ, hbuilds, hcarries⟩ := hquery
  refine ⟨Γ, hbuilds, ?_⟩
  have hb : bindings [{ info with table := none, index := none }] = bindings [query.relation] := by
    rw [bindings_singleton, bindings_singleton, ← hbindings]
    rfl
  rwa [hb]

end Source

namespace Join

variable {Q : Type} {outer : Scopes} {left right : Source} {n m : Nat}

def Typed (relations : List RelationInfo) (c : Scalar) : Prop :=
  ∀ Γ : Columns, Γ.Carries (bindings relations) → ∃ t, c.typeIn Γ.type? [] = some t

theorem predicate_ok (houter : outer.Sound) {e : Expr Q} {c : Scalar}
    (h : predicate (scope left right :: outer) e env n = (.ok c, m)) :
    n ≤ m ∧ Typed (left.relations ++ right.relations) c := by
  simp only [predicate, Step.bind_ok, Step.ite_ok, Step.fail_ok, Step.pure_ok, and_false, false_or] at h
  obtain ⟨x, _, hx, _, _, rfl, rfl⟩ := h
  refine ⟨(Expr.sound env _ e none n x _ hx).minted_le, fun Γ hΓ => ⟨x.type, ?_⟩⟩
  have hhas : Γ.type?.Has (Scopes.visible (scope left right :: outer)) := by
    rw [scope, houter.visible]
    exact hΓ.has
  exact (Expr.resolve_hasType hhas hx).2 []

theorem typeIn_carrier (hΓ : Γ.Carries (bindings relations)) {c : ColumnInfo}
    (hc : c ∈ relations.flatMap (·.columns)) : (Scalar.var c.carrier).typeIn Γ.type? [] = some c.type := by
  obtain ⟨hs, ht⟩ := hΓ.has c hc
  exact (Variable.typeIn_stream hs _ _).trans ht

theorem Equates.typeIn {o : Options} {i : Identifier} {e : Scalar} (h : Equates o left.relations right.relations i e)
    (hΓ : Γ.Carries (bindings (left.relations ++ right.relations))) : e.typeIn Γ.type? [] = some .boolean := by
  obtain ⟨l, hl, r, hr, rfl⟩ := h.operands
  have htl : (Scalar.var l.carrier).typeIn Γ.type? [] = some l.type :=
    typeIn_carrier hΓ (by rw [List.flatMap_append]; exact List.mem_append_left _ hl)
  have htr : (Scalar.var r.carrier).typeIn Γ.type? [] = some r.type :=
    typeIn_carrier hΓ (by rw [List.flatMap_append]; exact List.mem_append_right _ hr)
  rw [Scalar.typeIn, htl, htr]
  rfl

theorem typeIn_conjunctions {Γ : ColumnTypes} {first : Scalar} {rest : List Scalar}
    (h : ∀ e ∈ first :: rest, e.typeIn Γ [] = some .boolean) :
    (rest.foldl Scalar.conjunction first).typeIn Γ [] = some .boolean := by
  induction rest generalizing first with
  | nil => exact h first (List.mem_singleton_self first)
  | cons s rest ih =>
    obtain ⟨hfirst, h⟩ := List.forall_mem_cons.mp h
    obtain ⟨hs, hrest⟩ := List.forall_mem_cons.mp h
    refine ih (List.forall_mem_cons.mpr ⟨?_, hrest⟩)
    simp [Scalar.conjunction, Scalar.typeIn, hfirst, hs, BinaryOperator.type]

variable {c : Option Scalar} {on? : Option (JoinCondition (Expr Q))}

theorem condition_cases {scopes : Scopes} (h : condition scopes kind left right on? env n = (.ok (c, right'), m)) :
    (c = none ∧ right' = right ∧ m = n) ∨
      (∃ (e : Expr Q) (s : Scalar), predicate scopes e env n = (.ok s, m) ∧ c = some s ∧
        right' = right) ∨
      ∃ columns s relations, shared columns left.relations right.relations env n = (.ok (s, relations), m) ∧
        c = some s ∧ right' = { right with relations } := by
  unfold condition at h
  cases on? with
  | none =>
    cases kind with
    | cross =>
      simp only [Step.pure_ok, Prod.mk.injEq] at h
      obtain ⟨⟨rfl, rfl⟩, rfl⟩ := h
      exact .inl ⟨rfl, rfl, rfl⟩
    | _ => simp at h
  | some on =>
    cases on with
    | predicate e =>
      have hpredicate : (do
          let c ← predicate scopes e
          return (some c, right) : Analysis _) env n = (.ok (c, right'), m) := by
        cases kind with
        | cross => simp at h
        | _ => exact h
      simp only [Step.bind_ok, Step.pure_ok, Prod.mk.injEq] at hpredicate
      obtain ⟨s, _, hs, ⟨rfl, rfl⟩, rfl⟩ := hpredicate
      exact .inr (.inl ⟨e, s, hs, rfl, rfl⟩)
    | sharedColumns columns =>
      have hshared : (do
          let p ← shared columns left.relations right.relations
          return (some p.1, { right with relations := p.2 }) : Analysis _) env n = (.ok (c, right'), m) := by
        cases kind with
        | cross => simp at h
        | _ => exact h
      simp only [Step.bind_ok, Prod.exists, Step.pure_ok, Prod.mk.injEq] at hshared
      obtain ⟨s, relations, _, hs, ⟨rfl, rfl⟩, rfl⟩ := hshared
      exact .inr (.inr ⟨columns, s, relations, hs, rfl, rfl⟩)

theorem condition_ok (houter : outer.Sound)
    (h : condition (scope left right :: outer) kind left right on? env n = (.ok (c, right'), m)) :
    n ≤ m ∧ (∀ s ∈ c, Typed (left.relations ++ right.relations) s) ∧ right'.output = right.output ∧
      bindings right'.relations = bindings right.relations := by
  rcases condition_cases h with ⟨rfl, rfl, rfl⟩ | ⟨e, s, hs, rfl, rfl⟩ | ⟨columns, s, relations, hs, rfl, rfl⟩
  · exact ⟨Nat.le_refl _, by simp, rfl, rfl⟩
  · obtain ⟨hle, htyped⟩ := predicate_ok houter hs
    exact ⟨hle, by simpa using htyped, rfl, rfl⟩
  · obtain ⟨first, rest, rfl, hequates, rfl, rfl⟩ := shared_ok hs
    refine ⟨Nat.le_refl _, fun s hs => ?_, rfl, flatMap_conceal (fun _ _ => rfl) _ _⟩
    cases hs
    refine fun Γ hΓ => ⟨.boolean, typeIn_conjunctions fun e he => ?_⟩
    obtain ⟨i, -, he⟩ := exists_of_forall₂ hequates e he
    exact he.typeIn hΓ

theorem columns_join {Γ' : Columns} (h : ∀ s ∈ c, ∃ t, s.typeIn (Columns.type? (Γ ++ Γ')) [] = some t) :
    Operator.columns meet (.join kind c) [Γ, Γ'] = some (Γ ++ Γ') := by
  cases c with
  | none => rfl
  | some s =>
    obtain ⟨t, ht⟩ := h s rfl
    simp [Operator.columns, ht]

theorem plan_delivers (houter : outer.Sound) {swapped : Bool} (hl : Delivers d left d₁) (hr : Delivers d₁ right d₂)
    (h : plan outer kind swapped left right on? env d₂ = (.ok s, d₃)) : Delivers d s d₃ := by
  obtain ⟨c, right', hcond, rfl, hg⟩ := plan_ok h
  obtain ⟨hle, htyped, hout, hb⟩ := condition_ok houter hcond
  obtain ⟨Γ, hbl, hcl⟩ := hl
  obtain ⟨Γ', hbr, hcr⟩ := hr
  have hwl := hbl.within _ (List.mem_singleton_self _)
  have hwr := hbr.within _ (List.mem_singleton_self _)
  have hbuilds : Builds d [(left.output, Γ), (right.output, Γ')] d₂ := hbl.trans hbr
  have hwl' := hwl.mono (Nat.le_refl _) (Nat.le_trans hbr.minted_le hle)
  have hwr' := hwr.mono hbl.minted_le hle
  obtain ⟨hforth, hback⟩ := hcl.join hcr hwl hwr
  cases swapped with
  | false =>
    refine ⟨Γ ++ Γ', ?_, by rwa [bindings_append, hb]⟩
    rw [hout] at hg
    refine hbuilds.binary hle hg ?_ (hwl'.append hwr') (by simp [Operator.subqueries])
    exact columns_join fun s hs => htyped s hs _ (by rwa [bindings_append])
  | true =>
    refine ⟨Γ' ++ Γ, ?_, by rwa [bindings_append, hb]⟩
    rw [hout] at hg
    refine hbuilds.swap.binary hle hg ?_ (hwr'.append hwl') (by simp [Operator.subqueries])
    exact columns_join fun s hs => htyped s hs _ (by rwa [bindings_append])

end Join

namespace Apply

variable {Q : Type} {outer : Scopes} {n m : Nat}

theorem candidates_ok {arity : Nat} {r : String × List FunctionDecl}
    (h : candidates function arity env d = (.ok r, d')) : d' = d := by
  simp only [candidates, Step.bind_ok, Step.ite_ok, Step.fail_ok, Step.pure_ok, Prod.exists, and_false, false_or] at h
  obtain ⟨_, _, _, hfunctions, -, -, rfl⟩ := h
  exact ((Name.resolveFunctions_reads function _).ok_iff hfunctions).1

theorem argument_ok {Γ : ColumnTypes} {scopes : Scopes} (hΓ : Γ.Has scopes.visible)
    {candidates : List FunctionDecl} {position : Nat} {e : Expr Q} {x : Typed}
    (h : argument scopes candidates position e env n = (.ok x, m)) :
    n ≤ m ∧ x.expr.HasType Γ x.type := by
  simp only [argument, Step.bind_ok, Step.ite_ok, Step.fail_ok, Step.pure_ok, and_false, false_or] at h
  obtain ⟨_, _, hx, _, rfl, rfl⟩ := h
  exact Expr.resolve_hasType hΓ hx

theorem resultColumns_ok (h : resultColumns function decl env n = (.ok fields, m)) :
    m = n ∧ ∀ i, decl.fieldType? i = fields[i]?.map (·.2) := by
  cases hresult : decl.result with
  | table row =>
    simp only [resultColumns, hresult, Step.ite_ok, Step.fail_ok, Step.pure_ok, and_false, false_or] at h
    obtain ⟨_, rfl, rfl⟩ := h
    exact ⟨rfl, fun i => by simp [FunctionDecl.fieldType?, hresult]⟩
  | _ => simp [resultColumns, hresult] at h

theorem resultColumn_ok {field : String × SqlType} {c : ColumnInfo}
    (h : resultColumn field env n = (.ok c, m)) :
    (∃ label, c.carrier = ⟨n + 1, .stream label⟩) ∧ n + 1 ≤ m ∧ c.type = field.2 := by
  simp only [resultColumn, Step.bind_ok, Analysis.stream_ok, Step.pure_ok] at h
  obtain ⟨_, _, ⟨rfl, rfl⟩, rfl, rfl⟩ := h
  exact ⟨⟨_, rfl⟩, Nat.le_refl _, rfl⟩

theorem columns_apply {kind : ApplyKind} {arguments : List Scalar} {ts : List SqlType}
    (hargs : Scalar.listTypes Γ.type? [] arguments = some ts)
    (hfields : ∀ i, decl.fieldType? i = fields[i]?.map (·.2)) {columns : List ColumnInfo}
    (hcolumns : Forall₂ (fun field c => c.type = field.2) fields columns) :
    Operator.columns meet (.apply kind decl arguments (columns.zipIdx.map fun (c, i) => (i, c.carrier))) [Γ] =
      some (Γ ++ columns.map fun c => (c.carrier, c.type)) := by
  have hplaced : (columns.zipIdx.map fun (c, i) => (i, c.carrier)).mapM
      (fun p => (decl.fieldType? p.1).map (p.2, ·)) = some (columns.map fun c => (c.carrier, c.type)) := by
    have hzip : columns.map (fun c => (c.carrier, c.type)) =
        columns.zipIdx.map fun p => (p.1.carrier, p.1.type) := by
      have h := congrArg (List.map fun c => (c.carrier, c.type)) (List.zipIdx_map_fst 0 columns)
      rw [List.map_map] at h
      exact h.symm
    rw [hzip]
    refine mapM_map_eq_some fun p hp => ?_
    have hc : columns[p.2]? = some p.1 := List.mem_zipIdx_iff_getElem?.mp hp
    obtain ⟨field, hfield, htype⟩ := getElem?_of_forall₂ hcolumns hc
    simp [hfields, hfield, htype]
  simp only [Operator.columns, hargs, Option.bind_eq_bind, Option.bind_some]
  exact Option.bind_eq_some_iff.mpr ⟨_, hplaced, rfl⟩

theorem plan_delivers (houter : outer.Sound) {kind : ApplyKind} {operand : Source} {arguments : List (Expr Q)}
    (ho : Delivers d operand d₁) (h : plan outer kind operand function arguments correlation env d₁ = (.ok s, d₂)) :
    Delivers d s d₂ := by
  simp only [plan, add, Step.bind_ok, Planning.lift_ok, Planning.add_ok, Step.pure_ok, Prod.exists] at h
  obtain ⟨key, candidates, dk, hcandidates, xs, dx, ⟨hxs, hgx⟩, decl, _, hdecl, fields, df, ⟨hfields, hgf⟩,
    columns, dc, ⟨hcolumns, hgc⟩, _, da, ⟨rfl, hma, hga⟩, info, _, hinfo, rfl, rfl⟩ := h
  obtain rfl := candidates_ok hcandidates
  obtain ⟨-, rfl⟩ := Overload.mem_of_select hdecl
  obtain ⟨hbindings, rfl⟩ := RelationInfo.correlate_ok hinfo
  obtain ⟨hmf, hfields⟩ := resultColumns_ok hfields
  obtain ⟨hlec, hfresh, hall⟩ := each_minted (·.carrier) (fun _ _ _ _ => resultColumn_ok) hcolumns
  obtain ⟨Γ, hbo, hco⟩ := ho
  have hhas : Γ.type?.Has (Scopes.visible ({ relations := operand.relations } :: outer)) := by
    rw [houter.visible]
    exact hco.has
  obtain ⟨hlex, hargs⟩ := collect_map_ok (fun _ _ _ _ _ => argument_ok hhas) hxs
  have htypes : ∀ x ∈ xs, x.expr.HasType Γ.type? x.type := fun x hx =>
    (exists_of_forall₂ hargs x hx).elim fun _ h => h.2
  have hb : info.bindings = columns.map fun c => (c.carrier, c.type) := hbindings
  have hwo := hbo.within _ (List.mem_singleton_self _)
  have hfresh' : Fresh dk.minted (Columns.carriers info.bindings) dc.minted := by
    rw [hb, Columns.carriers, List.map_map]
    exact hfresh.mono (by omega) (Nat.le_refl _)
  have hbuilds : Builds d [(operand.output, Γ)] dc := hbo.mint (by omega) (by rw [hgc, hgf, hgx])
  refine ⟨Γ ++ info.bindings, ?_, ?_⟩
  · refine hbuilds.unary (Nat.le_of_eq hma.symm) hga ?_ ?_ (by simp [Operator.subqueries])
    · rw [hb]
      exact columns_apply (Scalar.listTypes_map fun x hx => htypes x hx []) hfields hall
    · rw [hma]
      have hw := Columns.within_of_fresh hfresh'
      exact (hwo.mono (Nat.le_refl _) (by omega)).append (hw.mono hbo.minted_le (Nat.le_refl _))
  · rw [bindings_append, bindings_singleton]
    exact (hco.join (Columns.carries_self hfresh') hwo (Columns.within_of_fresh hfresh')).1

end Apply

end SqlPlan
