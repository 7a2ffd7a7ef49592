import SqlPlan.Proofs.ColumnLookup

namespace SqlPlan

/-- The column as it is seen after columns of the names have been shared. -/
def ColumnInfo.conceal (names : List String) (c : ColumnInfo) : ColumnInfo :=
  { c with exported := c.exported && !names.any c.isNamed }

def RelationInfo.conceal (names : List String) (r : RelationInfo) : RelationInfo :=
  { r with columns := r.columns.map (·.conceal names) }

theorem ColumnInfo.conceal_append_of_named {c : ColumnInfo} {name : String} (h : c.isNamed name = true)
    (names : List String) : c.conceal (names ++ [name]) = { c.conceal names with exported := false } := by
  simp [conceal, h]

theorem ColumnInfo.conceal_append_of_not {c : ColumnInfo} {name : String} (h : (c.exported && c.isNamed name) = false)
    (names : List String) : c.conceal (names ++ [name]) = c.conceal names := by
  rcases Bool.and_eq_false_iff.mp h with h | h <;> simp [conceal, h]

theorem Found.narrow_of_exported {cs : List ColumnInfo} {c : ColumnInfo} (h : cs.filter (·.exported) = [c]) :
    narrow cs = .one c := by
  rcases cs with _ | ⟨d, _ | ⟨e, cs⟩⟩
  · cases h
  · have hd : d = c := List.mem_singleton.mp (List.filter_sublist.subset (h ▸ List.mem_singleton_self c)) |>.symm
    rw [hd]
    rfl
  · rw [narrow_of_several (two_le_length d e cs), h]
    rfl

namespace Join

variable {σ : Type} {env : Environment} {s : σ} {left right relations : List RelationInfo} {name : String}
  {identifier : Identifier} {columns : List Identifier} {code : DiagnosticCode} {i j : Nat} {c : ColumnInfo}

def exported (relations : List RelationInfo) (name : String) : List ColumnInfo :=
  (relations.flatMap (·.columns)).filter fun c => c.exported && c.isNamed name

/-- What is wrong if an operand exports these columns under a name. -/
def countFault? : List ColumnInfo → Option DiagnosticCode
  | [] => some .columnNotFound
  | [_] => none
  | _ => some .columnAmbiguous

def typeFault? : List ColumnInfo → List ColumnInfo → Option DiagnosticCode
  | [l], [r] => if (l.type.unify r.type).isSome then none else some .inconsistentType
  | _, _ => none

/-- What keeps a name from being shared: the columns of the left operand, those of the right one or their types. -/
def sharingFault? (o : Options) (left right : List RelationInfo) (i : Identifier) : Option DiagnosticCode :=
  let ls := exported left (o.key i)
  let rs := exported right (o.key i)
  ((countFault? ls).or (countFault? rs)).or (typeFault? ls rs)

def firstFault? (o : Options) (left right : List RelationInfo) (columns : List Identifier) :
    Option (Identifier × DiagnosticCode) :=
  columns.findSome? fun i => (sharingFault? o left right i).map fun code => (i, code)

theorem map_exportedNamed (relations : List RelationInfo) (name : String) :
    (exportedNamed relations name).map (·.2.2) = exported relations name := by
  have hcolumns : ∀ (r : RelationInfo) (i : Nat),
      ((r.columns.zipIdx.filter fun p => p.1.exported && p.1.isNamed name).map fun p => (i, p.2, p.1)).map (·.2.2) =
        r.columns.filter fun c => c.exported && c.isNamed name := by
    intro r i
    rw [List.map_map]
    conv_rhs => rw [← List.zipIdx_map_fst 0 r.columns, List.filter_map]
    rfl
  rw [exportedNamed, exported, List.map_flatMap, List.filter_flatMap]
  conv_rhs => rw [← List.zipIdx_map_fst 0 relations, List.flatMap_map]
  exact List.flatMap_congr fun p _ => hcolumns p.1 p.2

theorem mem_exportedNamed : (i, j, c) ∈ exportedNamed relations name ↔
    ∃ r, relations[i]? = some r ∧ r.columns[j]? = some c ∧ (c.exported && c.isNamed name) = true := by
  simp only [exportedNamed, List.mem_flatMap, List.mem_map, List.mem_filter, Prod.exists, List.mem_zipIdx_iff_getElem?,
    Prod.mk.injEq]
  constructor
  · rintro ⟨r, _, hr, _, _, ⟨hc, hexported⟩, rfl, rfl, rfl⟩
    exact ⟨r, hr, hc, hexported⟩
  · rintro ⟨r, hr, hc, hexported⟩
    exact ⟨r, i, hr, c, j, ⟨hc, hexported⟩, rfl, rfl, rfl⟩

theorem exportedNamed_one (h : countFault? (exported relations name) = none) :
    ∃ i j c, exportedNamed relations name = [(i, j, c)] ∧ exported relations name = [c] := by
  rw [← map_exportedNamed] at h ⊢
  generalize exportedNamed relations name = found at h ⊢
  rcases found with _ | ⟨⟨i, j, c⟩, _ | ⟨_, _⟩⟩
  · cases h
  · exact ⟨i, j, c, rfl, rfl⟩
  · cases h

theorem sharedColumn_one (h : exportedNamed relations name = [(i, j, c)]) (location : Span) :
    (sharedColumn relations name location : Step σ _) env s = (.ok (i, j, c), s) := by
  rw [sharedColumn, h]
  rfl

theorem sharedColumn_fault (env : Environment) (s : σ) (h : countFault? (exported relations name) = some code)
    (location : Span) :
    ∃ message, (sharedColumn relations name location : Step σ _) env s =
      (.error ⟨⟨code, some location, message⟩, []⟩, s) := by
  rw [← map_exportedNamed] at h
  rw [sharedColumn]
  generalize exportedNamed relations name = found at h ⊢
  rcases found with _ | ⟨_, _ | ⟨_, _⟩⟩ <;> cases h <;> exact ⟨_, rfl⟩

/-- The equation that a join has for a shared name. -/
def Equates (o : Options) (left right : List RelationInfo) (i : Identifier) (e : Scalar) : Prop :=
  ∃ l r, exported left (o.key i) = [l] ∧ exported right (o.key i) = [r] ∧
    e = .compare .equal (.var l.carrier) (.var r.carrier)

theorem Equates.operands {o : Options} {e : Scalar} (h : Equates o left right identifier e) :
    ∃ l ∈ left.flatMap (·.columns), ∃ r ∈ right.flatMap (·.columns),
      e = .compare .equal (.var l.carrier) (.var r.carrier) := by
  obtain ⟨l, r, hl, hr, rfl⟩ := h
  exact ⟨l, List.mem_of_mem_filter (hl ▸ List.mem_singleton_self l), r,
    List.mem_of_mem_filter (hr ▸ List.mem_singleton_self r), rfl⟩

def Pairs (o : Options) (left right : List RelationInfo) (i : Identifier) (p : Scalar × Nat × Nat) : Prop :=
  Equates o left right i p.1 ∧ ∃ c, exportedNamed right (o.key i) = [(p.2.1, p.2.2, c)]

theorem sharedPair_cases (env : Environment) (left right : List RelationInfo) (identifier : Identifier) (s : σ) :
    (∃ code message, sharingFault? env.options left right identifier = some code ∧
      (sharedPair left right identifier : Step σ _) env s =
        (.error ⟨⟨code, some identifier.span, message⟩, []⟩, s)) ∨
    ∃ p, sharingFault? env.options left right identifier = none ∧ Pairs env.options left right identifier p ∧
      (sharedPair left right identifier : Step σ _) env s = (.ok p, s) := by
  simp only [sharingFault?]
  rw [sharedPair, Step.bind_eq_of_ok rfl]
  dsimp only
  cases hleft : countFault? (exported left (env.options.key identifier)) with
  | some code =>
    obtain ⟨message, h⟩ := sharedColumn_fault env s hleft identifier.span
    exact .inl ⟨code, message, rfl, Step.bind_eq_of_error h⟩
  | none =>
    obtain ⟨_, _, l, hl, hl'⟩ := exportedNamed_one hleft
    rw [Step.bind_eq_of_ok (sharedColumn_one hl _)]
    dsimp only
    cases hright : countFault? (exported right (env.options.key identifier)) with
    | some code =>
      obtain ⟨message, h⟩ := sharedColumn_fault env s hright identifier.span
      exact .inl ⟨code, message, rfl, Step.bind_eq_of_error h⟩
    | none =>
      obtain ⟨i, j, r, hr, hr'⟩ := exportedNamed_one hright
      rw [Step.bind_eq_of_ok (sharedColumn_one hr _), hl', hr', typeFault?]
      dsimp only
      cases l.type.unify r.type with
      | none => exact .inl ⟨_, _, rfl, rfl⟩
      | some t => exact .inr ⟨(_, i, j), rfl, ⟨⟨l, r, hl', hr', rfl⟩, r, hr⟩, rfl⟩

/-- The names are looked at in turn, up to the first that cannot be shared. -/
theorem sharedPairs_cases (env : Environment) (left right : List RelationInfo) (columns : List Identifier) (s : σ) :
    (∃ i code message, firstFault? env.options left right columns = some (i, code) ∧
      (Step.each (sharedPair left right) columns : Step σ _) env s =
        (.error ⟨⟨code, some i.span, message⟩, []⟩, s)) ∨
    ∃ ps, firstFault? env.options left right columns = none ∧ List.Forall₂ (Pairs env.options left right) columns ps ∧
      (Step.each (sharedPair left right) columns : Step σ _) env s = (.ok ps, s) := by
  induction columns with
  | nil => exact .inr ⟨[], rfl, .nil, rfl⟩
  | cons i columns ih =>
    simp only [firstFault?, List.findSome?_cons] at ih ⊢
    rw [Step.each]
    rcases sharedPair_cases env left right i s with ⟨code, message, hfault, h⟩ | ⟨p, hfault, hp, h⟩
    · rw [hfault]
      exact .inl ⟨i, code, message, rfl, Step.bind_eq_of_error h⟩
    · rw [hfault, Step.bind_eq_of_ok h]
      rcases ih with ⟨i, code, message, hfirst, ih⟩ | ⟨ps, hfirst, hps, ih⟩
      · exact .inl ⟨i, code, message, hfirst, Step.bind_eq_of_error ih⟩
      · exact .inr ⟨p :: ps, hfirst, .cons hp hps, Step.bind_eq_of_ok ih⟩

theorem modify_map_eq_map {α β : Type} {f : β → β} {k g : α → β} {xs : List α}
    (h : ∀ j' a, xs[j']? = some a → g a = if j = j' then f (k a) else k a) : (xs.map k).modify j f = xs.map g := by
  apply List.ext_getElem?
  intro j'
  rw [List.getElem?_modify, List.getElem?_map, List.getElem?_map]
  cases hx : xs[j']? with
  | none => rfl
  | some a =>
    rw [Option.map_some, Option.map_some, h j' a hx]
    by_cases hj : j = j' <;> simp [hj]

theorem hide_only (h : exportedNamed relations name = [(i, j, c)]) (names : List String) :
    hide (relations.map (·.conceal names)) i j = relations.map (·.conceal (names ++ [name])) := by
  obtain ⟨r₀, hr₀, hc₀, hexported₀⟩ := mem_exportedNamed.mp (h ▸ List.mem_singleton_self (i, j, c))
  have hother : ∀ {i' j' r c'}, relations[i']? = some r → r.columns[j']? = some c' → ¬(i = i' ∧ j = j') →
      (c'.exported && c'.isNamed name) = false := by
    intro i' j' r c' hr hc hne
    by_contra hexported
    have hmem := mem_exportedNamed.mpr ⟨r, hr, hc, Bool.of_not_eq_false hexported⟩
    simp only [h, List.mem_singleton, Prod.mk.injEq] at hmem
    exact hne ⟨hmem.1.symm, hmem.2.1.symm⟩
  refine modify_map_eq_map fun i' r hr => ?_
  by_cases hi : i = i'
  · subst hi
    obtain rfl := Option.some.inj (hr₀.symm.trans hr)
    rw [if_pos rfl]
    refine congrArg (fun columns => { r₀ with columns }) (modify_map_eq_map fun j' c' hc => ?_).symm
    by_cases hj : j = j'
    · subst hj
      obtain rfl := Option.some.inj (hc₀.symm.trans hc)
      rw [if_pos rfl, ColumnInfo.conceal_append_of_named (Bool.and_eq_true_iff.mp hexported₀).2]
    · rw [if_neg hj, ColumnInfo.conceal_append_of_not (hother hr hc fun h => hj h.2)]
  · rw [if_neg hi]
    refine congrArg (fun columns => { r with columns }) (List.map_congr_left fun c' hc => ?_)
    obtain ⟨j', hc⟩ := List.mem_iff_getElem?.mp hc
    exact ColumnInfo.conceal_append_of_not (hother hr hc fun h => hi h.1) names

theorem hideAll_eq {o : Options} {ps : List (Scalar × Nat × Nat)}
    (h : List.Forall₂ (Pairs o left right) columns ps) (names : List String) :
    ps.foldl (fun rs (_, i, j) => hide rs i j) (right.map (·.conceal names)) =
      right.map (·.conceal (names ++ columns.map o.key)) := by
  induction h generalizing names with
  | nil => rw [List.map_nil, List.append_nil, List.foldl_nil]
  | @cons _ p _ _ hp _ ih =>
    obtain ⟨e, i, j⟩ := p
    obtain ⟨-, c, hc⟩ := hp
    dsimp only at hc
    simp only [List.foldl_cons]
    rw [hide_only hc, ih, List.map_cons, List.append_assoc, List.singleton_append]

theorem conceal_nil (relations : List RelationInfo) : relations.map (·.conceal []) = relations := by
  simp [RelationInfo.conceal, ColumnInfo.conceal]

theorem shared_cases (env : Environment) (left right : List RelationInfo) (hcolumns : columns ≠ []) (s : σ) :
    (∃ i code message, firstFault? env.options left right columns = some (i, code) ∧
      (shared columns left right : Step σ _) env s = (.error ⟨⟨code, some i.span, message⟩, []⟩, s)) ∨
    ∃ first rest, firstFault? env.options left right columns = none ∧
      List.Forall₂ (Equates env.options left right) columns (first :: rest) ∧
      (shared columns left right : Step σ _) env s =
        (.ok (rest.foldl Scalar.conjunction first, right.map (·.conceal (columns.map env.options.key))), s) := by
  rw [shared]
  rcases sharedPairs_cases env left right columns s with ⟨i, code, message, hfirst, h⟩ | ⟨ps, hfirst, hps, h⟩
  · exact .inl ⟨i, code, message, hfirst, Step.bind_eq_of_error h⟩
  · rw [Step.bind_eq_of_ok h]
    have hequates : List.Forall₂ (Equates env.options left right) columns (ps.map Prod.fst) :=
      List.forall₂_map_right_iff.mpr (hps.imp fun _ _ hp => hp.1)
    have hhidden := hideAll_eq hps []
    rw [conceal_nil, List.nil_append] at hhidden
    rcases ps with _ | ⟨⟨first, i, j⟩, rest⟩
    · cases hps
      exact absurd rfl hcolumns
    · refine .inr ⟨first, rest.map Prod.fst, hfirst, hequates, ?_⟩
      rw [← hhidden, List.foldl_map]
      rfl

theorem shared_ok {s' : σ} {e : Scalar}
    (h : (shared columns left right : Step σ _) env s = (.ok (e, relations), s')) :
    ∃ first rest, e = rest.foldl Scalar.conjunction first ∧
      List.Forall₂ (Equates env.options left right) columns (first :: rest) ∧
      relations = right.map (·.conceal (columns.map env.options.key)) ∧ s' = s := by
  have hcolumns : columns ≠ [] := by
    rintro rfl
    cases h
  rcases shared_cases env left right hcolumns s with ⟨_, _, _, -, h'⟩ | ⟨first, rest, -, hequates, h'⟩
  · cases h.symm.trans h'
  · cases h.symm.trans h'
    exact ⟨first, rest, rfl, hequates, rfl, rfl⟩

theorem flatMap_conceal {α : Type} {f : ColumnInfo → α} (hf : ∀ names c, f (ColumnInfo.conceal names c) = f c)
    (names : List String) (relations : List RelationInfo) :
    (relations.map (·.conceal names)).flatMap (fun r => r.columns.map f) =
      relations.flatMap fun r => r.columns.map f := by
  rw [List.flatMap_map]
  refine List.flatMap_congr fun r _ => ?_
  rw [RelationInfo.conceal, List.map_map]
  exact List.map_congr_left fun c _ => hf names c

theorem exported_append (relations relations' : List RelationInfo) (name : String) :
    exported (relations ++ relations') name = exported relations name ++ exported relations' name := by
  rw [exported, List.flatMap_append, List.filter_append]
  rfl

theorem exported_conceal {names : List String} (h : name ∈ names) (relations : List RelationInfo) :
    exported (relations.map (·.conceal names)) name = [] := by
  rw [exported, List.filter_eq_nil_iff]
  intro c hc
  obtain ⟨r', hr', hc⟩ := List.mem_flatMap.mp hc
  obtain ⟨r, -, rfl⟩ := List.mem_map.mp hr'
  obtain ⟨c, -, rfl⟩ := List.mem_map.mp hc
  have hnamed : c.isNamed name = true → names.any c.isNamed = true := fun hc => List.any_eq_true.mpr ⟨name, h, hc⟩
  change ¬((c.exported && !names.any c.isNamed) && c.isNamed name) = true
  cases hc : c.isNamed name with
  | false => simp
  | true => simp [hnamed hc]

theorem resolveVariable_of_exported (h : exported relations (env.options.key identifier) = [c])
    (named : List (String × NamedQuery)) (outer : Scopes) (n : Nat) :
    Name.resolveVariable ⟨[identifier]⟩ ({ relations, named } :: outer) env n = (.ok (.column c), n) := by
  rw [exported, ← List.filter_filter] at h
  have hcolumn : Scopes.column ({ relations, named } :: outer) (env.options.key identifier) = .one c := by
    rw [Scopes.column, Found.narrow_of_exported h]
  change Name.resolveBare ⟨[identifier]⟩ _ env n = _
  rw [Name.resolveBare, Step.bind_eq_of_ok (a := env.options.key identifier) rfl, hcolumn]
  rfl

theorem sharingFault?_eq_none_iff {o : Options} : sharingFault? o left right identifier = none ↔
    ∃ l r, exported left (o.key identifier) = [l] ∧ exported right (o.key identifier) = [r] ∧
      (l.type.unify r.type).isSome = true := by
  simp only [sharingFault?]
  generalize exported left (o.key identifier) = ls
  generalize exported right (o.key identifier) = rs
  rcases ls with _ | ⟨l, _ | ⟨_, _⟩⟩ <;> rcases rs with _ | ⟨r, _ | ⟨_, _⟩⟩ <;>
    simp [countFault?, typeFault?, Option.isSome_iff_ne_none]

theorem firstFault?_eq_none_iff {o : Options} : firstFault? o left right columns = none ↔ ∀ i ∈ columns,
    ∃ l r, exported left (o.key i) = [l] ∧ exported right (o.key i) = [r] ∧ (l.type.unify r.type).isSome = true := by
  simp only [firstFault?, List.findSome?_eq_none_iff, Option.map_eq_none_iff, sharingFault?_eq_none_iff]

/-- A join over shared columns: one node with the equations in the order of the names, and the relations of both
operands, of which the right one conceals the names. Each name has one visible column, that of the left operand,
and a bare reference finds it. -/
structure Shares (env : Environment) (kind : JoinKind) (swapped : Bool) (columns : List Identifier)
    (left right : Source) (d : Draft) (s : Source) (d' : Draft) : Prop where
  node : ∃ first rest, List.Forall₂ (Equates env.options left.relations right.relations) columns (first :: rest) ∧
    Planning.add (.join kind (some (rest.foldl Scalar.conjunction first)))
      (if swapped then [right.output, left.output] else [left.output, right.output]) env d = (.ok s.output, d')
  relations : s.relations = left.relations ++ right.relations.map (·.conceal (columns.map env.options.key))
  visible : ∀ i ∈ columns, ∃ c, exported left.relations (env.options.key i) = [c] ∧
    exported s.relations (env.options.key i) = [c] ∧
    ∀ (j : Identifier) (named : List (String × NamedQuery)) (outer : Scopes) (n : Nat),
      env.options.key j = env.options.key i →
      Name.resolveVariable ⟨[j]⟩ ({ relations := s.relations, named } :: outer) env n = (.ok (.column c), n)

variable {Q : Type}

theorem condition_shared {outer : Scopes} {kind : JoinKind} (hkind : kind ≠ .cross) {left right : Source} :
    condition outer kind left right (some (.sharedColumns columns) : Option (JoinCondition (Expr Q))) =
      (do
        let (c, relations) ← shared columns left.relations right.relations
        return (some c, { right with relations }) : Analysis _) := by
  cases kind with
  | cross => exact absurd rfl hkind
  | _ => rfl

theorem plan_shared_cases (env : Environment) (outer : Scopes) {kind : JoinKind} (hkind : kind ≠ .cross)
    (swapped : Bool) (left right : Source) (hcolumns : columns ≠ []) (d : Draft) :
    (∃ i code message, firstFault? env.options left.relations right.relations columns = some (i, code) ∧
      plan outer kind swapped left right (some (.sharedColumns columns) : Option (JoinCondition (Expr Q))) env d =
        (.error ⟨⟨code, some i.span, message⟩, []⟩, d)) ∨
    ∃ s d', firstFault? env.options left.relations right.relations columns = none ∧
      plan outer kind swapped left right (some (.sharedColumns columns) : Option (JoinCondition (Expr Q))) env d =
        (.ok s, d') ∧ Shares env kind swapped columns left right d s d' := by
  rw [plan, condition_shared hkind]
  rcases shared_cases env left.relations right.relations hcolumns d.minted with
    ⟨i, code, message, hfirst, h⟩ | ⟨first, rest, hfirst, hequates, h⟩
  · exact .inl ⟨i, code, message, hfirst, Step.bind_eq_of_error (Planning.run_lift (Step.bind_eq_of_error h))⟩
  · refine .inr ⟨⟨⟨d.graph.size, 0⟩, left.relations ++ right.relations.map (·.conceal (columns.map env.options.key))⟩,
      _, hfirst, ?_, ⟨first, rest, hequates, rfl⟩, rfl, fun i hi => ?_⟩
    · rw [Step.bind_eq_of_ok (Planning.run_lift (Step.bind_eq_of_ok h))]
      rfl
    obtain ⟨c, -, hc, -, -⟩ := firstFault?_eq_none_iff.mp hfirst i hi
    have hvisible : exported (left.relations ++ right.relations.map (·.conceal (columns.map env.options.key)))
        (env.options.key i) = [c] := by
      rw [exported_append, exported_conceal (List.mem_map_of_mem hi), hc, List.append_nil]
    exact ⟨c, hc, hvisible, fun j named outer n hj => resolveVariable_of_exported (hj ▸ hvisible) named outer n⟩

theorem plan_ok {outer : Scopes} {kind : JoinKind} {swapped : Bool} {left right s : Source}
    {on? : Option (JoinCondition (Expr Q))} {d d' : Draft}
    (h : plan outer kind swapped left right on? env d = (.ok s, d')) :
    ∃ c right', condition (scope left right :: outer) kind left right on? env d.minted = (.ok (c, right'), d'.minted) ∧
      s = ⟨⟨d.graph.size, 0⟩, left.relations ++ right'.relations⟩ ∧
      d'.graph = d.graph.insert (.join kind c)
        (if swapped then [right'.output, left.output] else [left.output, right'.output]) 1 := by
  simp only [plan, add, Step.bind_ok, Planning.lift_ok, Planning.add_ok, Step.pure_ok, Prod.exists] at h
  obtain ⟨c, right', d₁, ⟨hcondition, hg₁⟩, _, _, ⟨rfl, hm, hg⟩, rfl, rfl⟩ := h
  rw [hg₁] at hg ⊢
  exact ⟨c, right', hm ▸ hcondition, rfl, hg⟩

/-- Only joins with a condition share columns, and they share at least one. -/
theorem plan_shared_ok {outer : Scopes} {kind : JoinKind} {swapped : Bool} {left right s : Source} {d d' : Draft}
    (h : plan outer kind swapped left right (some (.sharedColumns columns) : Option (JoinCondition (Expr Q))) env d =
      (.ok s, d')) : kind ≠ .cross ∧ columns ≠ [] := by
  obtain ⟨_, _, hcondition, -⟩ := plan_ok h
  constructor
  · rintro rfl
    simp [condition] at hcondition
  · rintro rfl
    cases kind <;> simp [condition, shared] at hcondition

end Join

variable {Q : Type}

/-- A join over shared columns is made if both operands export one column of each name and the types agree. Then it
equates these columns and leaves the left one of each name visible, and otherwise the first name that fails is
reported. -/
theorem TableRef.plan_sharedColumns (env : Environment) (outer : Scopes) (kind : JoinSyntax)
    (left right : TableRef (Expr Q)) (columns : List Identifier) (d : Draft) :
    let planned := (TableRef.join kind left right (some (.sharedColumns columns))).plan outer env d
    (∀ s d', planned = (.ok s, d') → columns ≠ [] ∧ ∃ k swapped l d₁ r d₂, kind.kind? = some (k, swapped) ∧
      k ≠ .cross ∧ left.plan outer env d = (.ok l, d₁) ∧ right.plan outer env d₁ = (.ok r, d₂) ∧
      Join.Shares env k swapped columns l r d₂ s d') ∧
    ∀ k swapped l d₁ r d₂, kind.kind? = some (k, swapped) → k ≠ .cross → columns ≠ [] →
      left.plan outer env d = (.ok l, d₁) → right.plan outer env d₁ = (.ok r, d₂) →
      ((∃ s d', planned = (.ok s, d')) ↔ ∀ i ∈ columns, ∃ lc rc, Join.exported l.relations (env.options.key i) = [lc] ∧
        Join.exported r.relations (env.options.key i) = [rc] ∧ (lc.type.unify rc.type).isSome = true) ∧
      ∀ i code, Join.firstFault? env.options l.relations r.relations columns = some (i, code) →
        ∃ message, planned = (.error ⟨⟨code, some i.span, message⟩, []⟩, d₂) := by
  intro planned
  constructor
  · intro s d' h
    simp only [planned, TableRef.plan] at h
    rcases hkind : kind.kind? with _ | ⟨k, swapped⟩
    · simp [hkind] at h
    · simp only [hkind, Step.bind_ok] at h
      obtain ⟨l, d₁, hl, r, d₂, hr, h⟩ := h
      obtain ⟨hcross, hcolumns⟩ := Join.plan_shared_ok h
      refine ⟨hcolumns, k, swapped, l, d₁, r, d₂, rfl, hcross, hl, hr, ?_⟩
      rcases Join.plan_shared_cases env outer hcross swapped l r hcolumns d₂ with
        ⟨_, _, _, -, herror⟩ | ⟨_, _, -, hok, hshares⟩
      · cases herror.symm.trans h
      · cases hok.symm.trans h
        exact hshares
  · intro k swapped l d₁ r d₂ hkind hcross hcolumns hl hr
    have hplanned : planned =
        Join.plan outer k swapped l r (some (.sharedColumns columns) : Option (JoinCondition (Expr Q))) env d₂ := by
      simp only [planned, TableRef.plan, hkind]
      rw [Step.bind_eq_of_ok hl, Step.bind_eq_of_ok hr]
    rw [hplanned, ← Join.firstFault?_eq_none_iff]
    rcases Join.plan_shared_cases env outer hcross swapped l r hcolumns d₂ with
      ⟨i, code, message, hfirst, h⟩ | ⟨s, d', hfirst, h, -⟩
    · rw [h, hfirst]
      refine ⟨by simp, fun i code hi => ?_⟩
      cases hi
      exact ⟨message, rfl⟩
    · rw [h, hfirst]
      exact ⟨⟨fun _ => rfl, fun _ => ⟨s, d', rfl⟩⟩, by simp⟩

namespace Sample

/-- `(VALUES (1, 2)) AS table (first, second)` -/
def twoColumns (table first second : String) : TableRef (Expr Unit) :=
  .derived (.values [[.literal (.exact false "1"), .literal (.exact false "2")]])
    (some ⟨.quoted table, [.quoted first, .quoted second]⟩)

/-- `a (x, y) JOIN b (x, z) USING (x)` -/
def sharedOnce : TableRef (Expr Unit) :=
  .join .inner (twoColumns "a" "x" "y") (twoColumns "b" "x" "z") (some (.sharedColumns [.quoted "x"]))

end Sample

/-- The copy of `x` that the inner join has hidden is no obstacle to the outer one. -/
theorem TableRef.plan_sharedColumns_nested : ∃ (s : Source) (d' : Draft) (l r : Source),
    (TableRef.join .rightOuter Sample.sharedOnce (Sample.twoColumns "c" "x" "y")
      (some (.sharedColumns [.quoted "x", .quoted "y"]))).plan [] default default = (.ok s, d') ∧
    s.relations = l.relations ++ r.relations.map (·.conceal ["x", "y"]) ∧
    s.relations.map (·.columns.map (·.exported)) = [[true, true], [false, true], [false, false]] := by
  have hflags : ((TableRef.join .rightOuter Sample.sharedOnce (Sample.twoColumns "c" "x" "y")
      (some (.sharedColumns [.quoted "x", .quoted "y"]))).plan [] default default).1.toOption.map
        (·.relations.map (·.columns.map (·.exported))) = some [[true, true], [false, true], [false, false]] := by
    decide +kernel
  obtain ⟨hjoined, -⟩ := plan_sharedColumns default [] .rightOuter Sample.sharedOnce (Sample.twoColumns "c" "x" "y")
    [.quoted "x", .quoted "y"] default
  obtain ⟨s, d', hrun, hexported⟩ := Step.exists_of_map_eq_some hflags
  obtain ⟨-, k, swapped, l, d₁, r, d₂, -, -, -, -, hshares⟩ := hjoined s d' hrun
  exact ⟨s, d', l, r, hrun, hshares.relations, hexported⟩

end SqlPlan
