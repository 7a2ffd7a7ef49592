import SqlPlan.Proofs.AggregateFree
import SqlPlan.Proofs.WrittenClauses

namespace SqlPlan

variable {α : Type} {keys : List SortKey} {columns : List ColumnInfo}
  {computed : List (Variable × Scalar)} {c c' : Clauses} {v : Variable} {vs : List Variable} {cs : List SelectColumn}
  {distinct : Bool} {sorts : List SortRequest} {source : Source}

open List (Forall₂)

variable {Q : Type} {env : Environment} {outer : Scopes} {d d₁ d₂ : Draft} {n m : Nat}

/-- Adds operators one after the other, each of which reads the output of the one before it. -/
def Graph.addChain (g : Graph) (input : Socket) (operators : List Operator) : Socket × Graph :=
  operators.foldl (fun s operator => s.2.add operator [s.1]) (input, g)

theorem Graph.addChain_append {g g₁ : Graph} {o o₁ : Socket} {ops ops' : List Operator} {r : Socket × Graph}
    (h : g.addChain o ops = (o₁, g₁)) (h' : g₁.addChain o₁ ops' = r) : g.addChain o (ops ++ ops') = r := by
  unfold addChain at h h' ⊢
  rw [List.foldl_append, h, h']

/-- The operators that a block adds, in the order in which rows pass through them. -/
structure BlockOperators where
  condition : Option Scalar
  arguments : Option (List (Variable × Scalar))
  grouping : Option (List Variable × List AggregateColumn)
  having : Option Scalar
  projection : Option (List (Variable × Scalar))
  distinct : Option (List Variable)
  limit : Option (Option Nat × List SortKey)

namespace BlockOperators

def operators (o : BlockOperators) : List Operator :=
  (o.condition.map Operator.filter).toList ++ (((o.arguments.map Operator.project).toList ++
    (o.grouping.map fun g => Operator.aggregate g.1 g.2).toList) ++ ((o.having.map Operator.filter).toList ++
    ((o.projection.map Operator.project).toList ++ ((o.distinct.map Operator.distinct).toList ++
    (o.limit.map fun l => Operator.limit l.1 l.2).toList))))

/-- The columns that the select list and the sort keys can use as they are: those of the groups, or of the
FROM clause if the rows are not grouped. -/
def available (o : BlockOperators) (source : Source) : List Variable :=
  o.grouping.elim (source.relations.flatMap (·.carriers)) fun g => g.1 ++ g.2.map (·.destination)

def sortKeys (o : BlockOperators) : List SortKey := o.limit.elim [] (·.2)

end BlockOperators

/-- Which operators a block has. A column of the result or a sort key that is not available has been computed
or is a renamed one. -/
structure Block.Shape (env : Environment) (source : Source) (c : SelectClauses (Expr Q)) (r : RelationInfo)
    (o : BlockOperators) : Prop where
  condition : o.condition.isSome = c.condition.isSome
  arguments : o.arguments.isSome = c.computesArgument env
  grouping : o.grouping.isSome = c.isGrouped env
  having : o.having.isSome = c.having.isSome
  projection : o.projection.isSome = (c.items.any Block.isExpr ||
    (r.carriers ++ o.sortKeys.map (·.column)).any fun v => !v.isIn (o.available source))
  distinct : o.distinct = if c.quantifier = some .distinct then some r.carriers else none
  limit : o.limit.isSome = (c.limit.isSome || !c.orderBy.isEmpty)
  count : ∀ l ∈ o.limit, l.1.isSome = c.limit.isSome
  sortKeys : Forall₂ (fun item key => key.order = Block.sortOrder item.direction) c.orderBy o.sortKeys

/-- What the operators of a block read besides the columns of its result. -/
structure Block.Reads (env : Environment) (scopes : Scopes) (c : SelectClauses (Expr Q)) (o : BlockOperators) :
    Prop where
  keys : ∀ g ∈ o.grouping, ∀ v ∈ g.1, v.isStream = true
  arguments : (o.grouping.any fun g => g.2.any fun a => a.arguments.any Variable.isConstant) =
    c.feedsConstant env scopes
  sortKeys : ∀ key ∈ o.sortKeys, key.column.isStream = true

theorem isSome_ite_some (needed : Bool) (x : α) : (if needed then some x else none).isSome = needed := by
  cases needed <;> rfl

theorem Aggregation.someEntry_from_keys {test : List Scalar → Bool} (htest : Scalar.Respects test)
    {keys locals : List Variable} {ss ss' : List Scalar} {a : Aggregation}
    (h : Regroups ss ⟨keys.foldl addKey { locals }, n, none⟩ ss' ⟨a, m, none⟩) :
    a.someEntry test = ss.any (Scalar.someCall test) := by
  have hempty := (addKeys_ok keys { locals }).2.1
  have hnone : (keys.foldl addKey { locals }).someEntry test = false := by simp [someEntry, hempty]
  exact (h.someEntry_eq htest).trans (by rw [hnone, Bool.false_or])

theorem Aggregation.aggregateColumns_constant {entries : List AggregateEntry} {columns : List AggregateColumn}
    (h : aggregateColumns entries env n = (.ok (columns, computed), m)) :
    columns.any (fun a => a.arguments.any Variable.isConstant) =
      entries.any fun e => Scalar.anyConstant e.arguments := by
  refine (any_eq_of_forall₂ ((aggregateColumns_cases h).2.2.2.imp fun e a ha => ?_)).symm
  refine any_eq_of_forall₂ (ha.2.imp fun s v hv => ?_)
  rcases hv with hv | ⟨hv, hs⟩
  · rw [Scalar.isConstant, hv]
    rfl
  · rw [Scalar.isConstant, hv, Variable.isConstant_of_isMinted (Variable.isMinted_of_stream hs)]
    rfl

namespace Block

variable {b : Block} {input output : Socket}

theorem addFilter_chain {condition : Option Scalar} (h : addFilter condition input env d = (.ok output, d₁)) :
    d.graph.addChain input (condition.map Operator.filter).toList = (output, d₁.graph) := by
  cases condition with
  | none =>
    obtain ⟨rfl, rfl⟩ := Step.pure_ok.mp h
    rfl
  | some c =>
    simp only [addFilter, Planning.add_ok] at h
    obtain ⟨rfl, -, hg⟩ := h
    rw [hg]
    rfl

theorem addIf_chain {needed : Bool} {f : α → Operator} {x : α}
    (h : addIf needed (f x) input env d = (.ok output, d₁)) :
    d.graph.addChain input ((if needed then some x else none).map f).toList = (output, d₁.graph) := by
  rcases addIf_cases h with ⟨rfl, rfl, rfl⟩ | ⟨rfl, rfl, -, hg⟩
  · rfl
  · rw [hg]
    rfl

variable {available : List Variable}

/-- The operators of a grouping. The arguments are computed before it if there is a call with one that has
to be, and constants are arguments as they are. -/
theorem group_chain (hc : c.Resolved env b) (h : b.group c input env d = (.ok (c', output, available), d₁)) :
    ∃ (arguments : Option (List (Variable × Scalar))) (grouping : Option (List Variable × List AggregateColumn)),
      d.graph.addChain input ((arguments.map Operator.project).toList ++
        (grouping.map fun g => Operator.aggregate g.1 g.2).toList) = (output, d₁.graph) ∧
      arguments.isSome = c.exprs.any (Scalar.someCall Scalar.anyComputed) ∧ grouping.isSome = c.active ∧
      (grouping.any fun g => g.2.any fun a => a.arguments.any Variable.isConstant) =
        c.exprs.any (Scalar.someCall Scalar.anyConstant) ∧
      available = grouping.elim b.locals fun g => g.1 ++ g.2.map (·.destination) := by
  cases hactive : c.active with
  | false =>
    obtain ⟨rfl, rfl, rfl, rfl⟩ := group_inactive hactive h
    have hnone : ∀ test, c.exprs.any (Scalar.someCall test) = false := by
      intro test
      refine List.any_eq_false.mpr fun s hs => ?_
      simp [Scalar.someCall_of_not_hasAggregate (hc.hasAggregate hactive s hs)]
    exact ⟨none, none, rfl, (hnone _).symm, rfl, (hnone _).symm, rfl⟩
  | true =>
    obtain ⟨d₂, a, hregroup, hg, hinstall, rfl⟩ := group_active hactive h
    obtain ⟨columns, computed, d₃, o, d₄, hcolumns, hg₃, ho, rfl, -, hg₁⟩ := Aggregation.install_ok hinstall
    have hchain := addIf_chain ho
    rw [hg₃, hg] at hchain
    obtain ⟨-, -, hcomputed, hcalls⟩ := Aggregation.aggregateColumns_cases hcolumns
    have hcomputed := hcomputed.trans
      (Aggregation.someEntry_from_keys Scalar.anyComputed_respects (regroup_ok hregroup).1)
    have hconstant := (Aggregation.aggregateColumns_constant hcolumns).trans
      (Aggregation.someEntry_from_keys Scalar.anyConstant_respects (regroup_ok hregroup).1)
    refine ⟨_, some (a.keys, columns), Graph.addChain_append hchain (by rw [hg₁]; rfl), ?_, rfl, hconstant, ?_⟩
    · rw [← hcomputed]
      cases computed.isEmpty <;> rfl
    · rw [Aggregation.outputs, ← map_eq_of_forall₂ (hcalls.imp fun _ _ h => h.1)]
      rfl

/-- The columns that are available are streams, and a variable that stands for a whole expression is a stream
column or a constant. -/
theorem group_streams (hc : c.Resolved env b) (hvisible : ∀ col ∈ b.scopes.visible, col.carrier.isStream = true)
    (h : b.group c input env d = (.ok (c', output, available), d₁)) :
    (∀ w ∈ available, w.isStream = true) ∧
      ∀ s ∈ c'.exprs, ∀ v, s.asVariable? = some v → v.isStream = true ∨ v.isConstant = true := by
  have hvariable : ∀ s ∈ c.exprs, ∀ v, s.asVariable? = some v → v.isStream = true ∨ v.isConstant = true := by
    intro s hs v hv
    obtain ⟨t, ht⟩ := hc.value s hs
    rcases ht.variable_cases hv with ⟨col, hcol, rfl⟩ | hconstant
    · exact .inl (hvisible col hcol)
    · exact .inr hconstant
  cases hactive : c.active with
  | false =>
    obtain ⟨rfl, -, rfl, -⟩ := group_inactive hactive h
    refine ⟨fun w hw => ?_, hvariable⟩
    obtain ⟨col, hcol, rfl⟩ := exists_column_of_mem_locals hw
    obtain ⟨r, hr, hcol⟩ := List.mem_flatMap.mp hcol
    exact hvisible col (mem_visible hr hcol)
  | true =>
    obtain ⟨d₂, a, hregroup, -, -, rfl⟩ := group_active hactive h
    have hregroups := (regroup_ok hregroup).1
    obtain ⟨-, hkeys, -, hfresh, -⟩ := Aggregation.regroups_from_keys hregroups
    refine ⟨fun w hw => ?_, fun s hs v hv => ?_⟩
    · rcases List.mem_append.mp hw with hw | hw
      · obtain ⟨-, col, hcol, rfl⟩ := hc.keys w (hkeys w hw)
        exact hvisible col hcol
      · exact hfresh.stream w hw
    · rcases hregroups.asVariable? s hs v hv with ⟨s₀, hs₀, hv₀, -⟩ | ⟨e, he, rfl⟩
      · exact hvariable s₀ hs₀ v hv₀
      · exact .inl (hfresh.stream _ (List.mem_map_of_mem he))

/-- The columns that are available have been minted, and those that can be passed on are among them. -/
theorem group_available (hc : c.Resolved env b) {lo : Nat} (hb : Columns.Within lo (bindings b.relations) d.minted)
    (h : b.group c input env d = (.ok (c', output, available), d₁)) :
    (∀ w ∈ available, w.id ≤ d₁.minted) ∧
      ∀ x ∈ c'.columns, ∀ v, x.value = .var v → b.isPassable v = true → v.isIn available = true := by
  have hle := (group_introduces h).1.minted_le
  -- a column that was there before grouping is one of the FROM clause
  have hlocal : ∀ s ∈ c.exprs, ∀ v, s.asVariable? = some v → b.isPassable v = true → v.isIn b.locals = true := by
    intro s hs v hv hpass
    obtain ⟨t, ht⟩ := hc.value s hs
    obtain ⟨col, hcol, rfl⟩ := ht.mem_visible hv (Variable.isMinted_of_stream (Bool.and_eq_true_iff.mp hpass).1)
    exact isIn_locals_of_isPassable hcol hpass
  cases hactive : c.active with
  | false =>
    obtain ⟨rfl, -, rfl, rfl⟩ := group_inactive hactive h
    refine ⟨fun w hw => ?_, fun x hx v hv => ?_⟩
    · obtain ⟨col, hcol, rfl⟩ := exists_column_of_mem_locals hw
      exact (hb _ (mem_bindings hcol)).2.2
    · exact hlocal x.value (value_mem_exprs hx) v (by rw [hv]; rfl)
  | true =>
    obtain ⟨d₂, a, hregroup, hg, hinstall, rfl⟩ := group_active hactive h
    have hregroups := (regroup_ok hregroup).1
    obtain ⟨hlocals, hkeys, hle₂, hfresh, -⟩ := Aggregation.regroups_from_keys hregroups
    have hle₁ := (Aggregation.install_introduces hle₂ hg hfresh hinstall).2
    refine ⟨fun w hw => ?_, fun x hx v hv hpass => ?_⟩
    · rcases List.mem_append.mp hw with hw | hw
      · exact Nat.le_trans (within_of_isIn_locals (hc.keys w (hkeys w hw)).1 hb).2 hle
      · exact Nat.le_trans (hfresh.upTo w hw) hle₁
    · have hvar : x.value.asVariable? = some v := by
        rw [hv]
        rfl
      rcases hregroups.asVariable? x.value (value_mem_exprs hx) v hvar with ⟨s, hs, hsv, hgrouped⟩ | ⟨e, he, rfl⟩
      · have hin : v.isIn a.locals = true := hlocals ▸ hlocal s hs v hsv hpass
        have hgrouped : (v.isIn a.locals && !v.isIn a.keys) = false := hgrouped
        have hkey : v.isIn a.keys = true := by simpa [hin] using hgrouped
        rw [Variable.isIn, Aggregation.outputs, List.any_append]
        exact Bool.or_eq_true_iff.mpr (.inl hkey)
      · have hmem : e.destination ∈ a.entries.map (·.destination) := List.mem_map_of_mem he
        exact Variable.isIn_of_mem (List.mem_append_right _ hmem)

theorem not_isIn_of_lt (hv : v.isStream = true) (h : ∀ w ∈ vs, w.id < v.id) : v.isIn vs = false := by
  rw [← Bool.not_eq_true, Variable.isIn_iff]
  rintro ⟨w, hw, hsame⟩
  have hid := Variable.id_eq_of_same hv (Variable.same_symm hsame)
  have hlt := h w hw
  omega

theorem projectColumns_available {used : List Variable} (havailable : ∀ w ∈ available, w.id ≤ n)
    (hcs : ∀ x ∈ cs, ∀ v, x.value = .var v → b.isPassable v = true → v.isIn available = true)
    (h : b.projectColumns used cs env n = (.ok (columns, computed), m)) :
    (!computed.isEmpty) = columns.any fun c => !c.carrier.isIn available := by
  induction cs generalizing used columns computed n m with
  | nil =>
    simp only [projectColumns, Step.pure_ok, Prod.mk.injEq] at h
    obtain ⟨⟨rfl, rfl⟩, -⟩ := h
    rfl
  | cons c cs ih =>
    simp only [projectColumns, Step.bind_ok, Step.pure_ok, Prod.exists, Prod.mk.injEq] at h
    obtain ⟨info, first, k, hfirst, columns, more, _, hrest, ⟨rfl, rfl⟩, -⟩ := h
    obtain ⟨hc, hcs⟩ := List.forall_mem_cons.mp hcs
    obtain ⟨v, rfl, ⟨hvalue, hpass, -, rfl, rfl⟩ | ⟨rfl, rfl, rfl⟩⟩ := projectColumn_cases hfirst
    · simp [hc v hvalue hpass, ih havailable hcs hrest]
    · have hnew : Variable.isIn ⟨n + 1, .stream c.name⟩ available = false :=
        not_isIn_of_lt rfl fun w hw => Nat.lt_succ_of_le (havailable w hw)
      simp [hnew]

theorem sortColumns_available (havailable : ∀ w ∈ available, w.id ≤ n)
    (hcolumns : ∀ c ∈ columns, c.carrier.isIn available = true)
    (hsorts : ∀ s ∈ sorts, ∀ i, s.target = .output i → i < columns.length)
    (h : sortColumns distinct columns available sorts env n = (.ok (keys, computed), m)) :
    (!computed.isEmpty) = keys.any fun key => !key.column.isIn available := by
  induction sorts generalizing keys computed n m with
  | nil =>
    simp only [sortColumns, Step.pure_ok, Prod.mk.injEq] at h
    obtain ⟨⟨rfl, rfl⟩, -⟩ := h
    rfl
  | cons s sorts ih =>
    simp only [sortColumns, Step.bind_ok, Step.pure_ok, Prod.exists, Prod.mk.injEq] at h
    obtain ⟨v, first, k, hfirst, keys, more, _, hrest, ⟨rfl, rfl⟩, -⟩ := h
    obtain ⟨hs, hsorts⟩ := List.forall_mem_cons.mp hsorts
    obtain ⟨i, htarget, rfl, rfl, rfl⟩ | ⟨e, -, ⟨-, hin, rfl, rfl⟩ | ⟨-, rfl, rfl, rfl⟩⟩ := sortColumn_cases hfirst
    · have hi := hs i htarget
      have hin := hcolumns _ (List.getElem_mem hi)
      simp [List.getElem?_eq_getElem hi, hin, ih havailable hsorts hrest]
    · have hin : v.isIn available = true := by
        rcases hin with hin | ⟨-, hin⟩
        · obtain ⟨w, hw, hsame⟩ := Variable.isIn_iff.mp hin
          obtain ⟨c, hc, rfl⟩ := List.mem_map.mp hw
          obtain ⟨w, hw, hsame'⟩ := Variable.isIn_iff.mp (hcolumns c hc)
          exact Variable.isIn_iff.mpr ⟨w, hw, Variable.same_trans hsame hsame'⟩
        · exact hin
      simp [hin, ih havailable hsorts hrest]
    · have hnew : Variable.isIn ⟨n + 1, .stream none⟩ available = false :=
        not_isIn_of_lt rfl fun w hw => Nat.lt_succ_of_le (havailable w hw)
      simp [hnew]

theorem isConstant_of_isIn (hvs : ∀ w ∈ vs, w.isStream = true) (h : v.isIn vs = true) : v.isConstant = false := by
  obtain ⟨w, hw, hsame⟩ := Variable.isIn_iff.mp h
  rw [Variable.isConstant_of_same hsame]
  exact Variable.isConstant_of_isMinted (Variable.isMinted_of_stream (hvs w hw))

/-- The sort keys one by one. -/
theorem sortColumns_cases (h : sortColumns distinct columns available sorts env n = (.ok (keys, computed), m)) :
    Forall₂ (fun s key => key.order = s.order ∧ ∃ n computed m,
      sortColumn distinct columns available s env n = (.ok (key.column, computed), m)) sorts keys := by
  induction sorts generalizing keys computed n m with
  | nil =>
    simp only [sortColumns, Step.pure_ok, Prod.mk.injEq] at h
    obtain ⟨⟨rfl, -⟩, -⟩ := h
    exact .nil
  | cons s sorts ih =>
    simp only [sortColumns, Step.bind_ok, Step.pure_ok, Prod.exists, Prod.mk.injEq] at h
    obtain ⟨v, first, k, hfirst, keys, more, _, hrest, ⟨rfl, -⟩, -⟩ := h
    exact .cons ⟨rfl, n, first, k, hfirst⟩ (ih hrest)

theorem sortColumns_streams (havailable : ∀ w ∈ available, w.isStream = true)
    (hcolumns : ∀ c ∈ columns, c.carrier.isStream = true)
    (hpositions : ∀ s ∈ sorts, ∀ i, s.target = .output i → i < columns.length)
    (hsorts : ∀ s ∈ sorts, ∀ v, s.target = .expr (.var v) → v.isStream = true ∨ v.isConstant = true)
    (h : sortColumns distinct columns available sorts env n = (.ok (keys, computed), m)) :
    ∀ key ∈ keys, key.column.isStream = true := by
  rintro ⟨v, order⟩ hkey
  obtain ⟨s, hs, -, _, _, _, hkey⟩ := exists_of_forall₂ (sortColumns_cases h) _ hkey
  obtain ⟨i, htarget, rfl, -, -⟩ | ⟨e, htarget, ⟨rfl, hin, -, -⟩ | ⟨-, rfl, -, -⟩⟩ := sortColumn_cases hkey
  · have hi := hpositions s hs i htarget
    simpa [List.getElem?_eq_getElem hi] using hcolumns _ (List.getElem_mem hi)
  · have hconstant : v.isConstant = false := by
      rcases hin with hin | ⟨-, hin⟩
      · exact isConstant_of_isIn (by simpa using hcolumns) hin
      · exact isConstant_of_isIn havailable hin
    exact (hsorts s hs v htarget).resolve_right (by simp [hconstant])
  · rfl

theorem sortKeys_order {c : SelectClauses (Expr Q)} {cl cl' : Clauses} (h : b.clauses c env n = (.ok cl, m))
    (hkeeps : cl.Keeps cl') {n m : Nat}
    (hkeys : sortColumns distinct columns available cl'.sorts env n = (.ok (keys, computed), m)) :
    Forall₂ (fun item key => key.order = sortOrder item.direction) c.orderBy keys := by
  obtain ⟨-, sorts, -, -, -, hrequests, hsorted, -, -, -⟩ := clauses_cases h
  have hrequested : Forall₂ (fun (item : SortItem (Expr Q)) s => s.order = sortOrder item.direction) c.orderBy
      cl.sorts := by
    rw [hsorted, List.forall₂_map_right_iff]
    refine hrequests.imp fun item p hp => ?_
    obtain ⟨n, m, hp⟩ := hp
    exact (sortRequest_cases hp).1
  have hkept : Forall₂ (fun (item : SortItem (Expr Q)) s => s.order = sortOrder item.direction) c.orderBy
      cl'.sorts :=
    forall₂_trans hrequested hkeeps.sorts fun _ _ _ hs hs' => hs'.1.trans hs
  exact forall₂_trans hkept (sortColumns_cases hkeys) fun _ _ _ hs hkey => hkey.1.trans hs

theorem project_available {more : List (Variable × Scalar)} {k : Nat} (havailable : ∀ w ∈ available, w.id ≤ n)
    (hcs : ∀ x ∈ cs, ∀ v, x.value = .var v → b.isPassable v = true → v.isIn available = true)
    (hsorts : ∀ s ∈ sorts, ∀ i, s.target = .output i → i < cs.length)
    (hcolumns : b.projectColumns [] cs env n = (.ok (columns, computed), k))
    (hkeys : sortColumns distinct columns available sorts env k = (.ok (keys, more), m)) :
    (!(computed ++ more).isEmpty) =
      (columns.map (·.carrier) ++ keys.map (·.column)).any fun v => !v.isIn available := by
  have hcomputed := projectColumns_available havailable hcs hcolumns
  have hle := (projectColumns_computed hcolumns).1
  rw [List.any_append, List.any_map, List.any_map, Function.comp_def, Function.comp_def, ← hcomputed]
  cases computed with
  | cons p computed => rfl
  | nil =>
    have hall : ∀ c ∈ columns, c.carrier.isIn available = true := by
      intro c hc
      simpa using List.any_eq_false.mp hcomputed.symm c hc
    exact sortColumns_available (fun w hw => Nat.le_trans (havailable w hw) hle) hall
      (projectColumns_length hcolumns ▸ hsorts) hkeys

theorem limit_sortKeys (count : Option Nat) (keys : List SortKey) :
    (if (count.isSome || !keys.isEmpty) = true then some (count, keys) else none).elim [] (·.2) = keys := by
  cases keys with
  | nil => cases count.isSome <;> rfl
  | cons key keys => simp

theorem visible_streams (hsource : Yields d source d₁) (houter : ∀ col ∈ outer.visible, col.carrier.isStream = true) :
    ∀ col ∈ Scopes.visible ({ relations := source.relations } :: outer), col.carrier.isStream = true := by
  intro col hcol
  rcases List.mem_append.mp hcol with hcol | hcol
  · exact (hsource.within _ (mem_bindings hcol)).1
  · exact houter col hcol

theorem plan_shape (hsource : Yields d source d₁) {c : SelectClauses (Expr Q)} {p : Planned}
    (h : Block.plan outer source c env d₁ = (.ok p, d₂)) :
    ∃ o : BlockOperators, Shape env source c p.relation o ∧
      ((∀ col ∈ outer.visible, col.carrier.isStream = true) →
        Reads env ({ relations := source.relations } :: outer) c o) ∧
      d₁.graph.addChain source.output o.operators = (p.output, d₂.graph) := by
  have hresult := (plan_yields hsource h).within
  simp only [Block.plan, Step.bind_ok, Planning.lift_ok, Step.pure_ok, Prod.exists] at h
  obtain ⟨condition, d₃, ⟨hcondition, hg₃⟩, o₁, d₄, ho₁, clauses, d₅, ⟨hclauses, hg₅⟩, clauses', o₂,
    available, d₆, hgroup, o₃, d₇, ho₃, columns, computed, d₈, ⟨hcolumns, hg₈⟩, keys, more, d₉,
    ⟨hsorts, hg₉⟩, o₄, d₁₀, ho₄, o₅, d₁₁, ho₅, o₆, _, ho₆, rfl, rfl⟩ := h
  obtain ⟨hle₅, hresolved⟩ := clauses_ok hclauses
  have hle₃ := condition_minted_le hcondition
  have hm₄ := (addFilter_introduces ho₁).2
  have hm₇ := (addFilter_introduces ho₃).2
  have hwithin : Columns.Within d.minted (bindings source.relations) d₅.minted :=
    hsource.within.mono (Nat.le_refl _) (by omega)
  obtain ⟨arguments, grouping, hgrouped, harguments, hgrouping, hconstants, rfl⟩ := group_chain hresolved hgroup
  obtain ⟨hbelow, hpassed⟩ := group_available hresolved hwithin hgroup
  have hkeeps := group_keeps hgroup
  have hpositions := hkeeps.inRange hresolved.inRange
  have hproject := project_available (hm₇ ▸ hbelow) hpassed hpositions hcolumns hsorts
  have horders := sortKeys_order hclauses hkeeps hsorts
  obtain ⟨-, -, -, -, -, -, -, hhaving, hcount, -⟩ := clauses_cases hclauses
  have hfiltered := addFilter_chain ho₁
  have hselected := addFilter_chain ho₃
  have hprojected := addIf_chain ho₄
  have hunique := addIf_chain ho₅
  have hlimited := addIf_chain (f := fun l : Option Nat × List SortKey => Operator.limit l.1 l.2)
    (x := (clauses'.limit, keys)) ho₆
  rw [hg₃] at hfiltered
  rw [hg₅] at hgrouped
  rw [hg₉, hg₈] at hprojected
  generalize hprojection : (if (c.items.any isExpr || !(computed ++ more).isEmpty) = true then
    some (computed ++ more) else none) = projection at hprojected
  generalize hdistinct : (if decide (c.quantifier = some .distinct) = true then
    some (RelationInfo.carriers { columns }) else none) = distinct at hunique
  generalize hlimit : (if (clauses'.limit.isSome || !keys.isEmpty) = true then some (clauses'.limit, keys)
    else none) = limit at hlimited
  have hsorted : limit.elim [] (·.2) = keys := by
    rw [← hlimit]
    exact limit_sortKeys clauses'.limit keys
  refine ⟨⟨condition, arguments, grouping, clauses'.having.map (·.1), projection, distinct, limit⟩, ?_, ?_, ?_⟩
  · constructor
    · exact optional_isSome hcondition
    · exact harguments.trans (clauses_computesArgument hclauses).symm
    · exact hgrouping.trans (clauses_active hclauses)
    · rw [Option.isSome_map, hkeeps.having, hhaving]
    · rw [← hprojection, isSome_ite_some, hproject, ← hsorted]
      rfl
    · rw [← hdistinct]
      simp only [decide_eq_true_eq]
    · rw [← hlimit, isSome_ite_some, hkeeps.limit, hcount, isEmpty_eq_of_length_eq horders.length_eq]
    · intro l hl
      rw [← hlimit] at hl
      obtain ⟨-, hl⟩ := Option.ite_none_right_eq_some.mp hl
      cases hl
      rw [hkeeps.limit, hcount]
    · rw [BlockOperators.sortKeys, hsorted]
      exact horders
  · intro houter
    have hvisible := visible_streams hsource houter
    obtain ⟨havailable, hvariables⟩ := group_streams hresolved hvisible hgroup
    refine ⟨fun g hg v hv => ?_, ?_, fun key hkey => ?_⟩
    · cases hg
      exact havailable v (List.mem_append_left _ hv)
    · refine hconstants.trans (clauses_feedsConstant (fun col hcol => ?_) hclauses).symm
      exact Variable.isConstant_of_isMinted (Variable.isMinted_of_stream (hvisible col hcol))
    · rw [BlockOperators.sortKeys, hsorted] at hkey
      refine sortColumns_streams havailable (fun c hc => ?_) ?_ (fun s hs v hv => ?_) hsorts key hkey
      · exact (hresult _ (mem_bindings (by simpa [Planned.source] using hc))).1
      · exact projectColumns_length hcolumns ▸ hpositions
      · exact hvariables (.var v) (target_mem_exprs hs hv) v rfl
  · exact Graph.addChain_append hfiltered (Graph.addChain_append hgrouped (Graph.addChain_append hselected
      (Graph.addChain_append hprojected (Graph.addChain_append hunique hlimited))))

end Block

/-- The shape of a SELECT block. What a block adds to its FROM clause is a chain of operators from the output
of the FROM clause to its own output, in the order of the clauses. There is a filter for WHERE and one for
HAVING. A block that groups its rows has an aggregate operator, after a projection if an argument of a call is
not just a variable. There is another projection if the select list has an expression or if a column of the
result or a sort key is not available without it. DISTINCT is over all columns of the result, and the rows are
limited if there is a LIMIT or an ORDER BY, with a sort key for each item. -/
theorem Query.select_shape {tables : List (TableRef (Expr Q))} {c : SelectClauses (Expr Q)} {p : Planned}
    {d' : Draft} (h : (Query.select tables c).plan outer env d = (.ok p, d')) :
    ∃ source d₁ o, planFrom outer tables env d = (.ok source, d₁) ∧ Block.Shape env source c p.relation o ∧
      d₁.graph.addChain source.output o.operators = (p.output, d'.graph) := by
  simp only [Query.plan, Step.bind_ok] at h
  obtain ⟨source, d₁, hsource, h⟩ := h
  obtain ⟨o, hshape, -, hchain⟩ := Block.plan_shape (planFrom_plans outer tables hsource).yields h
  exact ⟨source, d₁, o, hsource, hshape, hchain⟩

namespace Sample

def literal (digits : String) : Expr Unit := .literal (.exact false digits)

def sum (e : Expr Unit) : Expr Unit := .call ⟨[.quoted "sum"]⟩ none (some [e])

def sumSchema : Schema := schema .int4 .int4 { id := 1, name := "sum", parameters := [.int4], result := .int8 }

def sums : Session where
  environment.catalog := { name := "db", schemas := [sumSchema] }

/-- `DISTINCT y, sum(x + 1) ... WHERE x < y GROUP BY y HAVING sum(x) < 9 ORDER BY y DESC LIMIT 3` -/
def sumsOver : SelectClauses (Expr Unit) where
  quantifier := some .distinct
  items := [.expr (column ["y"]) none, .expr (sum (.binary .add (column ["x"]) (literal "1"))) none]
  condition := some (.comparison .less (column ["x"]) (column ["y"]))
  groupBy := [column ["y"]]
  having := some (.comparison .less (sum (column ["x"])) (literal "9"))
  orderBy := [⟨column ["y"], some .descending⟩]
  limit := some (literal "3")

end Sample

/-- A block with all clauses has all operators. -/
theorem Query.select_shape_sumsOver : ∃ (p : Planned) (d' d₁ : Draft) (source : Source) (o : BlockOperators),
    (Query.select [Sample.relation "a"] Sample.sumsOver).plan [] Sample.sums.environment ⟨0, .empty⟩ = (.ok p, d') ∧
      d₁.graph.addChain source.output o.operators = (p.output, d'.graph) ∧
      o.operators.map Operator.kind = [.filter, .project, .aggregate, .filter, .project, .distinct, .limit] ∧
      o.sortKeys.map (·.order) = [.descending] := by
  have hok : ((Query.select [Sample.relation "a"] Sample.sumsOver).plan [] Sample.sums.environment
      ⟨0, .empty⟩).1.isOk = true := by
    decide +kernel
  have harguments : Sample.sumsOver.computesArgument Sample.sums.environment = true := by decide +kernel
  obtain ⟨p, d', h⟩ := Step.exists_ok hok
  obtain ⟨source, d₁, ⟨condition, arguments, grouping, having, projection, distinct, limit⟩, -, hshape, hchain⟩ :=
    select_shape h
  refine ⟨p, d', d₁, source, _, h, hchain, ?_, ?_⟩
  · obtain ⟨_, rfl⟩ := Option.isSome_iff_exists.mp hshape.condition
    obtain ⟨_, rfl⟩ := Option.isSome_iff_exists.mp (hshape.arguments.trans harguments)
    obtain ⟨_, rfl⟩ := Option.isSome_iff_exists.mp hshape.grouping
    obtain ⟨_, rfl⟩ := Option.isSome_iff_exists.mp hshape.having
    obtain ⟨_, rfl⟩ := Option.isSome_iff_exists.mp hshape.projection
    obtain ⟨_, rfl⟩ := Option.isSome_iff_exists.mp hshape.limit
    obtain rfl := hshape.distinct
    rfl
  · have hkeys := hshape.sortKeys
    generalize BlockOperators.sortKeys _ = keys at hkeys ⊢
    obtain ⟨key, _, horder, hrest, rfl⟩ := List.forall₂_cons_left_iff.mp hkeys
    obtain rfl := List.forall₂_nil_left_iff.mp hrest
    exact congrArg (fun order => [order]) horder

end SqlPlan
