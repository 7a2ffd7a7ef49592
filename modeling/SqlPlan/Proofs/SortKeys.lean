import SqlPlan.Proofs.BlockShape

namespace SqlPlan

open List (Forall₂)

variable {Q α β : Type} {env : Environment} {v w : Variable} {n m : Nat}

namespace Step

variable {σ : Type} {I : σ → Prop} {R : α → β → Prop}

/-- Where the first step succeeds from a state with the invariant, the second one does too. It ends in the same
state, which has the invariant again, and with a related result. -/
def Matches (I : σ → Prop) (R : α → β → Prop) (env : Environment) (m : Step σ α) (m' : Step σ β) : Prop :=
  ∀ s a t, I s → m env s = (.ok a, t) → I t ∧ ∃ b, m' env s = (.ok b, t) ∧ R a b

theorem collect_matches {γ δ : Type} {f : γ → Step σ α} {f' : δ → Step σ β} {xs : List γ} {ys : List δ}
    (h : Forall₂ (fun x y => Matches I R env (f x) (f' y)) xs ys) :
    Matches I (Forall₂ R) env (collect (xs.map f)) (collect (ys.map f')) := by
  induction h with
  | nil =>
    intro s as t hs has
    obtain ⟨rfl, rfl⟩ := collect_nil_ok.mp has
    exact ⟨hs, [], collect_nil_ok.mpr ⟨rfl, rfl⟩, .nil⟩
  | cons hm _ ih =>
    intro s as t hs has
    obtain ⟨a, as, u, rfl, ha, has⟩ := collect_cons_ok.mp has
    obtain ⟨hu, b, hb, hab⟩ := hm s a u hs ha
    obtain ⟨ht, bs, hbs, hrest⟩ := ih u as t hu has
    exact ⟨ht, b :: bs, collect_cons_ok.mpr ⟨b, bs, u, rfl, hb, hbs⟩, .cons hab hrest⟩

theorem collect_append_ok {ms ms' : List (Step σ α)} {s t : σ} {as : List α} :
    collect (ms ++ ms') env s = (.ok as, t) ↔
      ∃ bs cs u, as = bs ++ cs ∧ collect ms env s = (.ok bs, u) ∧ collect ms' env u = (.ok cs, t) := by
  induction ms generalizing s as with
  | nil => simp
  | cons m ms ih =>
    simp only [List.cons_append, collect_cons_ok, ih]
    constructor
    · rintro ⟨a, _, u, rfl, ha, bs, cs, w, rfl, hbs, hcs⟩
      exact ⟨a :: bs, cs, w, rfl, ⟨a, bs, u, rfl, ha, hbs⟩, hcs⟩
    · rintro ⟨_, cs, w, rfl, ⟨a, bs, u, rfl, ha, hbs⟩, hcs⟩
      exact ⟨a, bs ++ cs, u, rfl, ha, bs, cs, w, rfl, hbs, hcs⟩

end Step

theorem Aggregation.regroup_var {location : Option Span} {s : Scalar} {g g' : GroupingState} :
    Aggregation.regroup location (.var v) env g = (.ok s, g') ↔
      s = .var v ∧ g' = g ∧ g.aggregation.isUngrouped v = false := by
  obtain ⟨k, a⟩ := g
  by_cases hv : a.isUngrouped v = true
  · simp [regroup, process, Scalar.regroup, Regrouping.check, Regrouping.fail, hv]
  · simp [regroup, process, Scalar.regroup, Regrouping.check, hv, eq_comm]

theorem Regroups.isUngrouped_eq {ss ss' : List Scalar} {r r' : Regrouping} (h : Regroups ss r ss' r') :
    r'.aggregation.isUngrouped v = r.aggregation.isUngrouped v := by
  rw [Aggregation.isUngrouped, Aggregation.isUngrouped, h.grows.locals, h.grows.keys]

namespace Block

variable {b : Block} {column : ColumnInfo} {label : Identifier} {position : Nat}

def Gives (env : Environment) (b : Block) (items : List (SelectItem (Expr Q))) (columns : List SelectColumn) : Prop :=
  ∃ n results m, Step.collect (items.map b.selectItem) env n = (.ok results, m) ∧ columns = results.flatMap (·.1)

/-- Between the items `before` and `after` of a select list, a column of the FROM clause with the label has the
position, counted from zero. No other column has that name, and none before it is the same column. -/
structure Labels (env : Environment) (b : Block) (before after : List (SelectItem (Expr Q))) (column : ColumnInfo)
    (label : Identifier) (position : Nat) : Prop where
  source : column ∈ b.relations.flatMap (·.columns)
  width : ∀ cs, b.Gives env before cs → cs.length = position
  unique : ∀ cs, b.Gives env before cs ∨ b.Gives env after cs → ∀ x ∈ cs, x.name ≠ some (env.options.key label)
  first : ∀ cs, b.Gives env before cs → ∀ x ∈ cs, ∀ v, x.value = .var v → column.carrier.same v = false

/-- The keys that ask for the column with a label: its name, its position, counted from one, and the qualified
names of the column. -/
inductive SortsBy (env : Environment) (b : Block) (column : ColumnInfo) (label : Identifier) (position : Nat) :
    Expr Q → Prop where
  | name {i : Identifier} (h : env.options.key i = env.options.key label) :
      SortsBy env b column label position (.reference ⟨[i]⟩)
  | ordinal {digits : String} (h : Text.nat? digits.toList = some (position + 1)) :
      SortsBy env b column label position (.literal (.exact false digits))
  | column {name : Name} (hqualified : 1 < name.segments.length)
      (h : ∀ n, name.resolveVariable b.scopes env n = (.ok (.column column), n)) :
      SortsBy env b column label position (.reference name)

/-- What such a key stands for, if the column has the carrier. -/
def SortTarget.Of (v : Variable) (position : Nat) (target : SortTarget) : Prop :=
  target = .output position ∨ target = .expr (.var v)

/-- Requests to sort in the same order, by the same or both by the column with the carrier. -/
def SortRequest.Like (v : Variable) (position : Nat) (s s' : SortRequest) : Prop :=
  s = s' ∨ s'.order = s.order ∧ SortTarget.Of v position s.target ∧ SortTarget.Of v position s'.target

/-- At a position of the select list stands the column with the carrier, and not before. -/
def FirstAt (v : Variable) (position : Nat) (columns : List SelectColumn) : Prop :=
  ∃ cs x cs', columns = cs ++ x :: cs' ∧ cs.length = position ∧ x.value = .var v ∧
    ∀ y ∈ cs, ∀ w, y.value = .var w → v.same w = false

/-- Clauses with that column that differ in the requests for it only. -/
def Clauses.Like (v : Variable) (position : Nat) (cl cl' : Clauses) : Prop :=
  FirstAt v position cl.columns ∧
    ∃ sorts, cl' = { cl with sorts } ∧ Forall₂ (SortRequest.Like v position) cl.sorts sorts

theorem outputNamed_unique {σ : Type} {cs cs' : List SelectColumn} {x : SelectColumn} {i : Identifier}
    (hx : x.name = some (env.options.key i)) (hcs : ∀ y ∈ cs ++ cs', y.name ≠ some (env.options.key i)) (s : σ) :
    (outputNamed (cs ++ x :: cs') ⟨[i]⟩ : Step σ _) env s = (.ok (some cs.length), s) := by
  have hnone : ∀ (l : List SelectColumn) (k : Nat), (∀ y ∈ l, y ∈ cs ++ cs') →
      (l.zipIdx k).filter (fun p => p.1.name == some (env.options.key i)) = [] := by
    intro l k hl
    refine List.filter_eq_nil_iff.mpr fun p hp => ?_
    simpa using hcs p.1 (hl p.1 (List.fst_mem_of_mem_zipIdx hp))
  have hkey : (Name.objectKey ⟨[i]⟩ : Step σ _) env s = (.ok (env.options.key i), s) := rfl
  rw [outputNamed, Step.bind_eq_of_ok hkey]
  have hfilter : (cs ++ x :: cs').zipIdx.filter (fun p => p.1.name == some (env.options.key i)) = [(x, cs.length)] := by
    rw [List.zipIdx_append, List.zipIdx_cons, List.filter_append, List.filter_cons, hnone cs 0 (by simp +contextual),
      hnone cs' _ (by simp +contextual)]
    simp [hx]
  rw [hfilter]
  rfl

theorem natBelow_of_nat {cs : List Char} {bound k : Nat} (h : Text.nat? cs = some k) (hk : k < bound) :
    Text.natBelow? bound cs = some k := by
  have hplain : (Text.stripStart? '+' cs).getD cs = cs := by
    cases cs with
    | nil => rfl
    | cons c cs =>
      have hc : c ≠ '+' := by
        rintro rfl
        simp [Text.nat?, Text.isDigit] at h
      simp [Text.stripStart?, hc]
  simp [Text.natBelow?, hplain, h, hk]

theorem sortTarget_sortsBy {cs cs' : List SelectColumn} {x : SelectColumn} {key : Expr Q}
    (hx : x.name = some (env.options.key label)) (hcs : ∀ y ∈ cs ++ cs', y.name ≠ some (env.options.key label))
    (h : b.SortsBy env column label cs.length key) :
    ∃ target, SortTarget.Of column.carrier cs.length target ∧
      ∀ n, b.sortTarget (cs ++ x :: cs') key env n = (.ok (target, false), n) := by
  cases h with
  | name hi =>
    rw [← hi] at hx hcs
    refine ⟨_, .inl rfl, fun n => ?_⟩
    rw [sortTarget, Step.bind_eq_of_ok (outputNamed_unique hx hcs n)]
    rfl
  | ordinal hdigits =>
    refine ⟨_, .inl rfl, fun n => ?_⟩
    rw [sortTarget, natBelow_of_nat hdigits (by simp)]
    rfl
  | @column name hqualified hname =>
    refine ⟨_, .inr rfl, fun n => ?_⟩
    have hexpr : b.sortExpr (.reference name : Expr Q) env n = (.ok (.expr (.var column.carrier), false), n) := by
      rw [sortExpr, Expr.resolve, Step.bind_assoc, Step.bind_eq_of_ok (hname n)]
      rfl
    rcases name with ⟨_ | ⟨i, _ | ⟨j, rest⟩⟩⟩
    · cases hqualified
    · simp at hqualified
    · exact hexpr

theorem selectItem_reference {name : Name} {p : List SelectColumn × Bool}
    (hname : ∀ n, name.resolveVariable b.scopes env n = (.ok (.column column), n))
    (h : b.selectItem (.expr (.reference name : Expr Q) (some label)) env n = (.ok p, m)) :
    ∃ x : SelectColumn, p = ([x], false) ∧ x.name = some (env.options.key label) ∧ x.value = .var column.carrier := by
  simp only [selectItem, Expr.resolve, Step.bind_ok, Step.options_ok, Step.pure_ok, hname, Prod.mk.injEq,
    Outcome.ok_inj] at h
  obtain ⟨_, _, ⟨rfl, rfl⟩, _, _, ⟨_, _, ⟨rfl, rfl⟩, rfl, rfl⟩, rfl, rfl⟩ := h
  exact ⟨_, rfl, rfl, rfl⟩

theorem Labels.columns {before after : List (SelectItem (Expr Q))} {name : Name}
    {items : List (List SelectColumn × Bool)} (hlabels : b.Labels env before after column label position)
    (hname : ∀ n, name.resolveVariable b.scopes env n = (.ok (.column column), n))
    (h : Step.collect ((before ++ .expr (.reference name) (some label) :: after).map b.selectItem) env n =
      (.ok items, m)) :
    ∃ cs x cs', items.flatMap (·.1) = cs ++ x :: cs' ∧ cs.length = position ∧
      x.name = some (env.options.key label) ∧ x.value = .var column.carrier ∧
      (∀ y ∈ cs ++ cs', y.name ≠ some (env.options.key label)) ∧
      ∀ y ∈ cs, ∀ v, y.value = .var v → column.carrier.same v = false := by
  rw [List.map_append, List.map_cons] at h
  obtain ⟨first, _, j, rfl, hfirst, hrest⟩ := Step.collect_append_ok.mp h
  obtain ⟨p, last, j', rfl, hp, hlast⟩ := Step.collect_cons_ok.mp hrest
  obtain ⟨x, rfl, hx, hvalue⟩ := selectItem_reference hname hp
  have hbefore : b.Gives env before (first.flatMap (·.1)) := ⟨_, first, j, hfirst, rfl⟩
  have hafter : b.Gives env after (last.flatMap (·.1)) := ⟨j', last, _, hlast, rfl⟩
  refine ⟨first.flatMap (·.1), x, last.flatMap (·.1), by simp, hlabels.width _ hbefore, hx, hvalue, ?_,
    hlabels.first _ hbefore⟩
  exact List.forall_mem_append.mpr ⟨hlabels.unique _ (.inl hbefore), hlabels.unique _ (.inr hafter)⟩

theorem sortRequests_sortsBy {cs cs' : List SelectColumn} {x : SelectColumn} {key key' : Expr Q}
    (hx : x.name = some (env.options.key label)) (hcs : ∀ y ∈ cs ++ cs', y.name ≠ some (env.options.key label))
    (hkey : b.SortsBy env column label cs.length key) (hkey' : b.SortsBy env column label cs.length key')
    (earlier later : List (SortItem (Expr Q))) (direction : Option SortDirection) :
    Step.Matches (fun _ => True)
      (Forall₂ fun p p' => SortRequest.Like column.carrier cs.length p.1 p'.1 ∧ p.2 = p'.2) env
      (Step.collect ((earlier ++ ⟨key, direction⟩ :: later).map (b.sortRequest (cs ++ x :: cs'))))
      (Step.collect ((earlier ++ ⟨key', direction⟩ :: later).map (b.sortRequest (cs ++ x :: cs')))) := by
  obtain ⟨target, htarget, hsort⟩ := sortTarget_sortsBy hx hcs hkey
  obtain ⟨target', htarget', hsort'⟩ := sortTarget_sortsBy hx hcs hkey'
  have hself : ∀ items : List (SortItem (Expr Q)), Forall₂ (fun item item' => Step.Matches (fun _ => True)
      (fun p p' => SortRequest.Like column.carrier cs.length p.1 p'.1 ∧ p.2 = p'.2) env
      (b.sortRequest (cs ++ x :: cs') item) (b.sortRequest (cs ++ x :: cs') item')) items items :=
    fun items => List.forall₂_same.mpr fun item _ s p t _ hp => ⟨trivial, p, hp, .inl rfl, rfl⟩
  refine Step.collect_matches (List.rel_append (hself earlier) (.cons ?_ (hself later)))
  intro s p t _ hp
  rw [sortRequest, Step.bind_eq_of_ok (hsort s)] at hp
  obtain ⟨rfl, rfl⟩ := Step.pure_ok.mp hp
  refine ⟨trivial, (⟨target', sortOrder direction, key'.span?⟩, false), ?_, .inr ⟨rfl, htarget, htarget'⟩, rfl⟩
  rw [sortRequest, Step.bind_eq_of_ok (hsort' s)]
  rfl

variable {s s' : SortRequest} {sorts sorts' : List SortRequest} {cl cl' cl₁ : Clauses} {g : GroupingState}
  {columns columns' : List SelectColumn}

theorem regroupSort_like (h : SortRequest.Like v position s s') :
    Step.Matches (fun g => g.aggregation.isUngrouped v = false) (SortRequest.Like v position) env (regroupSort s)
      (regroupSort s') := by
  intro g r g' hg hr
  refine ⟨(regroupSort_ok hr).1.isUngrouped_eq.trans hg, ?_⟩
  have hof : ∀ t : SortRequest, SortTarget.Of v position t.target → regroupSort t env g = (.ok t, g) := by
    rintro ⟨target, order, location⟩ (htarget | htarget)
    · cases htarget
      rfl
    · cases htarget
      have hvar : Aggregation.regroup location (.var v) env g = (.ok (.var v), g) :=
        Aggregation.regroup_var.mpr ⟨rfl, rfl, hg⟩
      exact Step.bind_eq_of_ok hvar
  rcases h with rfl | ⟨horder, htarget, htarget'⟩
  · exact ⟨r, hr, .inl rfl⟩
  · rw [hof s htarget] at hr
    cases hr
    exact ⟨s', hof s' htarget', .inr ⟨horder, htarget, htarget'⟩⟩

/-- Regrouping keeps the column as it is, so it is a grouping key, and none of those before it becomes the same. -/
theorem regroupColumns_firstAt {keys locals : List Variable} (hv : v.isStream = true) (hn : v.id ≤ n)
    (hfirst : FirstAt v position columns)
    (h : Step.collect (columns.map regroupColumn) env ⟨n, keys.foldl Aggregation.addKey { locals }⟩ =
      (.ok columns', g)) :
    g.aggregation.isUngrouped v = false ∧ FirstAt v position columns' := by
  obtain ⟨cs, x, cs', rfl, rfl, hx, hcs⟩ := hfirst
  rw [List.map_append, List.map_cons] at h
  obtain ⟨cs₂, _, g₁, rfl, hbefore, hrest⟩ := Step.collect_append_ok.mp h
  obtain ⟨x', cs₃, g₂, rfl, hx', hafter⟩ := Step.collect_cons_ok.mp hrest
  obtain ⟨rfl, rfl, hgrouped⟩ : x' = x ∧ g₂ = g₁ ∧ g₁.aggregation.isUngrouped v = false := by
    simp only [regroupColumn, hx, Step.bind_ok, Step.pure_ok, Aggregation.regroup_var] at hx'
    obtain ⟨_, _, ⟨rfl, rfl, hgrouped⟩, rfl, rfl⟩ := hx'
    exact ⟨by rw [← hx], rfl, hgrouped⟩
  have hlast := (collect_regroups _ (fun _ _ _ _ => regroupColumn_ok) hafter).1
  have hregroups := (collect_regroups _ (fun _ _ _ _ => regroupColumn_ok) hbefore).1
  refine ⟨hlast.isUngrouped_eq.trans hgrouped, cs₂, _, cs₃, rfl, (collect_forall₂ hbefore).length_eq.symm, hx, ?_⟩
  intro y hy w hw
  have hmem : y.value ∈ cs₂.flatMap fun x => [x.value] := List.mem_flatMap.mpr ⟨y, hy, List.mem_singleton_self _⟩
  rcases hregroups.asVariable? y.value hmem w (by rw [hw]; rfl) with ⟨e, he, hvar, -⟩ | ⟨e, he, rfl⟩
  · obtain ⟨z, hz, he⟩ := List.mem_flatMap.mp he
    rw [List.mem_singleton.mp he] at hvar
    exact hcs z hz w (Scalar.eq_var_of_asVariable? hvar)
  · -- the column of a call is newer than those of the FROM clause
    obtain ⟨-, -, -, hfresh, -⟩ := Aggregation.regroups_from_keys hregroups
    have hnew : n < e.destination.id := hfresh.above _ (List.mem_map_of_mem he)
    rw [Variable.same_of_stream hv (hfresh.stream _ (List.mem_map_of_mem he)), beq_eq_false_iff_ne]
    omega

theorem regroup_like {locals : List Variable} (hv : v.isStream = true) (hn : v.id ≤ n) (hlike : cl.Like v position cl₁)
    (h : regroup cl env ⟨n, cl.keys.foldl Aggregation.addKey { locals }⟩ = (.ok cl', g)) :
    ∃ cl₂, regroup cl₁ env ⟨n, cl.keys.foldl Aggregation.addKey { locals }⟩ = (.ok cl₂, g) ∧
      cl'.Like v position cl₂ := by
  obtain ⟨hfirst, sorts, rfl, hsorts⟩ := hlike
  simp only [regroup, Step.bind_ok, Step.both_ok, Step.pure_ok, Prod.exists] at h ⊢
  obtain ⟨columns, having, sorts₁, _, ⟨g₁, hcolumns, g₂, hhaving, hsorts₁⟩, rfl, rfl⟩ := h
  obtain ⟨hgrouped, hfirst'⟩ := regroupColumns_firstAt hv hn hfirst hcolumns
  have hcondition := (collect_regroups _ (fun _ _ _ _ => regroupCondition_ok) (collect_of_optional hhaving)).1
  obtain ⟨-, sorts', hsorts', hlike⟩ := Step.collect_matches (hsorts.imp fun _ _ => regroupSort_like) _ _ _
    (hcondition.isUngrouped_eq.trans hgrouped) hsorts₁
  exact ⟨_, ⟨columns, having, sorts', _, ⟨g₁, hcolumns, g₂, hhaving, hsorts'⟩, rfl, rfl⟩, hfirst', sorts', rfl, hlike⟩

theorem group_like {input output : Socket} {available : List Variable} {d d' : Draft} (hv : v.isStream = true)
    (hd : v.id ≤ d.minted) (hlike : cl.Like v position cl₁)
    (h : b.group cl input env d = (.ok (cl', output, available), d')) :
    ∃ cl₂, b.group cl₁ input env d = (.ok (cl₂, output, available), d') ∧ cl'.Like v position cl₂ := by
  have hsame : cl₁.active = cl.active ∧ cl₁.keys = cl.keys := by
    obtain ⟨-, sorts, rfl, -⟩ := hlike
    exact ⟨rfl, rfl⟩
  rw [group, hsame.1, hsame.2]
  by_cases hactive : cl.active = true
  · obtain ⟨d₁, a, hregroup, hg, hinstall, rfl⟩ := group_active hactive h
    obtain ⟨cl₂, hregroup', hlike'⟩ := regroup_like hv hd hlike hregroup
    refine ⟨cl₂, ?_, hlike'⟩
    have hrun : (cl.keys.foldl Aggregation.addKey { locals := b.locals }).run (regroup cl₁) env d =
        (.ok (cl₂, a), d₁) := by
      rw [Aggregation.run, hregroup', ← hg]
      rfl
    rw [if_pos hactive, Step.bind_eq_of_ok hrun]
    exact Step.bind_eq_of_ok hinstall
  · obtain ⟨rfl, rfl, rfl, rfl⟩ := group_inactive (Bool.not_eq_true _ ▸ hactive) h
    rw [if_neg hactive]
    exact ⟨cl₁, rfl, hlike⟩

/-- A column of the block that no select column before it is passed on as it is. -/
theorem projectColumns_passes {used : List Variable} {infos : List ColumnInfo} {computed : List (Variable × Scalar)}
    (hpass : b.isPassable v = true) (hn : v.id ≤ n) (hused : v.isIn used = false) (hfirst : FirstAt v position columns)
    (h : b.projectColumns used columns env n = (.ok (infos, computed), m)) :
    infos[position]?.map (·.carrier) = some v := by
  obtain ⟨cs, x, cs', rfl, rfl, hx, hcs⟩ := hfirst
  induction cs generalizing used infos computed n with
  | nil =>
    simp only [List.nil_append, projectColumns, projectColumn, hx, Scalar.asVariable?, hpass, hused, Bool.not_false,
      Bool.and_self, if_true, Step.bind_ok, Step.pure_ok, Prod.exists, Prod.mk.injEq] at h
    obtain ⟨_, _, _, ⟨⟨rfl, rfl⟩, rfl⟩, _, _, _, -, ⟨rfl, -⟩, -⟩ := h
    rfl
  | cons y cs ih =>
    simp only [List.cons_append, projectColumns, Step.bind_ok, Step.pure_ok, Prod.exists, Prod.mk.injEq] at h
    obtain ⟨info, first, k, hfirst, infos, more, _, hrest, ⟨rfl, rfl⟩, rfl⟩ := h
    obtain ⟨hy, hcs⟩ := List.forall_mem_cons.mp hcs
    have hnew : v.same info.carrier = false ∧ n ≤ k := by
      obtain ⟨w, rfl, ⟨hvalue, -, -, -, rfl⟩ | ⟨rfl, -, rfl⟩⟩ := projectColumn_cases hfirst
      · exact ⟨hy w hvalue, Nat.le_refl _⟩
      · refine ⟨?_, Nat.le_succ n⟩
        rw [Variable.same_of_stream (Bool.and_eq_true_iff.mp hpass).1 rfl, beq_eq_false_iff_ne]
        exact Nat.ne_of_lt (Nat.lt_succ_of_le hn)
    have hused' : v.isIn (info.carrier :: used) = false := Bool.or_eq_false_iff.mpr ⟨hnew.1, hused⟩
    exact ih (Nat.le_trans hn hnew.2) hused' hrest hcs

theorem sortColumns_like {distinct : Bool} {infos : List ColumnInfo} {available : List Variable}
    (hcolumn : infos[position]?.map (·.carrier) = some v) (h : Forall₂ (SortRequest.Like v position) sorts sorts') :
    sortColumns distinct infos available sorts' = sortColumns distinct infos available sorts := by
  have hof : ∀ s : SortRequest, SortTarget.Of v position s.target →
      sortColumn distinct infos available s = pure (v, none) := by
    rintro ⟨target, order, location⟩ (htarget | htarget)
    · cases htarget
      simp [sortColumn, hcolumn]
    · cases htarget
      have hin : v.isIn (infos.map (·.carrier)) = true := by
        obtain ⟨c, hc, rfl⟩ := Option.map_eq_some_iff.mp hcolumn
        exact Variable.isIn_of_mem (List.mem_map_of_mem (List.mem_of_getElem? hc))
      simp [sortColumn, Scalar.asVariable?, hin]
  induction h with
  | nil => rfl
  | cons hs _ ih =>
    rcases hs with rfl | ⟨horder, htarget, htarget'⟩
    · rw [sortColumns, sortColumns, ih]
    · rw [sortColumns, sortColumns, ih, hof _ htarget, hof _ htarget', horder]

theorem isPassable_of_mem_locals (hv : v.isStream = true) (hlocal : v ∈ b.locals) : b.isPassable v = true := by
  simp [isPassable, isOuter, hv, Variable.isIn_of_mem hlocal]

section

variable {c : SelectClauses (Expr Q)} {before after : List (SelectItem (Expr Q))} {name : Name}
  {earlier later : List (SortItem (Expr Q))} {key key' : Expr Q} {direction : Option SortDirection}
  (hlabels : b.Labels env before after column label position)
  (hitems : c.items = before ++ .expr (.reference name) (some label) :: after)
  (hname : ∀ n, name.resolveVariable b.scopes env n = (.ok (.column column), n))
  (hkey : b.SortsBy env column label position key) (hkey' : b.SortsBy env column label position key')

include hlabels hitems hname hkey hkey'

theorem clauses_like (h : b.clauses { c with orderBy := earlier ++ ⟨key, direction⟩ :: later } env n = (.ok cl, m)) :
    ∃ cl', b.clauses { c with orderBy := earlier ++ ⟨key', direction⟩ :: later } env n = (.ok cl', m) ∧
      cl.Like column.carrier position cl' := by
  simp only [clauses, Step.bind_ok, Step.pure_ok] at h
  obtain ⟨keys, k₁, hkeys, items, k₂, hcollect, having, k₃, hhaving, sorts, k₄, hsorts, limit, k₅, hlimit, rfl,
    rfl⟩ := h
  rw [hitems] at hcollect
  obtain ⟨cs, x, cs', hcolumns, rfl, hx, hvalue, hothers, hfirst⟩ := hlabels.columns hname hcollect
  rw [hcolumns] at hsorts
  obtain ⟨-, sorts', hsorts', hlike⟩ := sortRequests_sortsBy hx hothers hkey hkey' _ _ _ _ _ _ trivial hsorts
  have hany : sorts.any (·.2) = sorts'.any (·.2) := any_eq_of_forall₂ (hlike.imp fun _ _ h => h.2)
  rw [← hitems] at hcollect
  rw [← hcolumns] at hsorts'
  simp only [clauses, Step.bind_ok, Step.pure_ok]
  refine ⟨_, ⟨keys, k₁, hkeys, items, k₂, hcollect, having, k₃, hhaving, sorts', k₄, hsorts', limit, _, hlimit, rfl,
    rfl⟩, ⟨cs, x, cs', hcolumns, rfl, hvalue, hfirst⟩, sorts'.map (·.1), by rw [hany], ?_⟩
  rw [List.forall₂_map_left_iff, List.forall₂_map_right_iff]
  exact hlike.imp fun _ _ h => h.1

theorem plan_like {outer : Scopes} {source : Source} {d d₁ d₂ : Draft} {p : Planned} (hsource : Yields d source d₁)
    (hb : b = ⟨source.relations, outer⟩)
    (h : Block.plan outer source { c with orderBy := earlier ++ ⟨key, direction⟩ :: later } env d₁ = (.ok p, d₂)) :
    Block.plan outer source { c with orderBy := earlier ++ ⟨key', direction⟩ :: later } env d₁ = (.ok p, d₂) := by
  simp only [Block.plan, Step.bind_ok, Planning.lift_ok, Step.pure_ok, Prod.exists] at h ⊢
  subst hb
  obtain ⟨condition, d₃, ⟨hcondition, hg₃⟩, o₁, d₄, ho₁, cl, d₅, ⟨hclauses, hg₅⟩, cl', o₂, available, d₆, hgroup, o₃,
    d₇, ho₃, columns, computed, d₈, ⟨hcolumns, hg₈⟩, keys, more, d₉, ⟨hsorts, hg₉⟩, hrest⟩ := h
  obtain ⟨cl₁, hclauses', hlike⟩ := clauses_like hlabels hitems hname hkey hkey' hclauses
  -- the column was minted with the FROM clause, before everything else of the block
  have hlocal := mem_locals (b := ⟨source.relations, outer⟩) hlabels.source
  obtain ⟨hstream, -, hminted⟩ : column.carrier.isStream = true ∧ d.minted < column.carrier.id ∧
      column.carrier.id ≤ d₁.minted := hsource.within _ (mem_bindings hlabels.source)
  have hle₅ : column.carrier.id ≤ d₅.minted := by
    have hle := condition_minted_le hcondition
    have hle' := (addFilter_introduces ho₁).1.minted_le
    have hle'' := (clauses_ok hclauses).1
    omega
  have hle₇ : column.carrier.id ≤ d₇.minted :=
    Nat.le_trans hle₅ (Nat.le_trans (group_introduces hgroup).1.minted_le (addFilter_introduces ho₃).1.minted_le)
  obtain ⟨cl₂, hgroup', hfirst, sorts', rfl, hlike'⟩ := group_like hstream hle₅ hlike hgroup
  have hcarrier := projectColumns_passes (isPassable_of_mem_locals hstream hlocal) hle₇ rfl hfirst hcolumns
  refine ⟨condition, d₃, ⟨hcondition, hg₃⟩, o₁, d₄, ho₁, _, d₅, ⟨hclauses', hg₅⟩, _, o₂, available, d₆, hgroup', o₃, d₇,
    ho₃, columns, computed, d₈, ⟨hcolumns, hg₈⟩, keys, more, d₉, ⟨?_, hg₉⟩, hrest⟩
  rw [sortColumns_like hcarrier hlike']
  exact hsorts

end

end Block

/-- A block whose select list has a column of the FROM clause under a name of its own, and not before, is planned
the same with each key that asks for the column, or with none. -/
theorem Query.plan_sortsBy {outer : Scopes} {tables : List (TableRef (Expr Q))} {c : SelectClauses (Expr Q)}
    {d d₁ : Draft} {source : Source} {before after : List (SelectItem (Expr Q))} {name : Name} {label : Identifier}
    {column : ColumnInfo} {position : Nat} (hfrom : planFrom outer tables env d = (.ok source, d₁))
    (hlabels : Block.Labels env ⟨source.relations, outer⟩ before after column label position)
    (hitems : c.items = before ++ .expr (.reference name) (some label) :: after)
    (hname : ∀ n, name.resolveVariable (Block.scopes ⟨source.relations, outer⟩) env n = (.ok (.column column), n))
    (earlier later : List (SortItem (Expr Q))) (direction : Option SortDirection) {key key' : Expr Q}
    (hkey : Block.SortsBy env ⟨source.relations, outer⟩ column label position key)
    (hkey' : Block.SortsBy env ⟨source.relations, outer⟩ column label position key') (p : Planned) (d' : Draft) :
    (Query.select tables { c with orderBy := earlier ++ ⟨key, direction⟩ :: later }).plan outer env d = (.ok p, d') ↔
      (Query.select tables { c with orderBy := earlier ++ ⟨key', direction⟩ :: later }).plan outer env d =
        (.ok p, d') := by
  have hyields : Yields d source d₁ := (planFrom_plans outer tables hfrom).yields
  rw [Query.plan, Query.plan, Step.bind_eq_of_ok hfrom, Step.bind_eq_of_ok hfrom]
  exact ⟨Block.plan_like hlabels hitems hname hkey hkey' hyields rfl,
    Block.plan_like hlabels hitems hname hkey' hkey hyields rfl⟩

namespace Sample

def rowsOfA : Source := (planFrom [] [relation "a"] sums.environment ⟨0, .empty⟩).1.toOption.getD default

def columnOfA : ColumnInfo := (rowsOfA.relations.flatMap (·.columns)).getD 1 default

/-- `DISTINCT sum(x), a.y AS k ... GROUP BY y HAVING sum(x) < 9 LIMIT 3` -/
def sumsByKey : SelectClauses (Expr Unit) where
  quantifier := some .distinct
  items := [.expr (sum (column ["x"])) none, .expr (column ["a", "y"]) (some (.quoted "k"))]
  groupBy := [column ["y"]]
  having := some (.comparison .less (sum (column ["x"])) (literal "9"))
  limit := some (literal "3")

/-- `... ORDER BY 1, key DESC` -/
def sumsSorted (key : Expr Unit) : Query (Expr Unit) :=
  .select [relation "a"] { sumsByKey with orderBy := [⟨literal "1", none⟩, ⟨key, some .descending⟩] }

theorem labels_sumsByKey : Block.Labels sums.environment ⟨rowsOfA.relations, []⟩
    [.expr (sum (column ["x"])) none] [] columnOfA (.quoted "k") 1 := by
  let results := (Step.collect [Block.selectItem ⟨rowsOfA.relations, []⟩ (.expr (sum (column ["x"])) none)]
    sums.environment 0).1.toOption.getD []
  have hbefore : ∀ cs, Block.Gives sums.environment ⟨rowsOfA.relations, []⟩ [.expr (sum (column ["x"])) none] cs →
      cs = results.flatMap (·.1) := by
    rintro _ ⟨n, items, m, h, rfl⟩
    have hrun : Step.collect [Block.selectItem ⟨rowsOfA.relations, []⟩ (.expr (sum (column ["x"])) none)]
      sums.environment n = (.ok results, n) := rfl
    cases hrun.symm.trans h
    rfl
  have hafter : ∀ cs, Block.Gives sums.environment ⟨rowsOfA.relations, []⟩ ([] : List (SelectItem (Expr Unit))) cs →
      cs = [] := by
    rintro _ ⟨n, items, m, h, rfl⟩
    obtain ⟨rfl, -⟩ := Step.collect_nil_ok.mp h
    rfl
  have hnone : ∀ x ∈ results.flatMap (·.1), x.name = none ∧ x.value.asVariable?.isNone = true := by decide +kernel
  refine ⟨by decide +kernel, fun cs hcs => ?_, fun cs hcs x hx => ?_, fun cs hcs x hx v hv => ?_⟩
  · rw [hbefore cs hcs]
    decide +kernel
  · rcases hcs with hcs | hcs
    · rw [(hnone x (hbefore cs hcs ▸ hx)).1]
      simp
    · rw [hafter cs hcs] at hx
      cases hx
  · have hvalue := (hnone x (hbefore cs hcs ▸ hx)).2
    rw [hv] at hvalue
    cases hvalue

end Sample

/-- The three keys give one plan. -/
theorem Query.plan_sortsBy_sumsSorted :
    ∃ p d', ∀ key ∈ [Sample.column ["k"], Sample.literal "2", Sample.column ["a", "y"]],
    (Sample.sumsSorted key).plan [] Sample.sums.environment ⟨0, .empty⟩ = (.ok p, d') := by
  have hfrom : planFrom [] [Sample.relation "a"] Sample.sums.environment ⟨0, .empty⟩ =
    (.ok Sample.rowsOfA, (planFrom [] [Sample.relation "a"] Sample.sums.environment ⟨0, .empty⟩).2) := rfl
  have hname : ∀ n, Name.resolveVariable ⟨[.quoted "a", .quoted "y"]⟩ (Block.scopes ⟨Sample.rowsOfA.relations, []⟩)
      Sample.sums.environment n = (.ok (.column Sample.columnOfA), n) := fun n => rfl
  have hok : ((Sample.sumsSorted (Sample.column ["k"])).plan [] Sample.sums.environment ⟨0, .empty⟩).1.isOk = true := by
    decide +kernel
  obtain ⟨p, d', h⟩ := Step.exists_ok hok
  refine ⟨p, d', ?_⟩
  have hkey : Block.SortsBy Sample.sums.environment ⟨Sample.rowsOfA.relations, []⟩ Sample.columnOfA (.quoted "k") 1
      (Sample.column ["k"]) := .name rfl
  have hsame : ∀ key, Block.SortsBy Sample.sums.environment ⟨Sample.rowsOfA.relations, []⟩ Sample.columnOfA
      (.quoted "k") 1 key →
      (Sample.sumsSorted key).plan [] Sample.sums.environment ⟨0, .empty⟩ = (.ok p, d') :=
    fun key hkey' => (plan_sortsBy hfrom Sample.labels_sumsByKey rfl hname [⟨Sample.literal "1", none⟩] []
      (some .descending) hkey hkey' p d').mp h
  simp only [List.forall_mem_cons, List.not_mem_nil, false_implies, implies_true, and_true]
  exact ⟨h, hsame _ (.ordinal (by decide +kernel)), hsame _ (.column (by decide) hname)⟩

end SqlPlan
