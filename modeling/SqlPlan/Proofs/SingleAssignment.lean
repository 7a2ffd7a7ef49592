import SqlPlan.Proofs.IntroducedColumns
import SqlPlan.Proofs.PlanSoundness

namespace SqlPlan

open List (Forall₂)

variable {Q : Type} {env : Environment} {outer : Scopes} {d d₁ d₂ d₃ : Draft} {n m : Nat}
variable {v : Variable} {scopes : Scopes} {ss : List Scalar} {computed : List (Variable × Scalar)}
  {columns : List ColumnInfo} {active : Bool} {s : Scalar} {t : SqlType} {c : Clauses} {available : List Variable}
  {cs : List SelectColumn} {source : Source} {p : Planned}

theorem Scalar.asVariable?_negatedIf {negated : Bool} {x : Scalar} (h : x.asVariable? = none) :
    (x.negatedIf negated).asVariable? = none := by
  cases negated with
  | true => rfl
  | false => exact h

/-- Whether the variable has one value for all rows: a host parameter or a variable of a schema. -/
def Variable.isConstant (v : Variable) : Bool :=
  match v.kind with
  | .host _ => true
  | .external _ => true
  | _ => false

theorem Variable.isConstant_of_isMinted (h : v.isMinted = true) : v.isConstant = false := by
  cases hk : v.kind <;> simp_all [isMinted, isConstant]

namespace Expr

/-- Whether the expression is nothing but a variable: a column, a variable of a schema or a declared host
parameter. -/
def isVariable (env : Environment) : Expr Q → Bool
  | reference _ => true
  | hostParameter name _ =>
    (env.hostParameter? (String.ofList ((Text.stripStart? ':' name.toList).getD name.toList))).isSome
  | _ => false

/-- Whether the expression is nothing but a variable that has one value for all rows. -/
def isConstant (env : Environment) (scopes : Scopes) : Expr Q → Bool
  | reference name => name.isExternal env scopes
  | e => e.isVariable env

/-- The variable that an expression resolves to, if it is nothing but one. -/
inductive StandsFor (env : Environment) (scopes : Scopes) : Expr Q → Option Variable → Prop where
  | column {name c} : c ∈ scopes.visible → name.isExternal env scopes = false →
      StandsFor env scopes (.reference name) (some c.carrier)
  | external {name v} : name.isExternal env scopes = true → v.isConstant = true →
      StandsFor env scopes (.reference name) (some v)
  | host {name span v} : (env.hostParameter? (Form.parameterKey name)).isSome = true → v.isConstant = true →
      StandsFor env scopes (.hostParameter name span) (some v)
  | none {e} : e.isVariable env = false → StandsFor env scopes e none

end Expr

theorem Elaborates.standsFor {p : Position} {es : List (Expr Q)} {xs : List Typed}
    (h : Elaborates env scopes p es n xs m) : Forall₂ (Expr.StandsFor env scopes) es (xs.map (·.expr.asVariable?)) := by
  induction h with
  | nil => exact .nil
  | cons _ _ ih ih' =>
    cases ih with
    | cons h _ => exact .cons h ih'
  | literal _ hx | negated _ _ hx =>
    rcases Literal.typed_ok hx with ⟨v, t, rfl⟩ | ⟨v, t, u, rfl⟩ <;> exact .cons (.none rfl) .nil
  | reference hr =>
    rcases Name.resolveVariable_cases hr with ⟨c, hc, rfl, -, hname⟩ | ⟨decl, rfl, -, hname, -⟩
    · exact .cons (.column hc hname) .nil
    · exact .cons (.external hname rfl) .nil
  | hostParameter hx =>
    rcases Form.hostParameter_ok hx with ⟨decl, rfl, -, hdecl⟩ | ⟨v, t, rfl, -, hdecl, -⟩
    · exact .cons (.host (by rw [hdecl]; rfl) rfl) .nil
    · exact .cons (.none (congrArg Option.isSome hdecl)) .nil
  | test | isTest | between | betweenSymmetric | inList | pattern | patternEscape =>
    rw [List.map_singleton, Typed.truth, Scalar.asVariable?_negatedIf rfl]
    exact .cons (.none rfl) .nil
  | _ => exact .cons (.none rfl) .nil

theorem Elaborates.variable_cases {p : Position} {es : List (Expr Q)} {xs : List Typed}
    (h : Elaborates env scopes p es n xs m) {x : Typed} (hx : x ∈ xs) (hv : x.expr.asVariable? = some v) :
    (∃ c ∈ scopes.visible, v = c.carrier) ∨ v.isConstant = true := by
  obtain ⟨e, -, he⟩ := exists_of_forall₂ h.standsFor _ (List.mem_map_of_mem hx)
  rw [hv] at he
  cases he with
  | column hc _ => exact .inl ⟨_, hc, rfl⟩
  | external _ hv | host _ hv => exact .inr hv

/-- Regrouping leaves a column as it is, which then may be used outside of calls, or makes one of an aggregate
call. -/
theorem Regroups.asVariable? {ss' : List Scalar} {r r' : Regrouping} (h : Regroups ss r ss' r') :
    ∀ s' ∈ ss', ∀ v, s'.asVariable? = some v →
      (∃ s ∈ ss, s.asVariable? = some v ∧ r'.aggregation.isUngrouped v = false) ∨
        ∃ e ∈ r'.aggregation.entries, v = e.destination := by
  induction h with
  | nil => simp
  | cons _ hrest ih ih' =>
    refine List.forall_mem_cons.mpr ⟨fun v hv => ?_, fun s' hs' v hv => ?_⟩
    · rcases ih _ (List.mem_singleton_self _) v hv with ⟨s, hs, hsv, hgrouped⟩ | ⟨e, he, rfl⟩
      · rw [List.mem_singleton.mp hs] at hsv
        refine .inl ⟨_, List.mem_cons_self, hsv, ?_⟩
        rwa [Aggregation.isUngrouped, hrest.grows.locals, hrest.grows.keys]
      · exact .inr ⟨e, hrest.grows.mem_entries he, rfl⟩
    · rcases ih' s' hs' v hv with ⟨s, hs, hsv⟩ | hentry
      · exact .inl ⟨s, List.mem_cons_of_mem _ hs, hsv⟩
      · exact .inr hentry
  | var hgrouped =>
    rw [List.forall_mem_singleton]
    intro v hv
    cases hv
    exact .inl ⟨_, List.mem_singleton_self _, rfl, hgrouped⟩
  | aggregate hflat hregister =>
    rw [List.forall_mem_singleton]
    intro v hv
    cases hv
    obtain ⟨-, ⟨e, he, rfl, -⟩, -⟩ := Regrouping.register_ok hregister hflat
    exact .inr ⟨e, he, rfl⟩
  | _ => simp [Scalar.asVariable?]

namespace Block

variable {b : Block} {input output : Socket}

theorem addIf_introduces {needed : Bool} {operator : Operator}
    (h : addIf needed operator input env d₁ = (.ok output, d₂)) (hle : d.minted ≤ d₁.minted)
    (hg : d₁.graph = d.graph) (hfresh : Fresh d.minted operator.introduced d₁.minted) :
    Introduces d d₂ ∧ d₂.minted = d₁.minted := by
  rcases addIf_cases h with ⟨-, -, rfl⟩ | ⟨-, -, hm, hg₂⟩
  · exact ⟨.mint hle hg, rfl⟩
  · rw [hg] at hg₂
    exact ⟨.insert (by omega) hg₂ (hm ▸ hfresh), hm⟩

theorem addFilter_introduces {condition : Option Scalar} (h : addFilter condition input env d = (.ok output, d₁)) :
    Introduces d d₁ ∧ d₁.minted = d.minted := by
  cases condition with
  | none =>
    obtain ⟨-, rfl⟩ := Step.pure_ok.mp h
    exact ⟨.mint (Nat.le_refl _) rfl, rfl⟩
  | some c =>
    simp only [addFilter, Planning.add_ok] at h
    obtain ⟨-, hm, hg⟩ := h
    exact ⟨.insert (Nat.le_of_eq hm.symm) hg (.nil _ _), hm⟩

end Block

/-- The aggregate operator introduces the columns of the calls, and a projection before it those of their
arguments, which are minted later. -/
theorem Aggregation.install_introduces {a : Aggregation} {input output : Socket} (hle : d.minted ≤ d₁.minted)
    (hg : d₁.graph = d.graph) (hfresh : Fresh d.minted (a.entries.map (·.destination)) d₁.minted)
    (h : a.install input env d₁ = (.ok output, d₂)) : Introduces d d₂ ∧ d₁.minted ≤ d₂.minted := by
  obtain ⟨columns, computed, d₃, o, d₄, hcolumns, hg₃, ho, -, hm₂, hg₂⟩ := install_ok h
  obtain ⟨hle₃, hfresh₃, -, hcalls⟩ := aggregateColumns_cases hcolumns
  obtain ⟨⟨hle₄, new, vs, hops, hperm, hfresh₄⟩, hm₄⟩ := Block.addIf_introduces ho hle₃ hg₃ hfresh₃
  have hdestinations := map_eq_of_forall₂ (hcalls.imp fun _ _ h => h.1)
  refine ⟨⟨by omega, new ++ [.aggregate a.keys columns], a.entries.map (·.destination) ++ vs, ?_, ?_, ?_⟩, by omega⟩
  · rw [hg₂, Graph.operators_insert, hops, hg, List.append_assoc]
  · rw [List.flatMap_append, List.flatMap_singleton, Operator.introduced, hdestinations]
    exact (hperm.append_left _).trans List.perm_append_comm
  · exact hm₂ ▸ hfresh.append hfresh₄ hle hle₄

namespace Block

variable {b : Block} {input output : Socket} {lo : Nat}

theorem Value.variable_cases (h : Value env scopes active s t) (hv : s.asVariable? = some v) :
    (∃ c ∈ scopes.visible, v = c.carrier) ∨ v.isConstant = true := by
  cases h with
  | column hc =>
    cases hv
    exact .inl ⟨_, hc, rfl⟩
  | expr hel => exact hel.variable_cases (List.mem_singleton_self _) hv

theorem Value.mem_visible (h : Value env scopes active s t) (hv : s.asVariable? = some v) (hs : v.isMinted = true) :
    ∃ c ∈ scopes.visible, v = c.carrier :=
  (h.variable_cases hv).resolve_right (by simp [Variable.isConstant_of_isMinted hs])

theorem Clauses.Resolved.value (h : c.Resolved env b) : ∀ s ∈ c.exprs, ∃ t, Value env b.scopes c.active s t := by
  intro s hs
  simp only [Clauses.exprs, List.mem_append, List.mem_flatMap, List.mem_singleton, Option.mem_toList] at hs
  rcases hs with ⟨x, hx, rfl⟩ | ⟨x, hx, rfl⟩ | ⟨sort, hsort, hs⟩
  · exact ⟨x.type, h.columns x hx⟩
  · exact h.having x hx
  · have hresolved := h.sorts sort hsort
    cases htarget : sort.target with
    | output i => simp [htarget, SortTarget.exprs] at hs
    | expr e =>
      rw [htarget] at hresolved hs
      rw [List.mem_singleton.mp hs]
      exact hresolved

theorem value_mem_exprs {x : SelectColumn} (hx : x ∈ c.columns) : x.value ∈ c.exprs := by
  simp only [Clauses.exprs, List.mem_append, List.mem_flatMap, List.mem_singleton]
  exact .inl ⟨x, hx, rfl⟩

/-- A column over grouped rows was one before, or is that of an aggregate call. -/
theorem group_introduces {c' : Clauses} (h : b.group c input env d = (.ok (c', output, available), d₁)) :
    Introduces d d₁ ∧ ∀ x ∈ c'.columns, ∀ v, x.value.asVariable? = some v →
      (∃ s ∈ c.exprs, s.asVariable? = some v) ∨ (d.minted < v.id ∧ v.id ≤ d₁.minted) := by
  cases hactive : c.active with
  | false =>
    obtain ⟨rfl, -, -, rfl⟩ := group_inactive hactive h
    exact ⟨.mint (Nat.le_refl _) rfl, fun x hx v hv => .inl ⟨x.value, value_mem_exprs hx, hv⟩⟩
  | true =>
    obtain ⟨d₂, a, hregroup, hg, hinstall, -⟩ := group_active hactive h
    have hregroups := (regroup_ok hregroup).1
    obtain ⟨-, -, hle, hfresh, -⟩ := Aggregation.regroups_from_keys hregroups
    obtain ⟨hintroduces, hle'⟩ := Aggregation.install_introduces hle hg hfresh hinstall
    refine ⟨hintroduces, fun x hx v hv => ?_⟩
    rcases hregroups.asVariable? x.value (value_mem_exprs hx) v hv with ⟨s, hs, hsv, -⟩ | ⟨e, he, rfl⟩
    · exact .inl ⟨s, hs, hsv⟩
    · have hmem : e.destination ∈ a.entries.map (·.destination) := List.mem_map_of_mem he
      exact .inr ⟨hfresh.above _ hmem, Nat.le_trans (hfresh.upTo _ hmem) hle'⟩

theorem isIn_locals_of_isPassable {c : ColumnInfo} (hc : c ∈ b.scopes.visible)
    (hpass : b.isPassable c.carrier = true) : c.carrier.isIn b.locals = true := by
  simp only [isPassable, Bool.and_eq_true, Bool.not_eq_true', isOuter, Bool.and_eq_false_iff,
    Bool.not_eq_false'] at hpass
  obtain ⟨-, hlocal⟩ := hpass
  have hvisible : c ∈ b.relations.flatMap (·.columns) ∨ c ∈ b.outer.visible := by
    simpa [Scopes.visible, scopes, scope] using hc
  rcases hvisible with hmem | hmem
  · exact Variable.isIn_of_mem (mem_locals hmem)
  · refine hlocal.resolve_right fun hnone => ?_
    obtain ⟨scope, hscope, hmem⟩ := List.mem_flatMap.mp hmem
    obtain ⟨r, hr, hmem⟩ := List.mem_flatMap.mp hmem
    have hfound : (r.columnOf? c.carrier).isSome = true :=
      List.find?_isSome.mpr ⟨c, hmem, Variable.same_self _⟩
    have houter : b.outer.any (fun scope => scope.relations.any fun r => (r.columnOf? c.carrier).isSome) = true :=
      List.any_eq_true.mpr ⟨scope, hscope, List.any_eq_true.mpr ⟨r, hr, hfound⟩⟩
    rw [houter] at hnone
    cases hnone

theorem within_of_isIn_locals (hv : v.isIn b.locals = true) (hb : Columns.Within lo (bindings b.relations) n) :
    lo < v.id ∧ v.id ≤ n := by
  obtain ⟨w, hw, hsame⟩ := Variable.isIn_iff.mp hv
  obtain ⟨col, hcol, rfl⟩ := exists_column_of_mem_locals hw
  obtain ⟨hws, hlow, hhigh⟩ := hb _ (mem_bindings hcol)
  rw [Variable.id_eq_of_same hws hsame]
  exact ⟨hlow, hhigh⟩

theorem sortColumns_fresh {distinct : Bool} {sorts : List SortRequest} {keys : List SortKey}
    (h : sortColumns distinct columns available sorts env n = (.ok (keys, computed), m)) :
    n ≤ m ∧ Fresh n (computed.map (·.1)) m := by
  induction sorts generalizing keys computed n with
  | nil =>
    simp only [sortColumns, Step.pure_ok, Prod.mk.injEq] at h
    obtain ⟨⟨rfl, rfl⟩, rfl⟩ := h
    exact ⟨Nat.le_refl _, .nil _ _⟩
  | cons s sorts ih =>
    simp only [sortColumns, Step.bind_ok, Step.pure_ok, Prod.exists, Prod.mk.injEq] at h
    obtain ⟨v, first, k, hfirst, keys, more, _, hrest, ⟨rfl, rfl⟩, rfl⟩ := h
    obtain ⟨hle, hfresh⟩ : n ≤ k ∧ Fresh n (first.toList.map (·.1)) k := by
      obtain ⟨_, -, -, rfl, rfl⟩ | ⟨e, -, ⟨-, -, rfl, rfl⟩ | ⟨-, rfl, rfl, rfl⟩⟩ := sortColumn_cases hfirst
      · exact ⟨Nat.le_refl _, .nil _ _⟩
      · exact ⟨Nat.le_refl _, .nil _ _⟩
      · exact ⟨Nat.le_succ n, .cons (Nat.le_refl _) (.nil _ _)⟩
    obtain ⟨hle', hfresh'⟩ := ih hrest
    rw [List.map_append]
    exact ⟨Nat.le_trans hle hle', hfresh.append hfresh' hle hle'⟩

/-- Select columns become the columns of a result by a projection, which also computes what is needed to
sort. -/
def Projects (env : Environment) (b : Block) (cs : List SelectColumn) (d : Draft) (columns : List ColumnInfo)
    (d' : Draft) : Prop :=
  ∃ (computed more : List (Variable × Scalar)) (k : Nat) (d₁ : Draft) (needed : Bool) (input output : Socket),
    b.projectColumns [] cs env d.minted = (.ok (columns, computed), k) ∧ k ≤ d₁.minted ∧ d₁.graph = d.graph ∧
    Fresh d.minted ((computed ++ more).map (·.1)) d₁.minted ∧ (needed = false → computed ++ more = []) ∧
    addIf needed (.project (computed ++ more)) input env d₁ = (.ok output, d')

theorem Projects.introduces (h : Projects env b cs d columns d₁) : Introduces d d₁ := by
  obtain ⟨computed, more, k, d₂, needed, input, output, hcolumns, hk, hg, hfresh, -, hadd⟩ := h
  obtain ⟨hle, -, -⟩ := projectColumns_computed hcolumns
  exact (addIf_introduces hadd (Nat.le_trans hle hk) hg hfresh).1

theorem Projects.distinguished (h : Projects env b cs d columns d₁) (hlo : lo ≤ d.minted)
    (hcs : ∀ c ∈ cs, ∀ v, c.value = .var v → b.isPassable v = true → lo < v.id ∧ v.id ≤ d.minted) :
    Distinguished lo [] columns d₁.minted := by
  obtain ⟨computed, more, k, d₂, needed, input, output, hcolumns, hk, hg, hfresh, -, hadd⟩ := h
  obtain ⟨hle, -, -⟩ := projectColumns_computed hcolumns
  obtain ⟨-, hm⟩ := addIf_introduces hadd (Nat.le_trans hle hk) hg hfresh
  have hdistinct := projectColumns_distinguished hlo (by simp) hcs hcolumns
  refine { hdistinct with within := fun c hc => ?_ }
  obtain ⟨hlow, hhigh⟩ := hdistinct.within c hc
  exact ⟨hlow, by omega⟩

/-- The stages of a block. The rows of the FROM clause are filtered and grouped, the select columns are
projected, and what comes after that introduces no column. -/
theorem plan_stages {c : SelectClauses (Expr Q)} (h : Block.plan outer source c env d = (.ok p, d₁)) :
    ∃ (clauses clauses' : Clauses) (columns : List ColumnInfo) (filtered grouped selected projected : Draft)
      (n : Nat) (o o₁ : Socket) (available : List Variable),
      Introduces d filtered ∧
      Block.clauses ⟨source.relations, outer⟩ c env n = (.ok clauses, filtered.minted) ∧
      Block.group ⟨source.relations, outer⟩ clauses o env filtered = (.ok (clauses', o₁, available), grouped) ∧
      Introduces grouped selected ∧
      Projects env ⟨source.relations, outer⟩ clauses'.columns selected columns projected ∧
      Introduces projected d₁ ∧ d₁.minted = projected.minted ∧ p.relation = { columns } := by
  simp only [Block.plan, Step.bind_ok, Planning.lift_ok, Step.pure_ok, Prod.exists] at h
  obtain ⟨condition, d₃, ⟨hcondition, hg₃⟩, o₁, d₄, ho₁, clauses, d₅, ⟨hclauses, hg₅⟩, clauses', o₂,
    available, d₆, hgroup, o₃, d₇, ho₃, columns, computed, d₈, ⟨hcolumns, hg₈⟩, keys, more, d₉,
    ⟨hsorts, hg₉⟩, o₄, d₁₀, ho₄, o₅, d₁₁, ho₅, o₆, _, ho₆, rfl, rfl⟩ := h
  have hle₃ := condition_minted_le hcondition
  obtain ⟨hwhere, -⟩ := addFilter_introduces ho₁
  obtain ⟨hle₅, -⟩ := clauses_ok hclauses
  obtain ⟨hhaving, -⟩ := addFilter_introduces ho₃
  obtain ⟨hle₈, hfresh₈, -⟩ := projectColumns_computed hcolumns
  obtain ⟨hle₉, hfresh₉⟩ := sortColumns_fresh hsorts
  obtain ⟨hunique, hm⟩ := addIf_introduces ho₅ (Nat.le_refl _) rfl (.nil _ _)
  obtain ⟨hlimit, hm'⟩ := addIf_introduces ho₆ (Nat.le_refl _) rfl (.nil _ _)
  have hfresh : Fresh d₇.minted ((computed ++ more).map (·.1)) d₉.minted := by
    rw [List.map_append]
    exact hfresh₈.append hfresh₉ hle₈ hle₉
  have hneeded : (c.items.any isExpr || !(computed ++ more).isEmpty) = false → computed ++ more = [] := by
    intro hnone
    simpa using (Bool.or_eq_false_iff.mp hnone).2
  have hrows : Introduces d d₅ := ((Introduces.mint hle₃ hg₃).trans hwhere).trans (.mint hle₅ hg₅)
  have hprojects : Projects env ⟨source.relations, outer⟩ clauses'.columns d₇ columns d₁₀ :=
    ⟨computed, more, _, d₉, _, _, _, hcolumns, hle₉, hg₉.trans hg₈, hfresh, hneeded, ho₄⟩
  exact ⟨clauses, clauses', columns, d₅, d₆, d₇, d₁₀, _, _, _, available, hrows, hclauses, hgroup, hhaving,
    hprojects, hunique.trans hlimit, hm'.trans hm, rfl⟩

theorem plan_yields (hsource : Yields d source d₁) {c : SelectClauses (Expr Q)}
    (h : Block.plan outer source c env d₁ = (.ok p, d₂)) : Yields d p.source d₂ := by
  obtain ⟨clauses, clauses', columns, d₃, d₄, d₅, d₆, _, _, _, _, hrows, hclauses, hgroup, hhaving, hprojects, hafter,
    -, hrelation⟩ := plan_stages h
  obtain ⟨-, hresolved⟩ := clauses_ok hclauses
  obtain ⟨hgrouped, hvalues⟩ := group_introduces hgroup
  have hbefore : Introduces d d₅ := ((hsource.introduces.trans hrows).trans hgrouped).trans hhaving
  -- a column that the result takes over is one of the block or one of an aggregate call
  have hpassed : ∀ x ∈ clauses'.columns, ∀ v, x.value = .var v →
      Block.isPassable ⟨source.relations, outer⟩ v = true → d.minted < v.id ∧ v.id ≤ d₅.minted := by
    intro x hx v hv hpass
    have hle := hrows.minted_le
    have hle' := hgrouped.minted_le
    have hle'' := hhaving.minted_le
    have hlow := hsource.introduces.minted_le
    rcases hvalues x hx v (by rw [hv]; rfl) with ⟨s, hs, hsv⟩ | hnew
    · obtain ⟨t, ht⟩ := hresolved.value s hs
      obtain ⟨col, hcol, rfl⟩ := ht.mem_visible hsv (Variable.isMinted_of_stream (Bool.and_eq_true_iff.mp hpass).1)
      have hwithin := within_of_isIn_locals (isIn_locals_of_isPassable hcol hpass) hsource.within
      omega
    · omega
  have hdistinct := hprojects.distinguished hbefore.minted_le hpassed
  have hbindings : bindings p.source.relations = columns.map fun c => (c.carrier, c.type) := by
    rw [Planned.source, bindings_singleton, hrelation]
    rfl
  refine ⟨(hbefore.trans hprojects.introduces).trans hafter, ?_, ?_⟩
  · rw [hbindings]
    intro p hp
    obtain ⟨col, hcol, rfl⟩ := List.mem_map.mp hp
    obtain ⟨hlow, hhigh⟩ := hdistinct.within col hcol
    exact ⟨hdistinct.streams col hcol, hlow, Nat.le_trans hhigh hafter.minted_le⟩
  · rw [hbindings]
    exact List.pairwise_map.mpr hdistinct.distinct

end Block

theorem Plans.yields {task : Task Q} {s : Source} {d' : Draft} (h : Plans env outer task d s d') : Yields d s d' := by
  induction h with
  | select _ hp ih => exact Block.plan_yields ih hp
  | values hp => exact Values.plan_yields hp
  | setOperation _ _ hp ihl ihr => exact SetOperation.plan_yields ihl ihr hp
  | withClause _ ih | body _ ih | firstTable _ ih => exact ih
  | element _ _ hg helement _ ih ih' =>
    -- the query's own graph is left behind; only the columns that it has minted count here
    obtain ⟨_, -, -, rfl⟩ := NamedQuery.ofPlanned_ok helement
    refine .after (.mint ?_ hg) ih'
    exact ih.introduces.minted_le
  | table hp => exact Source.named_yields hp
  | derived _ hs ih => exact Source.derived_yields ih hs
  | join _ _ hs ihl ihr => exact Join.plan_yields ihl ihr hs
  | apply _ hs ih => exact Apply.plan_yields ih hs
  | noTable hs => exact Source.singleRow_yields hs
  | nextTable _ _ hs ihl ihr => exact Join.plan_yields ihl ihr (Source.join_of_cross [] hs)

/-- A planned query leaves the operators it finds. Each column that a new operator introduces is a newly
minted stream column and introduced nowhere else, and no two columns of the result are the same. -/
theorem Query.plan_singleAssignment {query : Query (Expr Q)} {p : Planned} {d' : Draft}
    (hold : ∀ i j v, d.graph.introducedAt i j = some v → v.id ≤ d.minted)
    (h : query.plan outer env d = (.ok p, d')) :
    d.graph.operators <+: d'.graph.operators ∧
    (∀ i j v, d.graph.size ≤ i → d'.graph.introducedAt i j = some v →
      v.isStream = true ∧ d.minted < v.id ∧
        ∀ i' j' w, d'.graph.introducedAt i' j' = some w → w.same v = true → i' = i ∧ j' = j) ∧
    p.relation.carriers.Pairwise fun v w => w.same v = false := by
  have hyields : Yields d p.source d' := (Query.plans outer query h).yields
  refine ⟨?_, fun i j v hi hv => hyields.introduces.place_eq hold hi hv, ?_⟩
  · obtain ⟨new, -, hops, -⟩ := hyields.introduces.fresh
    exact ⟨new, hops.symm⟩
  · rw [← RelationInfo.carriers_bindings, ← bindings_singleton]
    exact List.pairwise_map.mpr hyields.distinct

namespace Sample

/-- `WITH w AS (SELECT y, x FROM a)
SELECT v.x, v.x, count(*), count(*) FROM w JOIN w AS v ON w.x = v.y GROUP BY v.x` -/
def repeating : Query (Expr Unit) :=
  let named : Query (Expr Unit) :=
    .select [relation "a"] { items := [.expr (column ["y"]) none, .expr (column ["x"]) none] }
  let matching := .comparison .equal (column ["w", "x"]) (column ["v", "y"])
  let repeated := [column ["v", "x"], column ["v", "x"], count, count]
  .withClause false [{ name := .quoted "w", query := named }]
    (.select [.join .inner (relation "w") (relation "w" "v") (some (.predicate matching))]
      { items := repeated.map fun e => .expr e none
        groupBy := [column ["v", "x"]] })

def row : Draft :=
  let columns := [⟨1, .stream none⟩, ⟨2, .stream none⟩]
  ⟨2, Graph.empty.insert (.values columns []) [] 1⟩

end Sample

/-- Neither the two references to the named query nor the repeated columns and calls share a column. -/
theorem Query.plan_singleAssignment_repeating : ∃ p d',
    Sample.repeating.plan [] Sample.tables.environment Sample.row = (.ok p, d') ∧ p.relation.carriers.length = 4 ∧
      (p.relation.carriers.Pairwise fun v w => w.same v = false) ∧
      ∀ i j v, 1 ≤ i → d'.graph.introducedAt i j = some v → 2 < v.id ∧
        ∀ i' j' w, d'.graph.introducedAt i' j' = some w → w.same v = true → i' = i ∧ j' = j := by
  have hold : ∀ i j v, Sample.row.graph.introducedAt i j = some v → v.id ≤ 2 := by
    intro i j v hv
    obtain ⟨op, hop, hv⟩ := Option.bind_eq_some_iff.mp hv
    cases List.mem_singleton.mp (List.mem_of_getElem? hop)
    have hids : ∀ w ∈ ([⟨1, .stream none⟩, ⟨2, .stream none⟩] : List Variable), w.id ≤ 2 := by decide
    exact hids v (List.mem_of_getElem? hv)
  have hok : (Sample.repeating.plan [] Sample.tables.environment Sample.row).1.isOk = true := by decide +kernel
  have hlength : (Sample.repeating.plan [] Sample.tables.environment Sample.row).1.toOption.map
      (·.relation.carriers.length) = some 4 := by
    decide +kernel
  obtain ⟨p, d', h⟩ := Step.exists_ok hok
  rw [h] at hlength
  obtain ⟨-, hnew, hdistinct⟩ := Query.plan_singleAssignment hold h
  exact ⟨p, d', h, Option.some.inj hlength, hdistinct, fun i j v hi hv => (hnew i j v hi hv).2⟩

end SqlPlan
