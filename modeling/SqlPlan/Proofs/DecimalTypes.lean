import SqlPlan.Proofs.ColumnDefaults
import SqlPlan.Proofs.ColumnSlots
import SqlPlan.Proofs.Vocabulary

namespace SqlPlan

variable {Q : Type} {env : Environment} {limit : Nat} {outer : Scopes} {d d' : Draft} {p : Planned}

namespace SqlType

variable {a b c t : SqlType}

/-- A decimal is flexible, or it has between one and `limit` digits, of which up to all stand after the point. -/
def Legal (limit : Nat) : SqlType → Prop
  | .decimal none none => True
  | .decimal (some p) (some s) => 1 ≤ p ∧ p ≤ limit ∧ s ≤ p
  | .decimal _ _ => False
  | _ => True

/-- A decimal is flexible, or its digits on either side of the point are bounded by themselves. The widest integers
have 19 digits. -/
def Bounded (limit : Nat) : SqlType → Prop
  | .decimal none none => True
  | .decimal (some p) (some s) => 1 ≤ p ∧ s ≤ p ∧ p - s ≤ max limit 19 ∧ s ≤ limit
  | .decimal _ _ => False
  | _ => True

/-- The types that legal ones unify to. -/
inductive Joins (limit : Nat) : SqlType → Prop where
  | legal {t : SqlType} : t.Legal limit → Joins limit t
  | unify {a b c : SqlType} : Joins limit a → Joins limit b → a.unify b = some c → Joins limit c

theorem Legal.bounded (h : t.Legal limit) : t.Bounded limit := by
  unfold Legal at h
  split at h
  · trivial
  · exact ⟨h.1, h.2.2, by omega, by omega⟩
  · exact h.elim
  · unfold Bounded
    split <;> simp_all

theorem Bounded.parts (h : t.Bounded limit) {i k : Nat} (hparts : t.decimalParts = some (i, k)) :
    1 ≤ i + k ∧ i ≤ max limit 19 ∧ k ≤ limit := by
  unfold decimalParts at hparts
  split at hparts
  · rename_i w
    cases hparts
    cases w <;> simp [IntWidth.digits]
  · rename_i q s
    cases s with
    | none => exact h.elim
    | some s =>
      cases hparts
      obtain ⟨hq, hs, hbounds⟩ := h
      simp only [Option.getD_some]
      exact ⟨by omega, hbounds⟩
  · cases hparts

/-- A type of two others is one of them, or a decimal for the digits of both, or no decimal. -/
theorem unify_cases (h : a.unify b = some c) : c = a ∨ c = b ∨ c = unifyExact a b ∨ c.Bounded limit := by
  unfold unify at h
  split at h
  · exact .inl (Option.some.inj h).symm
  split at h
  case h_4 =>
    split at h
    · cases h
      exact .inr (.inr (.inr trivial))
    · cases h
  case h_9 =>
    split at h
    · exact .inr (.inr (.inl (Option.some.inj h).symm))
    · split at h
      · cases h
        exact .inr (.inr (.inr trivial))
      · cases h
  all_goals cases h
  · exact .inr (.inl rfl)
  · exact .inl rfl
  all_goals exact .inr (.inr (.inr trivial))

theorem Bounded.unify (ha : a.Bounded limit) (hb : b.Bounded limit) (h : a.unify b = some c) : c.Bounded limit := by
  rcases unify_cases h with rfl | rfl | rfl | hc
  · exact ha
  · exact hb
  · unfold unifyExact
    split
    · rename_i hpa hpb
      obtain ⟨hpos, hi, hk⟩ := ha.parts hpa
      obtain ⟨-, hj, hl⟩ := hb.parts hpb
      exact ⟨by omega, by omega, by omega, by omega⟩
    · trivial
  · exact hc

theorem Joins.bounded (h : t.Joins limit) : t.Bounded limit := by
  induction h with
  | legal ht => exact ht.bounded
  | unify _ _ hc iha ihb => exact iha.unify ihb hc

end SqlType

theorem DataType.type_legal {o : Options} {w : DataType} {t : SqlType} (h : w.type o = .ok t) :
    t.Legal o.maxDecimalPrecision := by
  unfold DataType.type at h
  split at h
  case h_6 =>
    unfold decimalType at h
    split at h
    · cases h
      trivial
    · split at h
      · cases h
      · split at h
        · cases h
        · split at h
          · cases h
          · cases h
            exact ⟨by omega, by omega, by omega⟩
  case h_7 kind varying length =>
    cases hlength : stringLength varying length with
    | error _ => simp [hlength, Except.map] at h
    | ok n =>
      rw [hlength] at h
      cases h
      trivial
  all_goals cases h <;> trivial

theorem Literal.exactConstant_legal {o : Options} {negative : Bool} {text : String} {v : Value} {t : SqlType}
    (h : exactConstant o negative text = .ok (v, t)) : t.Legal o.maxDecimalPrecision := by
  rcases hnumeral : numeral? text with _ | ⟨whole, fraction⟩
  · simp [exactConstant, hnumeral] at h
  · obtain ⟨k, hk, -⟩ := exists_spells hnumeral
    rw [exactConstant_of_spells negative hk] at h
    split_ifs at h with hlimit
    · cases h
      trivial
    · cases h
      exact ⟨k.one_le_precision, by omega, k.scale_le_precision⟩
    · cases h
      trivial

theorem Literal.constant_legal {o : Options} {l : Literal} {v : Value} {t : SqlType} (h : l.constant o = .ok (v, t)) :
    t.Legal o.maxDecimalPrecision := by
  cases hexact : t.isExact with
  | true =>
    obtain ⟨negative, digits, rfl⟩ := (constant_fits h).2 hexact
    exact exactConstant_legal h
  | false => cases t <;> trivial

/-- The types that an environment declares. -/
inductive Environment.Declares (env : Environment) : SqlType → Prop where
  | column {s t c} : env.Reaches s → t ∈ s.tables → c ∈ t.columns → Declares env c.type
  | parameter {s f t} : env.Reaches s → f ∈ s.functions → t ∈ f.parameters → Declares env t
  | result {s f} : env.Reaches s → f ∈ s.functions → Declares env f.result
  | field {s f row p} : env.Reaches s → f ∈ s.functions → f.result = .table row → p ∈ row.toList → Declares env p.2
  | aggregateParameter {s f t} : env.Reaches s → f ∈ s.aggregates → t ∈ f.parameters → Declares env t
  | aggregateResult {s f} : env.Reaches s → f ∈ s.aggregates → Declares env f.result
  | external {s v} : env.Reaches s → v ∈ s.externals → Declares env v.type
  | hostParameter {key decl} : env.hostParameter? key = some decl → Declares env decl.type
  | placeholder {key v t} : env.placeholder? key = some (v, t) → Declares env t

namespace Vocabulary

variable {V : Vocabulary}

/-- The unifications of legal types, and constants of these types. -/
def decimals (limit : Nat) : Vocabulary where
  types := SqlType.Joins limit
  constants _ t := t.Joins limit
  unknown := .legal trivial
  boolean := .legal trivial
  string _ _ _ := .legal trivial
  unify := .unify
  null ht := ht
  noEscape := .legal trivial

theorem decimals_ofEnvironment (h : ∀ t, env.Declares t → t.Legal env.options.maxDecimalPrecision) :
    (decimals env.options.maxDecimalPrecision).OfEnvironment env where
  literals _ _ _ hl := ⟨.legal (Literal.constant_legal hl), .legal (Literal.constant_legal hl)⟩
  written _ _ ht := .legal (DataType.type_legal ht)
  hostParameters _ _ hp := .legal (h _ (.hostParameter hp))
  placeholders _ _ _ hp := ⟨.legal (h _ (.placeholder hp)), .legal (h _ (.placeholder hp))⟩
  schemas _ hs := {
    columns _ ht _ hc := .legal (h _ (.column hs ht hc))
    parameters _ hf _ ht := .legal (h _ (.parameter hs hf ht))
    results _ hf := .legal (h _ (.result hs hf))
    aggregateParameters _ hf _ ht := .legal (h _ (.aggregateParameter hs hf ht))
    aggregateResults _ hf := .legal (h _ (.aggregateResult hs hf))
    externals _ hv := .legal (h _ (.external hs hv)) }

theorem says_of_regroups {ss ss' : List Scalar} {r r' : Regrouping} (h : Regroups ss r ss' r')
    (hss : ∀ s ∈ ss, V.Says s) (hr : ∀ e ∈ r.aggregation.entries, ∀ s ∈ e.arguments, V.Says s) :
    (∀ s ∈ ss', V.Says s) ∧ ∀ e ∈ r'.aggregation.entries, ∀ s ∈ e.arguments, V.Says s := by
  induction h with
  | nil | immediate | var => exact ⟨hss, hr⟩
  | cons _ _ ih ih' =>
    obtain ⟨hs, hss⟩ := List.forall_mem_cons.mp hss
    obtain ⟨hs, hr⟩ := ih (List.forall_mem_singleton.mpr hs) hr
    obtain ⟨hss, hr⟩ := ih' hss hr
    exact ⟨List.forall_mem_cons.mpr ⟨List.forall_mem_singleton.mp hs, hss⟩, hr⟩
  | unary _ _ ih | binary _ _ ih | compare _ _ ih | pattern _ _ ih | call _ _ ih =>
    simpa using ih (by simpa using hss) hr
  | cast policy target _ ih =>
    obtain ⟨ht, hs⟩ := says_cast.mp (List.forall_mem_singleton.mp hss)
    obtain ⟨hs, hr⟩ := ih (List.forall_mem_singleton.mpr hs) hr
    exact ⟨List.forall_mem_singleton.mpr (says_cast.mpr ⟨ht, List.forall_mem_singleton.mp hs⟩), hr⟩
  | conditional _ _ ih ih' =>
    obtain ⟨hps, ho⟩ := List.forall_mem_append.mp (says_iff.mp (List.forall_mem_singleton.mp hss)).2
    obtain ⟨hps, hr⟩ := ih hps hr
    obtain ⟨ho, hr⟩ := ih' ho hr
    exact ⟨List.forall_mem_singleton.mpr (says_iff.mpr ⟨trivial, List.forall_mem_append.mpr ⟨hps, ho⟩⟩), hr⟩
  | letIn _ _ _ ih ih' =>
    obtain ⟨hds, hb⟩ := List.forall_mem_append.mp (says_iff.mp (List.forall_mem_singleton.mp hss)).2
    obtain ⟨hds, hr⟩ := ih hds hr
    obtain ⟨hb, hr⟩ := ih' hb hr
    exact ⟨List.forall_mem_singleton.mpr (says_iff.mpr ⟨trivial, List.forall_mem_append.mpr ⟨hds, hb⟩⟩), hr⟩
  | aggregate _ hregister =>
    refine ⟨List.forall_mem_singleton.mpr (says_var _), ?_⟩
    unfold Regrouping.register at hregister
    split at hregister
    · cases hregister
      exact hr
    · cases hregister
      exact List.forall_mem_append.mpr ⟨hr, by simpa using hss⟩

variable (V)

/-- The expressions and columns of a named query are of the vocabulary. -/
structure OfNamed (q : NamedQuery) : Prop where
  stored : ∀ o ∈ q.graph.operatorsWithin, ∀ s ∈ o.scalars, V.Says s
  columns : ∀ c ∈ q.relation.columns, V.types c.type

structure Surrounds (outer : Scopes) : Prop where
  visible : V.OfScopes outer
  named : ∀ scope ∈ outer, ∀ p ∈ scope.named, V.OfNamed p.2

/-- The fields of table-valued functions are of the vocabulary. -/
def OfRows (env : Environment) : Prop := ∀ s, env.Reaches s →
  ∀ f ∈ s.functions, ∀ row, f.result = .table row → ∀ field ∈ row.toList, V.types field.2

variable {V}

theorem Surrounds.within {named : List (String × NamedQuery)} (h : V.Surrounds outer)
    (hnamed : ∀ p ∈ named, V.OfNamed p.2) : V.Surrounds ({ named } :: outer) :=
  ⟨h.visible, List.forall_mem_cons.mpr ⟨hnamed, h.named⟩⟩

def storing (henv : V.OfEnvironment env) (hrows : V.OfRows env) (before : Graph) : Storing env where
  types := V.types
  drafts := V.Says
  scalars := V.Says
  graphs g := ∀ o ∈ g.operatorsWithin, o ∈ before.operatorsWithin ∨ ∀ s ∈ o.scalars, V.Says s
  var := says_var
  drafted h := h
  compare hl hr := says_compare.mpr ⟨hl, hr⟩
  conjunction hl hr := says_binary.mpr ⟨hl, hr⟩
  unify := V.unify
  columns s hs := (henv.schemas s hs).columns
  functions s hs f hf := ⟨(henv.schemas s hs).parameters f hf, hrows s hs f hf⟩
  elaborates hel hscopes htarget := by
    have hgives := hel.ofVocabulary henv hscopes (fun t ht => ⟨(htarget t ht).1, by simp [(htarget t ht).2]⟩) _
      (List.mem_singleton_self _)
    exact ⟨hgives.2, hgives.1, fun _ => hgives.1⟩
  regroup := says_of_regroups
  insert inputs outputs hg hflat h o ho := by
    rcases Graph.mem_operatorsWithin_insert.mp ho with ho | rfl | ⟨q, hq, -⟩
    · exact hg o ho
    · exact .inr h
    · rw [hflat] at hq
      cases hq

theorem ofSource_planned {S : Storing env} : S.OfSource p.source ↔ S.OfPlanned p := by
  rw [Storing.OfSource, Planned.source, bindings_singleton]

section Planning

variable (henv : V.OfEnvironment env) (hrows : V.OfRows env) {before : Graph}

theorem ofValues {source : List (List (Expr Q))} (hscopes : V.OfScopes outer)
    (hd : (storing henv hrows before).graphs d.graph) (h : Values.plan outer source env d = (.ok p, d')) :
    (storing henv hrows before).graphs d'.graph ∧ (storing henv hrows before).OfPlanned p := by
  obtain ⟨exprs, haccepts, htable, -, hg⟩ := Values.plan_accepts h
  have hgives : ∀ {e : Expr Q} {x : Typed} {n m : Nat}, e.resolve outer none env n = (.ok x, m) → V.Gives x :=
    fun hx => Expr.gives_of_resolve henv hscopes (by simp) hx
  have htypes : ∀ t ∈ p.relation.columns.map (·.type), V.types t := by
    intro t ht
    obtain ⟨i, hi⟩ := List.mem_iff_getElem?.mp ht
    obtain ⟨ts, hts, hunify⟩ := Option.bind_eq_some_iff.mp (haccepts.column i t hi)
    refine unifyAll (fun u hu => ?_) hunify
    obtain ⟨e, -, he⟩ := exists_of_forall₂ (mapM_eq_some_iff.mp hts) u hu
    rw [Values.cellType?_eq e 0] at he
    obtain ⟨x, hx, rfl⟩ := Option.map_eq_some_iff.mp he
    exact (hgives (Prod.ext (Outcome.toOption_eq_some.mp hx) rfl)).2
  have hcells : ∀ s ∈ exprs.flatten, V.Says s := by
    intro s hs
    obtain ⟨cells, hcells, hs⟩ := List.mem_flatten.mp hs
    obtain ⟨row, -, hrow⟩ := exists_of_forall₂ htable cells hcells
    obtain ⟨⟨e, t⟩, hmem, hcell⟩ := exists_of_forall₂ hrow s hs
    have ht := htypes t (List.of_mem_zip hmem).2
    cases hcell with
    | null => exact says_immediate.mpr (V.null ht)
    | kept _ hx _ => exact (hgives hx).1
    | cast _ hx _ _ => exact says_cast.mpr ⟨ht, (hgives hx).1⟩
  refine ⟨?_, Storing.ofColumns_map (List.forall_mem_map.mp htypes)⟩
  rw [hg]
  exact (storing henv hrows before).insert [] 1 hd rfl hcells

theorem ofNamed {name : String} {query : NamedQuery} {correlation : Option Correlation} (hquery : V.OfNamed query)
    (hd : (storing henv hrows before).graphs d.graph)
    (h : Source.instantiate name query correlation env d = (.ok p, d')) :
    (storing henv hrows before).graphs d'.graph ∧ (storing henv hrows before).OfPlanned p := by
  simp only [Source.instantiate, Step.bind_ok, Planning.lift_ok, Planning.add_ok, Step.pure_ok] at h
  obtain ⟨columns, d₂, ⟨hcolumns, hg₂⟩, _, d₃, ⟨-, -, hg₃⟩, info, _, hinfo, rfl, rfl⟩ := h
  obtain ⟨hbindings, rfl⟩ := RelationInfo.correlate_ok hinfo
  constructor
  · intro o ho
    rw [hg₃, hg₂] at ho
    rcases Graph.mem_operatorsWithin_insert.mp ho with ho | rfl | ho
    · exact hd o ho
    · exact .inr (by simp [Operator.scalars])
    · exact .inr (hquery.stored o (Graph.mem_operatorsWithin_subquery.mpr ho))
  · rw [Storing.OfPlanned, hbindings]
    refine Storing.ofColumns_map (List.forall_mem_map.mpr fun c hc => ?_)
    obtain ⟨column, hcolumn, _, _, hcopy⟩ := exists_of_forall₂ (collect_forall₂ (collect_of_each hcolumns)) c hc
    rw [(Source.copyColumn_ok hcopy).2.2.2]
    exact hquery.columns column hcolumn

theorem ofPlans {task : Task Q} {s : Source} (h : Plans env outer task d s d') (houter : V.Surrounds outer)
    (hnamed : ∀ p ∈ task.named, V.OfNamed p.2) (hd : (storing henv hrows before).graphs d.graph) :
    (storing henv hrows before).graphs d'.graph ∧ (storing henv hrows before).OfSource s := by
  have hnone : ∀ p ∈ ([] : List (String × NamedQuery)), V.OfNamed p.2 := by simp
  induction h generalizing before with
  | select _ hp ih =>
    obtain ⟨hd, hs⟩ := ih houter hnone hd
    exact (Storing.block (S := storing henv hrows before) houter.visible hs _ _ _ _ hd hp).imp_right
      ofSource_planned.mpr
  | values hp => exact (ofValues henv hrows houter.visible hd hp).imp_right ofSource_planned.mpr
  | setOperation _ _ hp ihl ihr =>
    obtain ⟨hd, hl⟩ := ihl houter hnone hd
    obtain ⟨hd, hr⟩ := ihr houter hnone hd
    exact (Storing.setOperation (ofSource_planned.mp hl) (ofSource_planned.mp hr) _ _ _ _ _ hd hp).imp_right
      ofSource_planned.mpr
  | withClause _ ih | firstTable _ ih => exact ih houter hnone hd
  | body _ ih => exact ih (houter.within hnamed) hnone hd
  | element _ hquery hg helement _ ih ih' =>
    have hempty : (storing henv hrows .empty).graphs .empty := fun _ ho => .inl ho
    obtain ⟨hgraph, hcolumns⟩ := ih (houter.within hnamed) hnone hempty
    obtain ⟨relation, rfl, hbindings, rfl⟩ := NamedQuery.ofPlanned_ok helement
    refine ih' houter (List.forall_mem_append.mpr ⟨hnamed, List.forall_mem_singleton.mpr ⟨?_, ?_⟩⟩) (hg ▸ hd)
    · exact fun o ho => (hgraph o ho).resolve_left (by simp [Graph.operatorsWithin_empty])
    · rw [ofSource_planned, Storing.OfPlanned, ← hbindings] at hcolumns
      exact fun c hc => hcolumns _ (List.mem_map_of_mem hc)
  | table hp =>
    rcases Source.named_cases hp with ⟨-, hp⟩ | ⟨_, query, -, hq, hp⟩
    · exact (Storing.scan _ _ _ _ _ hd hp).imp_right ofSource_planned.mpr
    · obtain ⟨scope, hscope, hmem⟩ := Scopes.mem_of_named? hq
      exact (ofNamed henv hrows (houter.named scope hscope _ hmem) hd hp).imp_right ofSource_planned.mpr
  | derived _ hs ih =>
    obtain ⟨hd, hp⟩ := ih houter hnone hd
    exact Storing.derived (ofSource_planned.mp hp) _ _ _ _ hd hs
  | join _ _ hs ihl ihr =>
    obtain ⟨hd, hl⟩ := ihl houter hnone hd
    obtain ⟨hd, hr⟩ := ihr houter hnone hd
    exact Storing.join (S := storing henv hrows before) houter.visible hl hr _ _ _ _ _ _ hd hs
  | apply _ hs ih =>
    obtain ⟨hd, ho⟩ := ih houter hnone hd
    exact Storing.apply (S := storing henv hrows before) houter.visible ho _ _ _ _ _ _ _ hd hs
  | noTable hs => exact Storing.singleRow _ _ _ hd hs
  | nextTable _ _ hs ihl ihr =>
    obtain ⟨hd, hl⟩ := ihl houter hnone hd
    obtain ⟨hd, hr⟩ := ihr houter hnone hd
    exact Storing.join (S := storing henv hrows before) houter.visible hl hr _ _ _ _ _ _ hd (Source.join_of_cross _ hs)

end Planning

end Vocabulary

/-- The type that a node of an expression gives: that of a constant, or the target of a cast. -/
def Scalar.givenType? : Scalar → Option SqlType
  | .immediate _ t => some t
  | .cast _ t _ => some t
  | _ => none

/-- The decimals of a planned query, in its columns and in the constants and casts of whatever it stores, are
unifications of legal ones, if those that the environment declares are legal. So each side of the point is bounded. -/
theorem Query.plan_decimals {q : Query (Expr Q)}
    (henv : ∀ t, env.Declares t → t.Legal env.options.maxDecimalPrecision)
    (houter : (Vocabulary.decimals env.options.maxDecimalPrecision).Surrounds outer)
    (h : q.plan outer env d = (.ok p, d')) :
    (∀ c ∈ p.relation.columns, c.type.Joins env.options.maxDecimalPrecision) ∧
    (∀ o ∈ d'.graph.operatorsWithin, o ∈ d.graph.operatorsWithin ∨ ∀ s ∈ o.scalars, ∀ path node t,
      s.at? path = some node → node.givenType? = some t → t.Joins env.options.maxDecimalPrecision) ∧
    ∀ t : SqlType, t.Joins env.options.maxDecimalPrecision → t.Bounded env.options.maxDecimalPrecision := by
  have hrows : (Vocabulary.decimals env.options.maxDecimalPrecision).OfRows env :=
    fun _ hs _ hf _ hrow _ hfield => .legal (henv _ (.field hs hf hrow hfield))
  obtain ⟨hgraph, hcolumns⟩ := Vocabulary.ofPlans (Vocabulary.decimals_ofEnvironment henv) hrows (Query.plans outer q h)
    houter (by simp [Task.named]) (fun _ ho => .inl ho)
  rw [Vocabulary.ofSource_planned] at hcolumns
  refine ⟨fun c hc => hcolumns _ (List.mem_map_of_mem hc), fun o ho => ?_, fun t => SqlType.Joins.bounded⟩
  refine (hgraph o ho).imp_right fun hsays s hs path node t hnode ht => ?_
  have hallowed := hsays s hs path node hnode
  cases node with
  | immediate v u | cast policy u c =>
    cases ht
    exact hallowed
  | _ => cases ht

namespace Sample

/-- A table of decimals with all their digits before the point or after it. -/
def rates : Session where
  environment.catalog := {
    name := "db"
    schemas := [{
      name := "s"
      stored := 1
      tableMap := [("a", {
        oid := ⟨0, 1⟩, name := "a", schema := "s"
        columns := [{ name := "x", type := .decimal (some 38) (some 0) },
          { name := "y", type := .decimal (some 38) (some 38) }] })] }] }

/-- `VALUES (CAST(1 AS DECIMAL(38, 0))), (CAST(0 AS DECIMAL(38, 38)))` -/
def wideValues : Query (Expr Unit) :=
  .values [[.cast (literal "1") (.decimal (some (.value 38)) (some (.value 0)))],
    [.cast (literal "0") (.decimal (some (.value 38)) (some (.value 38)))]]

end Sample

/-- The column has 38 digits before the point and as many after it, more than a decimal may have. -/
theorem Query.plan_decimals_wideValues : Sample.rates.environment.options.maxDecimalPrecision = 38 ∧
    ∃ p d', Sample.wideValues.plan [] Sample.rates.environment ⟨0, .empty⟩ = (.ok p, d') ∧
      p.relation.columns.map (·.type) = [.decimal (some 76) (some 38)] ∧
      ¬ SqlType.Legal 38 (.decimal (some 76) (some 38)) := by
  have hok : (Sample.wideValues.plan [] Sample.rates.environment ⟨0, .empty⟩).1.toOption.map
      (·.relation.columns.map (·.type)) = some [.decimal (some 76) (some 38)] := by decide +kernel
  obtain ⟨p, d', hp, htypes⟩ := Step.exists_of_map_eq_some hok
  exact ⟨rfl, p, d', hp, htypes, by simp [SqlType.Legal]⟩

/-- The types that are declared are legal, and that of the column is bounded. -/
theorem Query.plan_decimals_rates : (∀ t, Sample.rates.environment.Declares t → t.Legal 38) ∧
    ∃ p d', Sample.wideValues.plan [] Sample.rates.environment ⟨0, .empty⟩ = (.ok p, d') ∧
      ∀ c ∈ p.relation.columns, c.type.Joins 38 ∧ c.type.Bounded 38 := by
  have hlegal : ∀ t, Sample.rates.environment.Declares t → t.Legal 38 := by
    intro t ht
    cases ht with
    | column hs ht hc =>
      simp only [Sample.rates, List.mem_singleton, or_self] at hs
      subst hs
      obtain rfl := List.mem_singleton.mp ht
      simp only [List.mem_cons, List.not_mem_nil, or_false] at hc
      obtain rfl | rfl := hc <;> simp [SqlType.Legal]
    | _ => simp_all [Sample.rates, Schema.functions, Schema.aggregates, Schema.externals, Entries.values,
        Environment.hostParameter?, Environment.placeholder?]
  have hok : (Sample.wideValues.plan [] Sample.rates.environment ⟨0, .empty⟩).1.isOk = true := by
    decide +kernel
  obtain ⟨p, d', hp⟩ := Step.exists_ok hok
  obtain ⟨hcolumns, -, hbounded⟩ := Query.plan_decimals hlegal
    ⟨by simp [Vocabulary.OfScopes, Scopes.visible], by simp⟩ hp
  exact ⟨hlegal, p, d', hp, fun c hc => ⟨hcolumns c hc, hbounded _ (hcolumns c hc)⟩⟩

end SqlPlan
