import SqlPlan.Proofs.BlockDelivery
import SqlPlan.Proofs.Ensures
import SqlPlan.Proofs.FromDelivery

namespace SqlPlan

variable {Q : Type} {env : Environment}

def Operator.scalars : Operator → List Scalar
  | .values _ rows => rows.flatten
  | .filter condition => [condition]
  | .project columns => columns.map (·.2)
  | .join _ condition => condition.toList
  | .apply _ _ arguments _ => arguments
  | _ => []

/-- A policy. Expressions are resolved as `drafts`; those without aggregate calls are stored as `scalars`, and others
once their calls are replaced. -/
structure Storing (env : Environment) where
  types : SqlType → Prop
  drafts : Scalar → Prop
  scalars : Scalar → Prop
  graphs : Graph → Prop
  var (v : Variable) : scalars (.var v)
  drafted {s : Scalar} : scalars s → drafts s
  compare {op : ComparisonOp} {l r : Scalar} : scalars l → scalars r → scalars (.compare op l r)
  conjunction {l r : Scalar} : scalars l → scalars r → scalars (.conjunction l r)
  unify {a b c : SqlType} : types a → types b → a.unify b = some c → types c
  columns : ∀ s, s ∈ env.catalog.schemas ∨ s ∈ env.searchPath.schemas → ∀ t ∈ s.tables, ∀ c ∈ t.columns, types c.type
  functions : ∀ s, s ∈ env.catalog.schemas ∨ s ∈ env.searchPath.schemas → ∀ f ∈ s.functions,
    (∀ t ∈ f.parameters, types t) ∧ ∀ row, f.result = .table row → ∀ field ∈ row.toList, types field.2
  elaborates {Q : Type} {scopes : Scopes} {target : Option Target} {e : Expr Q} {x : Typed} {n m : Nat} :
    Elaborates env scopes (.target target) [e] n [x] m → (∀ c ∈ scopes.visible, types c.type) →
      (∀ t ∈ target, types t.type ∧ t.default = none) →
        types x.type ∧ drafts x.expr ∧ (x.aggregated = false → scalars x.expr)
  regroup {ss ss' : List Scalar} {r r' : Regrouping} : Regroups ss r ss' r' → (∀ s ∈ ss, drafts s) →
    (∀ e ∈ r.aggregation.entries, ∀ s ∈ e.arguments, scalars s) →
      (∀ s ∈ ss', scalars s) ∧ ∀ e ∈ r'.aggregation.entries, ∀ s ∈ e.arguments, scalars s
  insert {g : Graph} {operator : Operator} (inputs : List Socket) (outputs : Nat) : graphs g →
    operator.subqueries = [] → (∀ s ∈ operator.scalars, scalars s) → graphs (g.insert operator inputs outputs)

theorem RelationInfo.correlate_ensures {σ : Type} {I : σ → Prop} (r : RelationInfo) (correlation : Option Correlation) :
    Step.Ensures env I (r.correlate correlation) fun r' => r'.bindings = r.bindings := by
  intro s r' s' hs h
  obtain ⟨hbindings, rfl⟩ := correlate_ok h
  exact ⟨hs, hbindings⟩

/-- A table that is found is stored under the name that it was looked up by. -/
theorem Name.resolveTable_ensures {σ : Type} {I : σ → Prop} (name : Name) :
    Step.Ensures env I name.resolveTable fun r => env.Reaches r.1 ∧ ∃ key, r.1.table? key = some r.2 := by
  have hfind : Step.Ensures env I name.findTable fun found => ∀ r ∈ found,
      env.Reaches r.1 ∧ ∃ key, r.1.table? key = some r.2 := by
    refine .bind (Name.lookUp_ensures (P := fun found => ∀ r ∈ found,
      env.Reaches r.1 ∧ ∃ key, r.1.table? key = some r.2) "" (fun s hs key r hr => ?_)
      fun key r hr => ?_) fun found hfound => .pure hfound
    · obtain ⟨t, ht, rfl⟩ := Option.map_eq_some_iff.mp hr
      exact ⟨.inl hs, key, ht⟩
    · obtain ⟨s, hs, hr⟩ := List.exists_of_findSome?_eq_some hr
      obtain ⟨t, ht, rfl⟩ := Option.map_eq_some_iff.mp hr
      exact ⟨.inr hs, key, ht⟩
  refine .bind hfind fun found hfound => ?_
  cases found with
  | none => exact .fail _ _ _
  | some r => exact .pure (hfound r rfl)

namespace Aggregation

variable {P : Scalar → Prop}

theorem argumentColumns_ensures {ss : List Scalar} (h : ∀ s ∈ ss, P s) :
    Analysis.Ensures env (argumentColumns ss) fun r => ∀ p ∈ r.2, P p.2 := by
  induction ss with
  | nil => exact .pure (List.forall_mem_nil _)
  | cons s ss ih =>
    obtain ⟨hs, hss⟩ := List.forall_mem_cons.mp h
    rw [argumentColumns]
    cases s.asVariable? with
    | some v => exact .bind (ih hss) fun r hr => .pure hr
    | none => exact .bind (.any _) fun v _ => .bind (ih hss) fun r hr => .pure (List.forall_mem_cons.mpr ⟨hs, hr⟩)

theorem aggregateColumns_ensures {entries : List AggregateEntry} (h : ∀ e ∈ entries, ∀ s ∈ e.arguments, P s) :
    Analysis.Ensures env (aggregateColumns entries) fun r => ∀ p ∈ r.2, P p.2 := by
  induction entries with
  | nil => exact .pure (List.forall_mem_nil _)
  | cons e entries ih =>
    obtain ⟨he, hentries⟩ := List.forall_mem_cons.mp h
    exact .bind (argumentColumns_ensures he) fun r hr => .bind (ih hentries) fun more hmore =>
      .pure (List.forall_mem_append.mpr ⟨hr, hmore⟩)

end Aggregation

namespace Block

variable {P : Scalar → Prop} {T : SqlType → Prop}

theorem optional_ensures {σ α β : Type} {I : σ → Prop} {R : β → Prop} {f : α → Step σ β}
    (h : ∀ a, Step.Ensures env I (f a) R) (o : Option α) : Step.Ensures env I (optional f o) fun r => ∀ b ∈ r, R b := by
  cases o with
  | none => exact .pure (by simp)
  | some a => exact .bind (h a) fun b hb => .pure (by simpa using hb)

theorem projectColumns_ensures (b : Block) {cs : List SelectColumn} (h : ∀ c ∈ cs, T c.type ∧ P c.value)
    (used : List Variable) : Analysis.Ensures env (b.projectColumns used cs) fun r =>
      (∀ info ∈ r.1, T info.type) ∧ ∀ p ∈ r.2, P p.2 := by
  induction cs generalizing used with
  | nil => exact .pure ⟨List.forall_mem_nil _, List.forall_mem_nil _⟩
  | cons c cs ih =>
    obtain ⟨⟨hT, hP⟩, hcs⟩ := List.forall_mem_cons.mp h
    have hfirst : Analysis.Ensures env (b.projectColumn used c) fun r => T r.1.type ∧ ∀ p ∈ r.2.toList, P p.2 := by
      intro n r m _ hrun
      obtain ⟨v, hinfo, ⟨-, -, -, hnone, -⟩ | ⟨-, hsome, -⟩⟩ := projectColumn_cases hrun
      · exact ⟨trivial, hinfo ▸ hT, by simp [hnone]⟩
      · exact ⟨trivial, hinfo ▸ hT, by simpa [hsome] using hP⟩
    refine .bind hfirst fun r hr => .bind (ih hcs _) fun rest hrest => .pure ⟨?_, ?_⟩
    · exact List.forall_mem_cons.mpr ⟨hr.1, hrest.1⟩
    · exact List.forall_mem_append.mpr ⟨hr.2, hrest.2⟩

theorem sortColumns_ensures (distinct : Bool) (columns : List ColumnInfo) (available : List Variable)
    {sorts : List SortRequest} (h : ∀ s ∈ sorts, ∀ e ∈ SortTarget.exprs s.target, P e) :
    Analysis.Ensures env (sortColumns distinct columns available sorts) fun r => ∀ p ∈ r.2, P p.2 := by
  induction sorts with
  | nil => exact .pure (List.forall_mem_nil _)
  | cons s sorts ih =>
    obtain ⟨hs, hsorts⟩ := List.forall_mem_cons.mp h
    have hfirst : Analysis.Ensures env (sortColumn distinct columns available s) fun r => ∀ p ∈ r.2.toList, P p.2 := by
      intro n r m _ hrun
      obtain ⟨_, -, -, hnone, -⟩ | ⟨e, htarget, ⟨-, -, hnone, -⟩ | ⟨-, -, hsome, -⟩⟩ := sortColumn_cases hrun
      · exact ⟨trivial, by simp [hnone]⟩
      · exact ⟨trivial, by simp [hnone]⟩
      · have he : P e := hs e (by rw [htarget]; exact List.mem_singleton_self e)
        exact ⟨trivial, by simpa [hsome] using he⟩
    exact .bind hfirst fun r hr => .bind (ih hsorts) fun rest hrest => .pure (List.forall_mem_append.mpr ⟨hr, hrest⟩)

theorem regroup_ensures {c : Clauses} (h : ∀ x ∈ c.columns, T x.type) :
    Step.Ensures env (fun _ => True) (regroup c) fun c' => ∀ x ∈ c'.columns, T x.type :=
  .bind (.both (.collect_map fun x hx => .bind (.any _) fun _ _ => .pure (h x hx)) (.any _)) fun _ hr => .pure hr.1

theorem Clauses.forall_exprs {c : Clauses} : (∀ s ∈ c.exprs, P s) ↔ (∀ x ∈ c.columns, P x.value) ∧
    (∀ x ∈ c.having, P x.1) ∧ ∀ s ∈ c.sorts, ∀ e ∈ SortTarget.exprs s.target, P e := by
  simp only [exprs, List.forall_mem_append, List.forall_mem_flatMap, List.forall_mem_singleton, Option.mem_toList,
    Option.mem_def]

end Block

namespace Storing

variable (S : Storing env) {scopes outer : Scopes} {operator : Operator} {operand left right : Source}

/-- Planning keeps to the policy. -/
abbrev Keeps {α : Type} (m : Planning α) (P : α → Prop) : Prop := Planning.Ensures env S.graphs m P

def OfScopes (scopes : Scopes) : Prop := ∀ c ∈ scopes.visible, S.types c.type

def OfColumns (columns : Columns) : Prop := ∀ p ∈ columns, S.types p.2

abbrev OfPlanned (p : Planned) : Prop := S.OfColumns p.relation.bindings

abbrev OfSource (s : Source) : Prop := S.OfColumns (bindings s.relations)

/-- An expression of a block that groups its rows, or of one that does not. -/
def OfBlock (active : Bool) (s : Scalar) : Prop := S.drafts s ∧ (active = false → S.scalars s)

variable {S}

theorem OfScopes.cons {relations : List RelationInfo} (h : S.OfColumns (bindings relations))
    (houter : S.OfScopes outer) : S.OfScopes ({ relations } :: outer) := by
  intro c hc
  rcases List.mem_append.mp hc with hc | hc
  · exact h _ (mem_bindings hc)
  · exact houter c hc

theorem resolve {target : Option Target} (e : Expr Q) (hscopes : S.OfScopes scopes)
    (htarget : ∀ t ∈ target, S.types t.type ∧ t.default = none) : Analysis.Ensures env (e.resolve scopes target)
      fun x => S.types x.type ∧ S.drafts x.expr ∧ (x.aggregated = false → S.scalars x.expr) :=
  fun _ _ _ _ h => ⟨trivial, S.elaborates (Expr.sound _ _ e _ _ _ _ h) hscopes htarget⟩

theorem value {active : Bool} {s : Scalar} {t : SqlType} (hscopes : S.OfScopes scopes)
    (h : Block.Value env scopes active s t) : S.types t ∧ S.OfBlock active s := by
  cases h with
  | column hc => exact ⟨hscopes _ hc, S.drafted (S.var _), fun _ => S.var _⟩
  | expr hel hagg =>
    obtain ⟨ht, hdraft, hscalar⟩ := S.elaborates hel hscopes (by simp)
    refine ⟨ht, hdraft, fun hactive => hscalar (Bool.eq_false_iff.mpr fun h => ?_)⟩
    exact Bool.noConfusion (hactive.symm.trans (hagg h))

theorem ofColumns_append {Γ Δ : Columns} (hΓ : S.OfColumns Γ) (hΔ : S.OfColumns Δ) : S.OfColumns (Γ ++ Δ) :=
  List.forall_mem_append.mpr ⟨hΓ, hΔ⟩

theorem ofColumns_map {columns : List ColumnInfo} (h : ∀ c ∈ columns, S.types c.type) :
    S.OfColumns (columns.map fun c => (c.carrier, c.type)) := List.forall_mem_map.mpr h

theorem add {inputs : List Socket} (hflat : operator.subqueries = []) (h : ∀ s ∈ operator.scalars, S.scalars s) :
    S.Keeps (Planning.add operator inputs) fun _ => True := .add fun _ hg => S.insert inputs 1 hg hflat h

theorem singleRow : S.Keeps Source.singleRow S.OfSource :=
  .bind (add rfl (by simp [Operator.scalars])) fun _ _ => .pure (List.forall_mem_nil _)

theorem scan (name : Name) (correlation : Option Correlation) : S.Keeps (Source.scan name correlation) S.OfPlanned := by
  refine .bind (Name.resolveTable_ensures name) ?_
  rintro ⟨s, table⟩ ⟨hs, key, htable⟩
  have hcolumns : ∀ ref ∈ table.exportedRefs, Analysis.Ensures env (Source.scanColumn ref)
      fun r => S.types r.2.type := by
    intro ref href
    obtain ⟨p, hp, rfl⟩ := List.mem_map.mp href
    exact .bind (.any _) fun _ _ => .bind (.any _) fun _ _ =>
      .pure (S.columns s hs table (Entries.mem_values htable) p.1
        (List.fst_mem_of_mem_zipIdx (List.mem_filter.mp hp).1))
  refine .bind (.lift (.each hcolumns)) fun columns hcolumns =>
    .bind (add rfl (by simp [Operator.scalars])) fun _ _ => ?_
  refine .bind (RelationInfo.correlate_ensures _ _) fun info hinfo => .pure ?_
  rw [OfPlanned, hinfo]
  exact ofColumns_map (List.forall_mem_map.mpr hcolumns)

theorem derived {query : Planned} (h : S.OfPlanned query) (correlation : Option Correlation) :
    S.Keeps (Source.derived query correlation) S.OfSource := by
  refine .bind (RelationInfo.correlate_ensures _ _) fun info hinfo => .pure ?_
  rw [OfSource, bindings_singleton]
  exact hinfo ▸ h

theorem conjunctions {first : Scalar} {rest : List Scalar} (h : ∀ s ∈ first :: rest, S.scalars s) :
    S.scalars (rest.foldl Scalar.conjunction first) := by
  induction rest generalizing first with
  | nil => exact h first (List.mem_singleton_self first)
  | cons s rest ih =>
    obtain ⟨hfirst, h⟩ := List.forall_mem_cons.mp h
    obtain ⟨hs, hrest⟩ := List.forall_mem_cons.mp h
    exact ih (List.forall_mem_cons.mpr ⟨S.conjunction hfirst hs, hrest⟩)

theorem condition (hscopes : S.OfScopes scopes) (hright : S.OfSource right) (kind : JoinKind)
    (on? : Option (JoinCondition (Expr Q))) : Analysis.Ensures env (Join.condition scopes kind left right on?) fun r =>
      (∀ s ∈ r.1, S.scalars s) ∧ S.OfSource r.2 := by
  rintro n ⟨c, right'⟩ m - h
  refine ⟨trivial, ?_⟩
  rcases Join.condition_cases h with ⟨rfl, rfl, -⟩ | ⟨e, s, hs, rfl, rfl⟩ | ⟨columns, s, relations, hs, rfl, rfl⟩
  · exact ⟨by simp, hright⟩
  · have hpredicate : Analysis.Ensures env (Join.predicate scopes e) S.scalars :=
      .bind (resolve e hscopes (by simp)) fun x hx => .checked fun hagg => .checked fun _ =>
        .pure (hx.2.2 (Bool.eq_false_iff.mpr hagg))
    exact ⟨by simpa using (hpredicate n s m trivial hs).2, hright⟩
  · obtain ⟨first, rest, rfl, hequates, rfl, -⟩ := Join.shared_ok hs
    refine ⟨?_, fun p hp => ?_⟩
    · rintro _ ⟨⟩
      refine conjunctions fun s hs => ?_
      obtain ⟨_, -, l, r, -, -, rfl⟩ := exists_of_forall₂ hequates s hs
      exact S.compare (S.var _) (S.var _)
    · have hbindings : bindings (right.relations.map (·.conceal (columns.map env.options.key))) =
          bindings right.relations := Join.flatMap_conceal (fun _ _ => rfl) _ _
      exact hright p (hbindings ▸ hp)

theorem join (houter : S.OfScopes outer) (hleft : S.OfSource left) (hright : S.OfSource right) (kind : JoinKind)
    (swapped : Bool) (on? : Option (JoinCondition (Expr Q))) :
    S.Keeps (Join.plan outer kind swapped left right on?) S.OfSource := by
  have hscopes : S.OfScopes (Join.scope left right :: outer) :=
    .cons (bindings_append _ _ ▸ ofColumns_append hleft hright) houter
  refine .bind (.lift (condition hscopes hright kind on?)) fun r hr => ?_
  refine .bind (add rfl (by simpa [Operator.scalars] using hr.1)) fun _ _ => .pure ?_
  rw [OfSource, bindings_append]
  exact ofColumns_append hleft hr.2

theorem apply (houter : S.OfScopes outer) (hoperand : S.OfSource operand) (kind : ApplyKind) (function : Name)
    (arguments : List (Expr Q)) (correlation : Option Correlation) :
    S.Keeps (Apply.plan outer kind operand function arguments correlation) S.OfSource := by
  have hfound : S.Keeps (function.resolveFunctions arguments.length) fun r => ∀ f ∈ r.2,
      (∀ t ∈ f.parameters, S.types t) ∧ ∀ row, f.result = .table row → ∀ field ∈ row.toList, S.types field.2 :=
    .bind (Name.lookUp_ensures_mem "" fun s hs _ f hf => S.functions s hs f (Entries.mem_flatten hf)) fun _ hr =>
      .pure fun f hf => hr f (List.mem_filter.mp hf).1
  have hcandidates : S.Keeps (Apply.candidates function arguments.length) fun r => ∀ f ∈ r.2,
      (∀ t ∈ f.parameters, S.types t) ∧ ∀ row, f.result = .table row → ∀ field ∈ row.toList, S.types field.2 :=
    .bind hfound fun r hr => .checked fun _ => .pure fun f hf => hr f (List.mem_filter.mp hf).1
  refine .bind hcandidates ?_
  rintro ⟨key, candidates⟩ htable
  have hargument : ∀ p ∈ arguments.zipIdx, Analysis.Ensures env (Apply.argument ({ relations := operand.relations } ::
      outer) candidates p.2 p.1) fun x => S.scalars x.expr := by
    intro p _
    refine .bind (resolve p.1 (OfScopes.cons hoperand houter) fun t ht => ?_) fun x hx =>
      .checked fun hagg => .pure (hx.2.2 (Bool.eq_false_iff.mpr hagg))
    obtain ⟨u, hu, rfl⟩ := Option.mem_map.mp ht
    obtain ⟨f, hf, hu⟩ := Overload.mem_of_commonParameter? hu
    exact ⟨(htable f hf).1 u hu, rfl⟩
  refine .bind (.lift (.collect_map hargument)) fun xs hxs => ?_
  refine .bind (.select _ _ _ _) fun decl hdecl => ?_
  have hfields : Analysis.Ensures env (Apply.resultColumns function decl) fun r => ∀ field ∈ r, S.types field.2 := by
    unfold Apply.resultColumns
    cases hresult : decl.result with
    | table row => exact .checked fun _ => .pure ((htable decl hdecl).2 row hresult)
    | _ => exact .fail _ _ _
  refine .bind (.lift hfields) fun fields hfields => ?_
  have hcolumns : ∀ field ∈ fields, Analysis.Ensures env (Apply.resultColumn field) fun c => S.types c.type :=
    fun field hfield => .bind (.any _) fun _ _ => .pure (hfields field hfield)
  refine .bind (.lift (.each hcolumns)) fun columns hcolumns => ?_
  refine .bind (add rfl (List.forall_mem_map.mpr hxs)) fun _ _ => ?_
  refine .bind (RelationInfo.correlate_ensures _ _) fun info hinfo => .pure ?_
  rw [OfSource, bindings_append, bindings_singleton, hinfo]
  exact ofColumns_append hoperand (ofColumns_map hcolumns)

theorem setOperation {left right : Planned} (hleft : S.OfPlanned left) (hright : S.OfPlanned right) (op : SetOperator)
    (written : Option SetQuantifier) : S.Keeps (SetOperation.plan op written left right) S.OfPlanned := by
  have hpairs : S.Keeps (SetOperation.pairs op left right) fun ps => ∀ p ∈ ps, S.types p.1.type ∧ S.types p.2.type := by
    refine .checked fun _ => .pure fun p hp => ?_
    obtain ⟨hl, hr⟩ := List.of_mem_zip hp
    exact ⟨hleft _ (List.mem_map_of_mem (List.mem_filter.mp hl).1),
      hright _ (List.mem_map_of_mem (List.mem_filter.mp hr).1)⟩
  refine .bind hpairs fun ps hps => ?_
  have htypes : ∀ p ∈ ps.zipIdx, S.Keeps (SetOperation.columnType op p) S.types := by
    rintro ⟨⟨l, r⟩, i⟩ hp
    obtain ⟨hl, hr⟩ := hps _ (List.fst_mem_of_mem_zipIdx hp)
    unfold SetOperation.columnType
    cases hunify : l.type.unify r.type with
    | none => simpa only [hunify] using .fail _ _ _
    | some t => simpa only [hunify] using .pure (S.unify hl hr hunify)
  refine .bind (.each htypes) fun types hunified => ?_
  have hoperator : Analysis.Ensures env (SetOperation.operator op (SetOperation.quantifier written) ps types) fun r =>
      (r.1.subqueries = [] ∧ r.1.scalars = []) ∧ ∀ c ∈ r.2, S.types c.type := by
    have hkept : ∀ c ∈ (ps.zip types).map fun p => { p.1.1 with type := p.2 }, S.types c.type :=
      List.forall_mem_map.mpr fun p hp => hunified _ (List.of_mem_zip hp).2
    cases op with
    | union =>
      refine .bind (.each (R := fun c => S.types c.2.type) fun p hp => ?_) fun columns hcolumns =>
        .pure ⟨⟨rfl, rfl⟩, List.forall_mem_map.mpr hcolumns⟩
      exact .bind (.any _) fun _ _ => .pure (hunified _ (List.of_mem_zip hp).2)
    | intersect | except => exact .pure ⟨⟨rfl, rfl⟩, hkept⟩
  refine .bind (.lift hoperator) fun r hr => .bind (add hr.1.1 (by simp [hr.1.2])) fun _ _ => .pure ?_
  exact ofColumns_map hr.2

theorem clauses {b : Block} (hb : S.OfScopes b.scopes) {c : Block.Clauses} (h : c.Resolved env b) :
    (∀ x ∈ c.columns, S.types x.type) ∧ ∀ s ∈ c.exprs, S.OfBlock c.active s := by
  refine ⟨fun x hx => (value hb (h.columns x hx)).1, Block.Clauses.forall_exprs.mpr ⟨?_, ?_, ?_⟩⟩
  · exact fun x hx => (value hb (h.columns x hx)).2
  · intro x hx
    obtain ⟨t, hvalue⟩ := h.having x hx
    exact (value hb hvalue).2
  · intro sort hsort s hs
    have hresolved := h.sorts sort hsort
    cases htarget : sort.target with
    | output i => simp [htarget, Block.SortTarget.exprs] at hs
    | expr e =>
      rw [htarget] at hresolved hs
      obtain ⟨t, hvalue⟩ := hresolved
      obtain rfl := List.mem_singleton.mp hs
      exact (value hb hvalue).2

theorem install {a : Aggregation} (h : ∀ e ∈ a.entries, ∀ s ∈ e.arguments, S.scalars s) (input : Socket) :
    S.Keeps (a.install input) fun _ => True := by
  refine .bind (.lift (Aggregation.aggregateColumns_ensures h)) fun r hr => ?_
  have hproject : ∀ s ∈ (Operator.project r.2).scalars, S.scalars s := List.forall_mem_map.mpr hr
  have hadd : ∀ input, S.Keeps (Planning.add (.aggregate a.keys r.1) [input]) fun _ => True :=
    fun _ => add rfl (by simp [Operator.scalars])
  exact .ite (fun _ => hadd input) fun _ => .bind (add rfl hproject) fun _ _ => hadd _

theorem group (b : Block) {c : Block.Clauses} (hcolumns : ∀ x ∈ c.columns, S.types x.type)
    (hexprs : ∀ s ∈ c.exprs, S.OfBlock c.active s) (input : Socket) : S.Keeps (b.group c input) fun r =>
      (∀ x ∈ r.1.columns, S.types x.type) ∧ ∀ s ∈ r.1.exprs, S.scalars s := by
  rintro d ⟨c', output, available⟩ d' hd h
  cases hactive : c.active with
  | false =>
    obtain ⟨rfl, -, -, rfl⟩ := Block.group_inactive hactive h
    exact ⟨hd, hcolumns, fun s hs => (hexprs s hs).2 hactive⟩
  | true =>
    obtain ⟨d₂, a, hregroup, hg, hinstall, -⟩ := Block.group_active hactive h
    have hkeys := (Aggregation.addKeys_ok c.keys { locals := b.locals }).2.1
    obtain ⟨hexprs', hentries⟩ := S.regroup (Block.regroup_ok hregroup).1 (fun s hs => (hexprs s hs).1)
      (by simp [GroupingState.regrouping, hkeys])
    have hd₂ : S.graphs d₂.graph := hg ▸ hd
    exact ⟨(install hentries input d₂ output d' hd₂ hinstall).1,
      (Block.regroup_ensures hcolumns _ _ _ trivial hregroup).2, hexprs'⟩

theorem addFilter {condition : Option Scalar} (h : ∀ s ∈ condition, S.scalars s) (input : Socket) :
    S.Keeps (Block.addFilter condition input) fun _ => True := by
  cases condition with
  | none => exact .pure trivial
  | some s => exact add rfl (List.forall_mem_singleton.mpr (h s rfl))

theorem addIf (needed : Bool) (hflat : operator.subqueries = []) (h : ∀ s ∈ operator.scalars, S.scalars s)
    (input : Socket) : S.Keeps (Block.addIf needed operator input) fun _ => True :=
  .ite (fun _ => add hflat h) fun _ => .pure trivial

theorem block (houter : S.OfScopes outer) (hsource : S.OfSource operand) (c : SelectClauses (Expr Q)) :
    S.Keeps (Block.plan outer operand c) S.OfPlanned := by
  have hb : S.OfScopes (Block.scopes ⟨operand.relations, outer⟩) := .cons hsource houter
  have hwhere : ∀ e : Expr Q, Analysis.Ensures env (Block.whereCondition ⟨operand.relations, outer⟩ e) S.scalars := by
    intro e n s m _ h
    obtain ⟨-, t, hvalue⟩ := Block.whereCondition_ok h
    exact ⟨trivial, (value hb hvalue).2.2 rfl⟩
  have hclauses : Analysis.Ensures env (Block.clauses ⟨operand.relations, outer⟩ c) fun r =>
      (∀ x ∈ r.columns, S.types x.type) ∧ ∀ s ∈ r.exprs, S.OfBlock r.active s :=
    fun n r m _ h => ⟨trivial, clauses hb (Block.clauses_ok h).2⟩
  refine .bind (.lift (Block.optional_ensures hwhere _)) fun condition hcondition =>
    .bind (addFilter hcondition _) fun _ _ => ?_
  refine .bind (.lift hclauses) fun r hr => .bind (group _ hr.1 hr.2 _) ?_
  rintro ⟨clauses, output, available⟩ ⟨hcolumns, hexprs⟩
  obtain ⟨hvalues, hhaving, hsorts⟩ := Block.Clauses.forall_exprs.mp hexprs
  have hfilter : ∀ s ∈ clauses.having.map (·.1), S.scalars s := by
    intro s hs
    obtain ⟨x, hx, rfl⟩ := Option.mem_map.mp hs
    exact hhaving x hx
  refine .bind (addFilter hfilter _) fun _ _ => ?_
  refine .bind (.lift (Block.projectColumns_ensures _ (fun x hx => ⟨hcolumns x hx, hvalues x hx⟩) _))
    fun projected hprojected => ?_
  refine .bind (.lift (Block.sortColumns_ensures _ _ _ hsorts)) fun sorted hsorted => ?_
  have hproject : ∀ s ∈ (Operator.project (projected.2 ++ sorted.2)).scalars, S.scalars s :=
    List.forall_mem_map.mpr (List.forall_mem_append.mpr ⟨hprojected.2, hsorted⟩)
  refine .bind (addIf _ rfl hproject _) fun _ _ => ?_
  refine .bind (addIf _ rfl (by simp [Operator.scalars]) _) fun _ _ => ?_
  exact .bind (addIf _ rfl (by simp [Operator.scalars]) _) fun _ _ => .pure (ofColumns_map hprojected.1)

end Storing

end SqlPlan
