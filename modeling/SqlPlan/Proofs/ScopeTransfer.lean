import SqlPlan.Proofs.Mentions
import SqlPlan.Proofs.Transfer

namespace SqlPlan

variable {ν : Nat ↪ Nat} {env : Environment} {T : Transfer env.options}
variable {α β σ : Type} {found : Schema × TableDecl} {count : σ → Nat} {g : σ → σ} {s s' : σ}

def ColumnInfo.renumber (ν : Nat ↪ Nat) (c : ColumnInfo) : ColumnInfo := { c with carrier := c.carrier.renumber ν }

def RelationInfo.renumber (ν : Nat ↪ Nat) (r : RelationInfo) : RelationInfo :=
  { r with columns := r.columns.map (ColumnInfo.renumber ν) }

def NamedQuery.renumber (ν : Nat ↪ Nat) (q : NamedQuery) : NamedQuery :=
  ⟨q.graph.renumber ν, q.output, q.relation.renumber ν⟩

def NamedQuery.renumberAll (ν : Nat ↪ Nat) (named : List (String × NamedQuery)) : List (String × NamedQuery) :=
  named.map fun p => (p.1, p.2.renumber ν)

def Scope.renumber (ν : Nat ↪ Nat) (s : Scope) : Scope :=
  ⟨s.relations.map (RelationInfo.renumber ν), NamedQuery.renumberAll ν s.named⟩

theorem RelationInfo.renumber_refl (r : RelationInfo) : r.renumber (.refl Nat) = r := by
  have hcolumn : ColumnInfo.renumber (.refl Nat) = fun c => c := rfl
  rw [renumber, hcolumn, List.map_id']

theorem NamedQuery.renumber_refl (q : NamedQuery) : q.renumber (.refl Nat) = q := by
  rw [renumber, Graph.renumber_refl, RelationInfo.renumber_refl]

theorem NamedQuery.renumberAll_refl (named : List (String × NamedQuery)) : renumberAll (.refl Nat) named = named := by
  simp only [renumberAll, renumber_refl, List.map_id']

theorem Scope.renumber_refl (s : Scope) : s.renumber (.refl Nat) = s := by
  rw [renumber, NamedQuery.renumberAll_refl, funext RelationInfo.renumber_refl, List.map_id']

def ResolvedVariable.renumber (ν : Nat ↪ Nat) : ResolvedVariable → ResolvedVariable
  | column info => column (info.renumber ν)
  | external v t => external (v.renumber ν) t

def Found.map {α β : Type} (f : α → β) : Found α → Found β
  | nothing => nothing
  | one a => one (f a)
  | several => several

theorem Found.narrow_renumber (cs : List ColumnInfo) :
    narrow (cs.map (ColumnInfo.renumber ν)) = (narrow cs).map (ColumnInfo.renumber ν) := by
  match cs with
  | [] => rfl
  | [c] => rfl
  | c :: c' :: rest =>
    have hfilter : ((c :: c' :: rest).map (ColumnInfo.renumber ν)).filter (·.exported) =
        ((c :: c' :: rest).filter (·.exported)).map (ColumnInfo.renumber ν) := List.filter_map
    simp only [List.map_cons] at hfilter
    simp only [List.map_cons, narrow, hfilter]
    generalize (c :: c' :: rest).filter (·.exported) = found
    match found with
    | [] => rfl
    | [_] => rfl
    | _ :: _ :: _ => rfl

namespace RelationInfo

theorem columns_renumber (relations : List RelationInfo) :
    (relations.map (renumber ν)).flatMap (·.columns) = (relations.flatMap (·.columns)).map (ColumnInfo.renumber ν) := by
  rw [List.flatMap_map, List.map_flatMap]
  rfl

theorem column_renumber (r : RelationInfo) (key : String) :
    (r.renumber ν).column key = (r.column key).map (ColumnInfo.renumber ν) := by
  rw [column, renumber, List.filter_map, Found.narrow_renumber]
  rfl

theorem exportedColumns_renumber (r : RelationInfo) :
    (r.renumber ν).exportedColumns = r.exportedColumns.map (ColumnInfo.renumber ν) := List.filter_map

theorem carriers_renumber (r : RelationInfo) : (r.renumber ν).carriers = r.carriers.map (Variable.renumber ν) := by
  simp only [carriers, renumber, List.map_map]
  rfl

theorem columnOf?_renumber (r : RelationInfo) (v : Variable) :
    (r.renumber ν).columnOf? (v.renumber ν) = (r.columnOf? v).map (ColumnInfo.renumber ν) := by
  rw [columnOf?, renumber, List.find?_map]
  simp only [Function.comp_def, ColumnInfo.renumber, Variable.same_renumber]
  rfl

end RelationInfo

theorem lookup_map (f : α → β) (pairs : List (String × α)) (key : String) :
    (pairs.map fun p => (p.1, f p.2)).lookup key = (pairs.lookup key).map f := by
  induction pairs with
  | nil => rfl
  | cons p pairs ih =>
    rw [List.map_cons, List.lookup_cons, List.lookup_cons, ih]
    cases key == p.1 <;> rfl

theorem findSome?_of_forall₂ {α' β' : Type} {R : α → α' → Prop} {f : α → Option β} {f' : α' → Option β'}
    (r : β → β') {xs : List α} {xs' : List α'} (h : List.Forall₂ R xs xs')
    (hf : ∀ x x', R x x' → f' x' = (f x).map r) : xs'.findSome? f' = (xs.findSome? f).map r := by
  induction h with
  | nil => rfl
  | @cons x x' _ _ hx _ ih =>
    rw [List.findSome?_cons, List.findSome?_cons, hf x x' hx, ih]
    cases f x <;> rfl

/-- What two runs see in a scope: the same relations, and under all keys but the hidden ones the same named
queries, with other numbers. -/
structure Scope.Transfers {o : Options} (T : Transfer o) (s s' : Scope) : Prop where
  relations : s'.relations = s.relations.map (RelationInfo.renumber T.number)
  named : ∀ key, ¬ T.hidden key → s'.named? key = (s.named? key).map (NamedQuery.renumber T.number)

theorem Scope.Transfers.relationsCalled {s s' : Scope} (h : Transfers T s s') (name : String) :
    s'.relationsCalled name = (s.relationsCalled name).map (RelationInfo.renumber T.number) := by
  rw [Scope.relationsCalled, h.relations]
  exact List.filter_map

theorem Scope.Transfers.ofRelations (relations : List RelationInfo) :
    Transfers T { relations } { relations := relations.map (RelationInfo.renumber T.number) } :=
  ⟨rfl, fun _ _ => rfl⟩

theorem Scope.Transfers.ofNamed (named : List (String × NamedQuery)) :
    Transfers T { named } { named := NamedQuery.renumberAll T.number named } :=
  ⟨rfl, fun key _ => lookup_map _ _ key⟩

namespace Scopes

abbrev Transfers {o : Options} (T : Transfer o) : Scopes → Scopes → Prop := List.Forall₂ (Scope.Transfers T)

theorem transfers_renumber (scopes : Scopes) : Transfers T scopes (scopes.map (Scope.renumber T.number)) := by
  rw [Transfers, List.forall₂_map_right_iff]
  exact List.forall₂_same.mpr fun scope _ => ⟨rfl, fun key _ => lookup_map _ _ key⟩

theorem transfers_refl (h : T.number = .refl Nat) (scopes : Scopes) : Transfers T scopes scopes := by
  have htransfers := transfers_renumber (T := T) scopes
  rwa [h, funext Scope.renumber_refl, List.map_id'] at htransfers

namespace Transfers

variable {scopes scopes' : Scopes}

theorem column (h : Transfers T scopes scopes') (key : String) :
    scopes'.column key = (scopes.column key).map (ColumnInfo.renumber T.number) := by
  induction h with
  | nil => rfl
  | @cons scope scope' outer _ hscope _ ih =>
    have hfilter : ((scope'.relations.flatMap (·.columns)).filter (·.isNamed key)) =
        ((scope.relations.flatMap (·.columns)).filter (·.isNamed key)).map (ColumnInfo.renumber T.number) := by
      rw [hscope.relations, RelationInfo.columns_renumber, List.filter_map]
      rfl
    simp only [Scopes.column, hfilter, Found.narrow_renumber, ih]
    cases Found.narrow ((scope.relations.flatMap (·.columns)).filter (·.isNamed key)) <;> rfl

theorem relation (h : Transfers T scopes scopes') (key : String) :
    scopes'.relation key = (scopes.relation key).map (RelationInfo.renumber T.number) := by
  induction h with
  | nil => rfl
  | @cons scope _ _ _ hscope _ ih =>
    simp only [Scopes.relation, hscope.relationsCalled, ih]
    rcases scope.relationsCalled key with _ | ⟨_, _ | ⟨_, _⟩⟩ <;> rfl

theorem scanOf? (h : Transfers T scopes scopes') (table : TableDecl) :
    scopes'.scanOf? table = (scopes.scanOf? table).map (RelationInfo.renumber T.number) := by
  refine findSome?_of_forall₂ _ h fun scope scope' hscope => ?_
  rw [hscope.relations]
  exact List.find?_map

theorem hasRelation (h : Transfers T scopes scopes') : scopes'.hasRelation = scopes.hasRelation := by
  induction h with
  | nil => rfl
  | cons hscope _ ih =>
    rw [Scopes.hasRelation, List.any_cons, hscope.relations, List.isEmpty_map, ← Scopes.hasRelation, ih]
    rfl

theorem named? (h : Transfers T scopes scopes') {key : String} (hkey : ¬ T.hidden key) :
    scopes'.named? key = (scopes.named? key).map (NamedQuery.renumber T.number) :=
  findSome?_of_forall₂ _ h fun _ _ hscope => hscope.named key hkey

end Transfers

end Scopes

namespace SearchPath

variable {key : String}

theorem table?_extend (further : List Schema) (h : env.searchPath.table? key = some found) :
    (env.extend further).searchPath.table? key = some found := by
  unfold table? at *
  rw [Environment.extend, List.findSome?_append, h, Option.some_or]

theorem findVariable?_extend (further : List Schema) {decl : VariableDecl}
    (h : env.searchPath.findVariable? key = some decl) :
    (env.extend further).searchPath.findVariable? key = some decl := by
  unfold findVariable? at *
  rw [Environment.extend, List.findSome?_append, h, Option.some_or]

end SearchPath

/-- Whether the second run finds what a name stands for where the first one does: no hidden named query goes
under the name of a table, and there are no further overloads of a function. A literal panics only if the runs
may. -/
def Transfer.Allows {o : Options} (T : Transfer o) : Mention → Prop
  | .table name => ∀ i, name.segments = [i] → ¬ T.hidden (o.key i)
  | .function _ => T.further = []
  | .literal l => l.panics o = true → T.panics

abbrev Transfer.AllowsAll {o : Options} (T : Transfer o) (mentions : List Mention) : Prop :=
  ∀ x ∈ mentions, T.Allows x

theorem Transfer.allowsAll_of_visible (hpath : T.further = []) (hhidden : ∀ key, ¬ T.hidden key)
    (hpanics : T.panics) (mentions : List Mention) : T.AllowsAll mentions := by
  intro x _
  cases x with
  | table name => exact fun i _ => hhidden _
  | function name => exact hpath
  | literal l => exact fun _ => hpanics

namespace Name

variable (name : Name) {scopes scopes' : Scopes}

theorem objectKey_transfers :
    Step.Transfers T count g (fun key => key) name.objectKey (name.respell T.spell).objectKey := by
  refine .options ?_
  rw [last?_respell]
  cases name.last? with
  | none => exact .fail _ _ _
  | some i => exact .pure (T.spelling.key_spell i).symm

theorem objectKey_respell (w : Spelling env.options) (s : σ) :
    (name.respell w.spell).objectKey env s = name.objectKey env s := by
  unfold objectKey
  rw [last?_respell]
  cases name.last? with
  | none => rfl
  | some i => exact congrArg (fun key => (Outcome.ok key, s)) (w.key_spell i)

theorem resolveSchema_respell (w : Spelling env.options) (qualifier : List Identifier) (location : Option Span)
    (s : σ) : resolveSchema (qualifier.map w.spell) location env s = resolveSchema qualifier location env s := by
  unfold resolveSchema
  rw [Step.bind_eq_of_ok rfl, Step.bind_eq_of_ok rfl]
  rcases qualifier with _ | ⟨a, _ | ⟨b, _ | ⟨c, rest⟩⟩⟩ <;>
    simp only [List.map_cons, List.map_nil, w.key_spell]

theorem lookUp_respell (w : Spelling env.options) (suffix : String) (inSchema : Schema → String → α)
    (onPath : SearchPath → String → α) (s : σ) :
    (name.respell w.spell).lookUp suffix inSchema onPath env s = name.lookUp suffix inSchema onPath env s := by
  unfold lookUp
  rw [span_respell, qualifier_respell, Step.bind_congr (name.objectKey_respell w s)]
  rcases hkey : name.objectKey env s with ⟨⟨failure | key, log⟩, t⟩
  · rw [Step.bind_of_failure hkey, Step.bind_of_failure hkey]
  · rw [Step.bind_of_result hkey, Step.bind_of_result hkey]
    rw [Step.bind_eq_of_ok (m := Step.environment) rfl, Step.bind_eq_of_ok (m := Step.environment) rfl,
      Step.bind_congr (resolveSchema_respell w name.qualifier (some name.span) t)]

theorem findTable_respell (w : Spelling env.options) (s : σ) :
    (name.respell w.spell).findTable env s = name.findTable env s :=
  Step.bind_congr (name.lookUp_respell w _ _ _ s) _

theorem objectKey_extend (further : List Schema) (s : σ) :
    name.objectKey (env.extend further) s = name.objectKey env s := by
  unfold objectKey
  cases name.last? <;> rfl

theorem resolveSchema_extend (qualifier : List Identifier) (location : Option Span) (further : List Schema) (s : σ) :
    resolveSchema qualifier location (env.extend further) s = resolveSchema qualifier location env s := by
  unfold resolveSchema
  rw [Step.bind_eq_of_ok rfl, Step.bind_eq_of_ok rfl]
  rcases qualifier with _ | ⟨catalog, _ | ⟨schema, _ | ⟨_, _⟩⟩⟩
  · rfl
  · simp only [Environment.extend]
    cases env.catalog.schema? (env.options.key catalog) <;> rfl
  · dsimp only
    by_cases hname : env.options.key catalog ≠ env.catalog.name
    · rw [if_pos hname, if_pos (show (env.extend further).options.key catalog ≠ (env.extend further).catalog.name
        from hname)]
      rfl
    · rw [if_neg hname, if_neg (show ¬(env.extend further).options.key catalog ≠ (env.extend further).catalog.name
        from hname)]
      simp only [Environment.extend]
      cases env.catalog.schema? (env.options.key schema) <;> rfl
  · rfl

theorem findTable_extend (further : List Schema) (h : name.findTable env s = (.ok (some found), s')) :
    name.findTable (env.extend further) s = (.ok (some found), s') := by
  simp only [findTable, lookUp, Step.bind_ok, Step.environment_ok, Step.pure_ok, objectKey_extend,
    resolveSchema_extend, Prod.exists] at h ⊢
  obtain ⟨key', _, _, ⟨key, _, hkey, _, _, ⟨rfl, rfl⟩, schema, _, hschema, hp⟩, rfl, rfl⟩ := h
  refine ⟨key', some found, _, ⟨key, _, hkey, _, _, ⟨rfl, rfl⟩, schema, _, hschema, ?_⟩, rfl, rfl⟩
  cases schema with
  | some schema => exact hp
  | none =>
    obtain ⟨hpair, rfl⟩ := Step.pure_ok.mp hp
    obtain ⟨rfl, hpath⟩ := Prod.mk.inj hpair
    refine Step.pure_ok.mpr ⟨?_, rfl⟩
    rw [SearchPath.table?_extend further hpath]

theorem resolveTable_ok :
    name.resolveTable env s = (.ok found, s') ↔ name.findTable env s = (.ok (some found), s') := by
  rw [resolveTable, Step.bind_ok]
  constructor
  · rintro ⟨found?, t, hfind, h⟩
    cases found? with
    | none => cases h
    | some found' =>
      obtain ⟨rfl, rfl⟩ := Step.pure_ok.mp h
      exact hfind
  · intro hfind
    exact ⟨some found, s', hfind, rfl⟩

theorem resolveTable_transfers :
    Step.Transfers T count g (fun found => found) name.resolveTable (name.respell T.spell).resolveTable := by
  refine .reads name.resolveTable_reads (fun found s h => ?_) fun hpath => ?_
  · have hextend := name.findTable_extend T.further (name.resolveTable_ok.mp h)
    let spelling : Spelling (env.extend T.further).options := T.spelling
    exact (resolveTable_ok _).mpr ((name.findTable_respell spelling s).trans hextend)
  · unfold resolveTable
    rw [span_respell]
    refine .bind (.reads_of_nil hpath name.findTable_reads (name.findTable_respell T.spelling)) fun found => ?_
    cases found with
    | some found => exact .pure rfl
    | none => exact .failText fun h => by rw [h.respell]

theorem resolveBare_transfers (h : Scopes.Transfers T scopes scopes') :
    Analysis.Transfers T (ResolvedVariable.renumber T.number) (name.resolveBare scopes)
      ((name.respell T.spell).resolveBare scopes') := by
  unfold resolveBare
  rw [span_respell]
  refine .bind name.objectKey_transfers fun key => ?_
  rw [h.column, h.hasRelation]
  cases scopes.column key with
  | one c => exact .pure rfl
  | several => exact .fail _ _ _
  | nothing =>
    refine .environment ?_
    cases hfound : env.searchPath.findVariable? key with
    | some decl =>
      rw [SearchPath.findVariable?_extend T.further hfound]
      exact .bind (Analysis.mint_transfers _) fun v => .pure rfl
    | none =>
      by_cases hpath : T.further = []
      · rw [hpath, Environment.extend_nil, hfound]
        exact .fail _ _ _
      · exact .failed hpath

theorem resolveInRelation_transfers (h : Scopes.Transfers T scopes scopes') (relation column : Identifier) :
    Analysis.Transfers T (ResolvedVariable.renumber T.number) (name.resolveInRelation relation column scopes)
      ((name.respell T.spell).resolveInRelation (T.spell relation) (T.spell column) scopes') := by
  unfold resolveInRelation
  rw [span_respell]
  refine .options ?_
  dsimp only
  rw [T.spelling.key_spell, T.spelling.key_spell, h.relation]
  cases scopes.relation (env.options.key relation) with
  | several | nothing => exact .fail _ _ _
  | one r =>
    simp only [Found.map, RelationInfo.column_renumber]
    cases r.column (env.options.key column) with
    | one c => exact .pure rfl
    | nothing | several => exact .fail _ _ _

theorem resolveInTable_transfers (h : Scopes.Transfers T scopes scopes') :
    Analysis.Transfers T (ResolvedVariable.renumber T.number) (name.resolveInTable scopes)
      ((name.respell T.spell).resolveInTable scopes') := by
  unfold resolveInTable
  rw [span_respell, qualifier_respell]
  refine .bind (resolveTable_transfers ⟨name.qualifier⟩) fun found => .bind name.objectKey_transfers fun key => ?_
  rw [h.scanOf?]
  cases scopes.scanOf? found.2 with
  | none => exact .failText fun hw => by rw [List.map_congr_left fun i _ => hw i, List.map_id']
  | some r =>
    simp only [Option.map_some, RelationInfo.column_renumber]
    cases r.column key with
    | one c => exact .pure rfl
    | nothing | several => exact .fail _ _ _

theorem resolveVariable_transfers (h : Scopes.Transfers T scopes scopes') :
    Analysis.Transfers T (ResolvedVariable.renumber T.number) (name.resolveVariable scopes)
      ((name.respell T.spell).resolveVariable scopes') := by
  have hinvalid : Analysis.Transfers T (ResolvedVariable.renumber T.number)
      (Step.fail .malformedSyntax (some name.span) ("invalid variable name '" ++ name.render ++ "'"))
      (Step.fail .malformedSyntax (some (name.respell T.spell).span)
        ("invalid variable name '" ++ (name.respell T.spell).render ++ "'")) := by
    rw [span_respell]
    exact .failText fun hw => by rw [hw.respell]
  obtain ⟨segments⟩ := name
  rcases segments with _ | ⟨a, _ | ⟨b, _ | ⟨c, _ | ⟨d, _ | ⟨e, rest⟩⟩⟩⟩⟩
  · exact hinvalid
  · exact resolveBare_transfers _ h
  · exact resolveInRelation_transfers _ h a b
  · exact resolveInTable_transfers _ h
  · exact resolveInTable_transfers _ h
  · exact hinvalid

end Name

end SqlPlan
