import SqlPlan.Proofs.PlanSoundness
import SqlPlan.Proofs.SessionFrame

namespace SqlPlan

variable {Q α β : Type} {env : Environment}
variable {m k i n : Nat} {ν : Nat ↪ Nat} {d d' : Draft} {T : Transfer env.options}
  {named named' : List (String × NamedQuery)} {key : String} {p : Planned} {s : Session} {graph : Graph}

/-- The numbers up to `m` stay and those above leave room for `k` others. -/
def Transfer.gap (m k : Nat) : Nat ↪ Nat where
  toFun i := if i ≤ m then i else i + k
  inj' := by
    intro i j h
    dsimp only at h
    split at h <;> split at h <;> omega

theorem Transfer.gap_of_le (h : i ≤ m) : gap m k i = i := if_pos h

theorem Transfer.gap_of_lt (h : m < i) : gap m k i = i + k := if_neg (Nat.not_le_of_lt h)

/-- The second run has planned a query more, under a key of its own: it sees the query there and has minted `k`
variables more from count `m` on. -/
def Transfer.around (env : Environment) (m k : Nat) (key : String) : Transfer env.options where
  number := gap m k
  offset := k
  hidden := (· = key)

theorem Transfer.around_mints (m k : Nat) (key : String) (n : Nat) : (around env m k key).Mints m n :=
  fun _ hm _ => gap_of_lt (Nat.lt_succ_of_le hm)

def Graph.Below (n : Nat) (g : Graph) : Prop := ∀ ν : Nat ↪ Nat, (∀ i ≤ n, ν i = i) → g.renumber ν = g

def Scope.Below (n : Nat) (scope : Scope) : Prop :=
  ∀ ν : Nat ↪ Nat, (∀ i ≤ n, ν i = i) → scope.renumber ν = scope

def Scopes.Below (n : Nat) (scopes : Scopes) : Prop := ∀ scope ∈ scopes, scope.Below n

theorem Graph.Below.renumber (h : d.graph.Below d.minted) (hν : ∀ i ≤ d.minted, ν i = i) :
    d.renumber ({ number := ν } : Transfer env.options) = d := by
  rw [Draft.renumber, Graph.empty_onto, h ν hν]
  rfl

theorem Scope.Below.mono {scope : Scope} (h : scope.Below m) (hle : m ≤ n) : scope.Below n :=
  fun ν hν => h ν fun i hi => hν i (Nat.le_trans hi hle)

theorem Scopes.Below.transfers {scopes : Scopes} (h : scopes.Below n) (hT : ∀ i ≤ n, T.number i = i) :
    Scopes.Transfers T scopes scopes := by
  have htransfers := Scopes.transfers_renumber (T := T) scopes
  rwa [List.map_congr_left fun scope hscope => h scope hscope T.number hT, List.map_id'] at htransfers

-- that planning counts up is the first half of a comparison of the run with itself
theorem planNamed_minted_le (env : Environment) (outer : Scopes) (named : List (String × NamedQuery))
    (elements : List (WithElement (Query (Expr Q)))) (d : Draft) :
    d.minted ≤ (planNamed outer named elements env d).2.minted :=
  (planNamed_transfers elements (outer.transfers_refl rfl) (Transfer.allowsAll_refl env _) named).count_le d

theorem Query.planAs_minted_le (env : Environment) (outer : Scopes) (query : Query (Expr Q))
    (correlation : Option Correlation) (d : Draft) : d.minted ≤ (query.planAs outer correlation env d).2.minted :=
  (query.planAs_transfers (outer.transfers_refl rfl) (Transfer.allowsAll_refl env _) correlation).count_le d

theorem planNamed_append (outer : Scopes) (named : List (String × NamedQuery))
    (before after : List (WithElement (Query (Expr Q)))) :
    planNamed outer named (before ++ after) =
      (planNamed outer named before >>= fun named => planNamed outer named after) := by
  induction before generalizing named with
  | nil => rw [List.nil_append, planNamed, Step.pure_bind]
  | cons e before ih =>
    rw [List.cons_append, planNamed, planNamed]
    simp only [Step.bind_assoc, ih]

/-- Plans the elements of a WITH query after some others, and then its body. -/
def planWithin (outer : Scopes) (named : List (String × NamedQuery)) (elements : List (WithElement (Query (Expr Q))))
    (body : Query (Expr Q)) (correlation : Option Correlation) : Planning Planned := do
  let named ← planNamed outer named elements
  body.planAs ({ named } :: outer) correlation

theorem Query.planAs_withClause (outer : Scopes) (elements : List (WithElement (Query (Expr Q))))
    (body : Query (Expr Q)) (correlation : Option Correlation) :
    (Query.withClause false elements body).planAs outer correlation = planWithin outer [] elements body correlation :=
  Step.bind_assoc _ _ _

theorem planWithin_append (outer : Scopes) (named : List (String × NamedQuery))
    (before after : List (WithElement (Query (Expr Q)))) (body : Query (Expr Q)) (correlation : Option Correlation) :
    planWithin outer named (before ++ after) body correlation =
      (planNamed outer named before >>= fun named => planWithin outer named after body correlation) := by
  rw [planWithin, planNamed_append, Step.bind_assoc]
  rfl

variable {elements : List (WithElement (Query (Expr Q)))}

theorem planNamed_keys {outer : Scopes} :
    ∀ {named named' : List (String × NamedQuery)} {d d' : Draft},
      planNamed outer named elements env d = (.ok named', d') →
        named'.map (·.1) = named.map (·.1) ++ elements.map (env.options.key ·.name) := by
  induction elements with
  | nil =>
    intro named named' d d' h
    obtain ⟨rfl, -⟩ := Step.pure_ok.mp h
    rw [List.map_nil, List.append_nil]
  | cons e elements ih =>
    intro named named' d d' h
    simp only [planNamed, Step.bind_ok, Prod.exists] at h
    obtain ⟨key, _, hkey, p, graph, _, -, element, _, -, hrest⟩ := h
    obtain ⟨rfl, -⟩ := NamedQuery.newKey_ok hkey
    rw [ih hrest, List.map_append, List.append_assoc]
    rfl

theorem lookup_eq_none_of_keys (h : key ∉ named.map (·.1)) : named.lookup key = none := by
  refine List.lookup_eq_none_iff.mpr fun p hp => bne_iff_ne.mpr ?_
  rintro rfl
  exact h (List.mem_map_of_mem hp)

theorem Scope.Transfers.define (h : Scope.Transfers T { named } { named := named' }) (key : String) (q : NamedQuery) :
    Scope.Transfers T { named := named ++ [(key, q)] } { named := named' ++ [(key, q.renumber T.number)] } := by
  refine ⟨rfl, fun other hother => ?_⟩
  have hnamed : named'.lookup other = (named.lookup other).map (NamedQuery.renumber T.number) := h.named other hother
  have hlast := lookup_map (NamedQuery.renumber T.number) [(key, q)] other
  rw [named?, named?, List.lookup_append, List.lookup_append, hnamed, Option.map_or, ← hlast]
  rfl

/-- Elements that have no hidden keys themselves are planned alike, though the second run sees a hidden query in
the scope that they are defined in, and so is the body after them. -/
theorem planWithin_transfers (hspell : T.spell = id) {outer outer' : Scopes} (hscopes : Scopes.Transfers T outer outer')
    {body : Query (Expr Q)} (hbody : T.AllowsAll body.mentions) (correlation : Option Correlation)
    (hkeys : ∀ e ∈ elements, ¬ T.hidden (env.options.key e.name))
    (h : T.AllowsAll (WithElement.listMentions elements))
    (hnamed : Scope.Transfers T { named } { named := named' }) :
    Planning.Transfers T T.planned (planWithin outer named elements body correlation)
      (planWithin outer' named' elements body correlation) := by
  induction elements generalizing named named' with
  | nil => exact body.planAs_transfers_id hspell (.cons hnamed hscopes) hbody correlation
  | cons e elements ih =>
    obtain ⟨hkey, hkeys⟩ := List.forall_mem_cons.mp hkeys
    obtain ⟨hquery, hrest⟩ := List.forall_mem_append.mp h
    rw [planWithin, planWithin, planNamed, planNamed]
    simp only [Step.bind_assoc]
    have hnew : Planning.Transfers T _ (NamedQuery.newKey named e.name) _ :=
      NamedQuery.newKey_transfers ((congrArg Option.isSome (hnamed.named _ hkey)).trans Option.isSome_map)
    have hplan := e.query.plan_transfers (Scopes.Transfers.inner (.cons hnamed hscopes)) hquery
    rw [show T.inner.spell = id from hspell, e.query.plan_respell_id] at hplan
    rw [hspell] at hnew
    refine .bind hnew fun key => .bind (Planning.separately_transfers hplan) ?_
    rintro ⟨planned, graph⟩
    have helement := NamedQuery.ofPlanned_transfers (T := T) e.name e.columns planned graph
    rw [hspell, List.map_id] at helement
    exact .bind helement fun element => ih hkeys hrest (hnamed.define key element)

/-- An element that can be planned by itself, in the scope of those before it, leaves behind what it has minted
and its key. -/
theorem planNamed_cons_eq {outer : Scopes} {c : WithElement (Query (Expr Q))}
    (hkey : named.lookup (env.options.key c.name) = none)
    (h : c.query.planAs ({ named } :: outer) (some ⟨c.name, c.columns⟩) env ⟨d.minted, .empty⟩ = (.ok p, d'))
    (after : List (WithElement (Query (Expr Q)))) :
    planNamed outer named (c :: after) env d =
      planNamed outer (named ++ [(env.options.key c.name, ⟨d'.graph, p.output, p.relation⟩)]) after env
        ⟨d'.minted, d.graph⟩ := by
  obtain ⟨planned, d₁, hplan, h⟩ := Step.bind_ok.mp h
  obtain ⟨relation, d₂, hrelation, h⟩ := Step.bind_ok.mp h
  obtain ⟨rfl, rfl⟩ := Step.pure_ok.mp h
  obtain ⟨rfl, hcorrelate⟩ := (RelationInfo.correlate_reads planned.relation _).ok_iff hrelation
  have hnew : NamedQuery.newKey named c.name env d = (.ok (env.options.key c.name), d) := by
    have hfree : ¬ (named.lookup (env.options.key c.name)).isSome = true := by simp [hkey]
    simp only [NamedQuery.newKey, Step.bind_ok, Step.options_ok, Step.ite_ok, Step.pure_ok]
    exact ⟨_, _, ⟨rfl, rfl⟩, .inr ⟨hfree, rfl, rfl⟩⟩
  have hseparately : Planning.separately (c.query.plan ({ named } :: outer)) env d =
      (.ok (planned, d₂.graph), ⟨d₂.minted, d.graph⟩) := by
    rw [Planning.separately, hplan]
    rfl
  have hofPlanned : NamedQuery.ofPlanned c.name c.columns planned d₂.graph env ⟨d₂.minted, d.graph⟩ =
      (.ok ⟨d₂.graph, planned.output, relation⟩, ⟨d₂.minted, d.graph⟩) := by
    rw [NamedQuery.ofPlanned, Step.bind_eq_of_ok (hcorrelate _)]
    rfl
  rw [planNamed, Step.bind_eq_of_ok hnew, Step.bind_eq_of_ok hseparately]
  exact Step.bind_eq_of_ok hofPlanned

/-- Whether an element can be planned, with its column list, in the scope of those before it. If one of these is
refused, it is not planned at all. -/
def WithElement.compiles (outer : Scopes) (before : List (WithElement (Query (Expr Q))))
    (c : WithElement (Query (Expr Q))) (env : Environment) (d : Draft) : Bool :=
  let first := planNamed outer [] before env d
  first.1.toOption.all fun named =>
    (c.query.planAs ({ named } :: outer) (some ⟨c.name, c.columns⟩) env ⟨first.2.minted, .empty⟩).1.isOk

theorem WithElement.compiles_ok {outer : Scopes} {before : List (WithElement (Query (Expr Q)))}
    {c : WithElement (Query (Expr Q))} {d₁ : Draft} (h : c.compiles outer before env d = true)
    (hbefore : planNamed outer [] before env d = (.ok named, d₁)) :
    ∃ p d₂, c.query.planAs ({ named } :: outer) (some ⟨c.name, c.columns⟩) env ⟨d₁.minted, .empty⟩ = (.ok p, d₂) := by
  rw [compiles, hbefore] at h
  exact Step.exists_ok h

/-- Nothing in a WITH query refers to an element: the other elements have other names, and neither a later one
nor the body reads from a table of its name. -/
structure WithElement.Unreferenced (o : Options) (before : List (WithElement (Query (Expr Q))))
    (c : WithElement (Query (Expr Q))) (after : List (WithElement (Query (Expr Q)))) (body : Query (Expr Q)) :
    Prop where
  alone : ∀ e ∈ before ++ after, o.key e.name ≠ o.key c.name
  unread : ∀ i, .table ⟨[i]⟩ ∈ WithElement.listMentions after ++ body.mentions → o.key i ≠ o.key c.name

theorem planNamed_fixed {outer : Scopes} {r : Outcome (List (String × NamedQuery))}
    (h : planNamed outer [] elements env d = (r, d')) (houter : outer.Below d.minted) (hgraph : d.graph.Below d.minted)
    (hν : ∀ i ≤ d'.minted, ν i = i) : r.map (NamedQuery.renumberAll ν) = r ∧ d'.graph.renumber ν = d'.graph := by
  let T : Transfer env.options := { number := ν }
  have hle := planNamed_minted_le env outer [] elements d
  rw [h] at hle
  have hbelow : ∀ i ≤ d.minted, ν i = i := fun i hi => hν i (Nat.le_trans hi hle)
  have htransfers : Planning.Transfers T _ _ _ := planNamed_transfers_id rfl (houter.transfers hbelow) elements
    (Transfer.allowsAll_of_visible rfl (fun _ => not_false) trivial _) []
  have hfixed := htransfers.fixed (hgraph.renumber hbelow) (by rwa [h])
  rw [h] at hfixed
  obtain ⟨hr, hd⟩ := Prod.mk.inj hfixed
  exact ⟨hr.symm, ((congrArg Draft.graph hd).trans (Graph.empty_onto _)).symm⟩

theorem Query.planAs_below {outer : Scopes} (houter : outer.Below d.minted) (hgraph : d.graph.Below d.minted)
    (query : Query (Expr Q)) (correlation : Option Correlation) :
    (query.planAs outer correlation env d).2.graph.Below (query.planAs outer correlation env d).2.minted := by
  intro ν hν
  let T : Transfer env.options := { number := ν }
  have hbelow : ∀ i ≤ d.minted, ν i = i := fun i hi =>
    hν i (Nat.le_trans hi (query.planAs_minted_le env outer correlation d))
  have htransfers : Planning.Transfers T _ _ _ := query.planAs_transfers_id rfl (houter.transfers hbelow)
    (Transfer.allowsAll_of_visible rfl (fun _ => not_false) trivial _) correlation
  have hfixed := congrArg Prod.snd (htransfers.fixed (hgraph.renumber hbelow) hν)
  exact ((congrArg Draft.graph hfixed).trans (Graph.empty_onto _)).symm

theorem Scope.Transfers.ofHidden (hnamed : NamedQuery.renumberAll T.number named = named) (hkey : T.hidden key)
    (q : NamedQuery) : Scope.Transfers T { named } { named := named ++ [(key, q)] } := by
  refine ⟨rfl, fun other hother => ?_⟩
  have hne : (other == key) = false := beq_false_of_ne fun h => hother (h ▸ hkey)
  have hsame := lookup_map (NamedQuery.renumber T.number) named other
  change (NamedQuery.renumberAll T.number named).lookup other = _ at hsame
  rw [hnamed] at hsame
  rw [named?, named?, List.lookup_append, ← hsame, List.lookup_cons, hne]
  exact Option.or_none

namespace WithElement.Unreferenced

variable {outer : Scopes} {before after : List (WithElement (Query (Expr Q)))} {c : WithElement (Query (Expr Q))}
  {body : Query (Expr Q)}

theorem allowsAll (h : c.Unreferenced env.options before after body) (m k : Nat) :
    (Transfer.around env m k (env.options.key c.name)).AllowsAll (WithElement.listMentions after ++ body.mentions) := by
  intro x hx
  cases x with
  | function name => rfl
  | table name =>
    rintro i hi
    obtain rfl : name = ⟨[i]⟩ := congrArg Name.mk hi
    exact h.unread i hx
  | literal l => exact fun _ => trivial

theorem lookup_eq_none (h : c.Unreferenced env.options before after body)
    (hnamed : planNamed outer [] before env d = (.ok named, d')) : named.lookup (env.options.key c.name) = none := by
  refine lookup_eq_none_of_keys ?_
  rw [planNamed_keys hnamed, List.map_nil, List.nil_append, List.mem_map]
  rintro ⟨e, he, hkey⟩
  exact h.alone e (List.mem_append_left after he) hkey

/-- From an unreferenced element on, what is planned without it is planned with it too. -/
theorem planWithin_cons (h : c.Unreferenced env.options before after body)
    (hkey : named.lookup (env.options.key c.name) = none)
    (hc : c.query.planAs ({ named } :: outer) (some ⟨c.name, c.columns⟩) env ⟨d.minted, .empty⟩ = (.ok p, d'))
    (hk : d'.minted = d.minted + k) (houter : ∀ key, Scopes.Transfers (.around env d.minted k key) outer outer)
    (hnamed : NamedQuery.renumberAll (Transfer.gap d.minted k) named = named)
    (hgraph : d.graph.renumber (Transfer.gap d.minted k) = d.graph) (correlation : Option Correlation) :
    planWithin outer named (c :: after) body correlation env d =
      ((planWithin outer named after body correlation env d).1.map (Planned.renumber (Transfer.gap d.minted k)),
        ⟨(planWithin outer named after body correlation env d).2.minted + k,
          (planWithin outer named after body correlation env d).2.graph.renumber (Transfer.gap d.minted k)⟩) := by
  obtain ⟨hafter, hbody⟩ := List.forall_mem_append.mp (h.allowsAll d.minted k)
  have hscope : Scope.Transfers (.around env d.minted k (env.options.key c.name)) { named } _ :=
    .ofHidden hnamed rfl ⟨d'.graph, p.output, p.relation⟩
  have hkeys : ∀ e ∈ after, env.options.key e.name ≠ env.options.key c.name := fun e he =>
    h.alone e (List.mem_append_right before he)
  have hdraft : ∀ e : Draft, e.renumber (.around env d.minted k (env.options.key c.name)) =
      ⟨e.minted + k, e.graph.renumber (Transfer.gap d.minted k)⟩ := fun e =>
    congrArg (Draft.mk (e.minted + k)) (Graph.empty_onto _)
  have htransfers := planWithin_transfers rfl (houter _) hbody correlation hkeys hafter hscope
  have hrun := htransfers.run_eq rfl (fun _ => rfl) (Transfer.around_mints _ _ _ _) (s := d)
  rw [hdraft, hdraft, hgraph, ← hk] at hrun
  rw [planWithin, Step.bind_congr (planNamed_cons_eq hkey hc after)]
  exact hrun

end WithElement.Unreferenced

theorem Query.planAs_unreferenced {outer : Scopes} (houter : outer.Below d.minted) (hgraph : d.graph.Below d.minted)
    {before after : List (WithElement (Query (Expr Q)))} {c : WithElement (Query (Expr Q))} {body : Query (Expr Q)}
    (hc : c.compiles outer before env d = true) (h : c.Unreferenced env.options before after body)
    (correlation : Option Correlation) :
    ∃ ν : Nat ↪ Nat, (∀ i ≤ d.minted, ν i = i) ∧
      ((Query.withClause false (before ++ c :: after) body).planAs outer correlation env d).1 =
        ((Query.withClause false (before ++ after) body).planAs outer correlation env d).1.map (Planned.renumber ν) ∧
      ((Query.withClause false (before ++ c :: after) body).planAs outer correlation env d).2.graph =
        ((Query.withClause false (before ++ after) body).planAs outer correlation env d).2.graph.renumber ν := by
  have hle := planNamed_minted_le env outer [] before d
  rw [planAs_withClause, planAs_withClause, planWithin_append, planWithin_append]
  have hregular := (planNamed_transfers before (outer.transfers_refl rfl) (Transfer.allowsAll_refl env _) []).regular d
  rcases hbefore : planNamed outer [] before env d with ⟨o, d₁⟩
  rw [hbefore] at hle hregular
  cases hregular with
  | error | panic =>
    -- the elements before it are refused, in both queries
    obtain ⟨-, hfixed⟩ := planNamed_fixed (ν := .refl _) hbefore houter hgraph fun _ _ => rfl
    rw [Step.bind_of_failure hbefore, Step.bind_of_failure hbefore]
    exact ⟨.refl _, fun _ _ => rfl, rfl, hfixed.symm⟩
  | ok named =>
    obtain ⟨p, d₂, hplan⟩ := WithElement.compiles_ok hc hbefore
    have hminted := c.query.planAs_minted_le env ({ named } :: outer) (some ⟨c.name, c.columns⟩) ⟨d₁.minted, .empty⟩
    rw [hplan] at hminted
    obtain ⟨k, hk⟩ := Nat.exists_eq_add_of_le hminted
    have hgap : ∀ i ≤ d₁.minted, Transfer.gap d₁.minted k i = i := fun i hi => Transfer.gap_of_le hi
    have hold : ∀ i ≤ d.minted, Transfer.gap d₁.minted k i = i := fun i hi => hgap i (Nat.le_trans hi hle)
    obtain ⟨hnamed, hfixed⟩ := planNamed_fixed hbefore houter hgraph hgap
    have hwithin := h.planWithin_cons (h.lookup_eq_none hbefore) hplan hk
      (fun key => houter.transfers (T := .around env d₁.minted k key) hold) (Outcome.ok_inj.mp hnamed) hfixed
      correlation
    rw [Step.bind_eq_of_ok hbefore, Step.bind_eq_of_ok hbefore, hwithin]
    exact ⟨Transfer.gap d₁.minted k, hold, rfl, rfl⟩

namespace Session

/-- The variables of a graph and of the open scopes are among those that the session has minted. -/
structure Minted (s : Session) (graph : Graph) : Prop where
  graph : graph.Below s.minted
  scopes : ∀ slot ∈ s.scopes.slots, slot.2.Below s.minted

theorem Minted.visible (h : s.Minted graph) (scope : Option Nat) : (s.scopes.visible scope).Below s.minted := by
  cases scope with
  | none => exact fun _ hscope => absurd hscope List.not_mem_nil
  | some id =>
    intro scope hscope
    obtain ⟨i, -, hi⟩ := List.mem_filterMap.mp hscope
    obtain ⟨slot, hslot, rfl⟩ := Option.map_eq_some_iff.mp hi
    exact h.scopes slot (List.mem_of_getElem? hslot)

theorem minted_empty (environment : Environment) : Minted { environment } .empty :=
  ⟨fun _ _ => rfl, fun _ hslot => absurd hslot List.not_mem_nil⟩

theorem planQuery_minted (h : s.Minted graph) (q : Query (Expr Q)) (scope : Option Nat)
    (correlation : Option Correlation) :
    (s.planQuery graph q scope correlation).2.2.Minted (s.planQuery graph q scope correlation).2.1 := by
  have hcontinues := s.planQuery_continues graph q scope correlation
  refine ⟨?_, ?_⟩
  · rw [planQuery_eq]
    exact q.planAs_below (h.visible scope) h.graph correlation
  · rw [hcontinues.scopes]
    exact fun slot hslot => (h.scopes slot hslot).mono hcontinues.minted_le

theorem pushScope_minted (h : s.Minted graph) (parent : Option Nat) {relations : List RelationInfo}
    (hrelations : Scope.Below s.minted { relations }) : (s.pushScope parent relations).2.Minted graph := by
  refine ⟨h.graph, fun slot hslot => ?_⟩
  rcases List.mem_append.mp hslot with hslot | hslot
  · exact h.scopes slot hslot
  · rw [List.mem_singleton.mp hslot]
    exact hrelations

/-- A WITH query with an element that nothing refers to, and that can be planned itself, is planned exactly if it
is planned without the element. It is refused with the same diagnostics, and the graphs, outputs and relations
are the same but for the numbers of the variables minted in between. -/
theorem planQuery_unreferenced {s : Session} {graph : Graph} (hminted : s.Minted graph) (scope : Option Nat)
    {before after : List (WithElement (Query (Expr Q)))} {c : WithElement (Query (Expr Q))} {body : Query (Expr Q)}
    (hc : c.compiles (s.scopes.visible scope) before s.environment ⟨s.minted, graph⟩ = true)
    (h : c.Unreferenced s.environment.options before after body) (correlation : Option Correlation) :
    let full := s.planQuery graph (.withClause false (before ++ c :: after) body) scope correlation
    let reduced := s.planQuery graph (.withClause false (before ++ after) body) scope correlation
    ∃ ν : Nat ↪ Nat, (∀ i ≤ s.minted, ν i = i) ∧ full.1 = reduced.1.map (Planned.renumber ν) ∧
      full.2.1 = reduced.2.1.renumber ν ∧ full.2.2.log = reduced.2.2.log := by
  obtain ⟨ν, hν, hresult, hgraph⟩ := Query.planAs_unreferenced (hminted.visible scope) hminted.graph hc h correlation
  refine ⟨ν, hν, ?_⟩
  have hlog := congrArg Outcome.log hresult
  rw [planQuery_eq, planQuery_eq]
  exact ⟨congrArg Outcome.result hresult, hgraph, congrArg (s.log ++ ·) hlog⟩

end Session

namespace Sample

/-- `SELECT x FROM ...` -/
def selectX (table : String) : Query (Expr Unit) :=
  .select [relation table] { items := [.expr (column ["x"]) none] }

def element (name table : String) : WithElement (Query (Expr Unit)) :=
  { name := .quoted name, query := selectX table }

/-- The graph of `SELECT x FROM a` and the session after it, with a scope opened over its first variable. -/
def opened : Graph × Session :=
  let first := tables.planQuery .empty (selectX "a") none none
  (first.2.1, (first.2.2.pushScope none [{ columns := [⟨some "z", ⟨1, .stream none⟩, .int4, none, true⟩] }]).2)

/-- `WITH v AS (SELECT x FROM a), ... SELECT x FROM u` -/
def planWith (elements : List (WithElement (Query (Expr Unit)))) : Except Failure Planned × Graph × Session :=
  opened.2.planQuery opened.1 (.withClause false ([element "v" "a"] ++ elements) (selectX "u")) (some 0) none

end Sample

/-- Between two elements that the query needs, one that it does not need takes numbers and is not seen. -/
theorem Session.planQuery_unreferenced_between : ∃ (ν : Nat ↪ Nat) (p : Planned) (g : Graph) (s s' : Session),
    Sample.planWith [Sample.element "u" "v"] = (.ok p, g, s) ∧
      Sample.planWith [Sample.element "w" "v", Sample.element "u" "v"] = (.ok (p.renumber ν), g.renumber ν, s') ∧
      s.minted < s'.minted ∧ s'.log = s.log := by
  have hunreferenced : (Sample.element "w" "v").Unreferenced Sample.opened.2.environment.options
      [Sample.element "v" "a"] [Sample.element "u" "v"] (Sample.selectX "u") := by
    constructor
    · decide +kernel
    · intro i hi
      have hmentions : i = .quoted "v" ∨ i = .quoted "u" := by
        simpa [Sample.element, Sample.selectX, Sample.relation, WithElement.listMentions, Query.mentions,
          TableRef.listMentions, TableRef.mentions, SelectClauses.exprs, SelectItem.expr?, Sample.column,
          Expr.mentions, Expr.subexpressions, Expr.mention?] using hi
      rcases hmentions with rfl | rfl <;> decide +kernel
  have hminted : Sample.opened.2.Minted Sample.opened.1 := by
    refine pushScope_minted (planQuery_minted (minted_empty Sample.tables.environment) _ _ _) _ fun ν hν => ?_
    have hone : ν 1 = 1 := hν 1 (by decide +kernel)
    simp [Scope.renumber, RelationInfo.renumber, ColumnInfo.renumber, Variable.renumber, NamedQuery.renumberAll, hone]
  have hok : (Sample.planWith [Sample.element "u" "v"]).1.isOk = true := by decide +kernel
  have hlt : (Sample.planWith [Sample.element "u" "v"]).2.2.minted <
      (Sample.planWith [Sample.element "w" "v", Sample.element "u" "v"]).2.2.minted := by decide +kernel
  obtain ⟨ν, -, hresult, hgraph, hlog⟩ := planQuery_unreferenced hminted (some 0) (by decide +kernel)
    hunreferenced none
  rw [← Sample.planWith, ← Sample.planWith] at hresult hgraph hlog
  generalize Sample.planWith [Sample.element "u" "v"] = reduced at *
  generalize Sample.planWith [Sample.element "w" "v", Sample.element "u" "v"] = full at *
  obtain ⟨r, g, s⟩ := reduced
  obtain ⟨_, _, s'⟩ := full
  cases hresult
  cases hgraph
  cases r with
  | error report => cases hok
  | ok p => exact ⟨ν, p, g, s, s', rfl, rfl, hlt, hlog⟩

end SqlPlan
