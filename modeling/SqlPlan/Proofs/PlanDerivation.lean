import SqlPlan.Proofs.Delivery

namespace SqlPlan

def Planned.source (p : Planned) : Source := ⟨p.output, [p.relation]⟩

/-- What is planned: a query, a table expression, a FROM clause, or the rest of a WITH clause and its
body after the named queries. -/
inductive Task (Q : Type) where
  | query (query : Query (Expr Q))
  | table (table : TableRef (Expr Q))
  | tables (tables : List (TableRef (Expr Q)))
  | within (named : List (String × NamedQuery)) (elements : List (WithElement (Query (Expr Q))))
      (body : Query (Expr Q))

variable {Q : Type}

inductive Plans (env : Environment) : Scopes → Task Q → Draft → Source → Draft → Prop where
  | select {outer tables clauses d s d₁ p d₂} : Plans env outer (.tables tables) d s d₁ →
      Block.plan outer s clauses env d₁ = (.ok p, d₂) →
      Plans env outer (.query (.select tables clauses)) d p.source d₂
  | values {outer rows d p d'} : Values.plan outer rows env d = (.ok p, d') →
      Plans env outer (.query (.values rows)) d p.source d'
  | setOperation {outer left right d l d₁ r d₂ op quantifier p d₃} :
      Plans env outer (.query left) d (Planned.source l) d₁ →
      Plans env outer (.query right) d₁ (Planned.source r) d₂ →
      SetOperation.plan op quantifier l r env d₂ = (.ok p, d₃) →
      Plans env outer (.query (.setOperation op quantifier none left right)) d p.source d₃
  | withClause {outer elements body d s d'} : Plans env outer (.within [] elements body) d s d' →
      Plans env outer (.query (.withClause false elements body)) d s d'
  | body {outer named body d s d'} : Plans env ({ named } :: outer) (.query body) d s d' →
      Plans env outer (.within named [] body) d s d'
  | element {outer named name columns query rest body d p d₁ graph key element d₂ s d'} :
      NamedQuery.newKey named name env d = (.ok key, d) →
      Plans env ({ named } :: outer) (.query query) ⟨d.minted, .empty⟩ (Planned.source p)
        ⟨d₁.minted, graph⟩ →
      d₁.graph = d.graph → NamedQuery.ofPlanned name columns p graph env d₁ = (.ok element, d₂) →
      Plans env outer (.within (named ++ [(key, element)]) rest body) d₂ s d' →
      Plans env outer (.within named (⟨name, columns, query⟩ :: rest) body) d s d'
  | table {outer name correlation d p d'} : Source.named outer name correlation env d = (.ok p, d') →
      Plans env outer (.table (.table name correlation)) d p.source d'
  | derived {outer query d p d₁ correlation s d₂} : Plans env outer (.query query) d (Planned.source p) d₁ →
      Source.derived p correlation env d₁ = (.ok s, d₂) →
      Plans env outer (.table (.derived query correlation)) d s d₂
  | join {outer left right d l d₁ r d₂ written kind swapped condition s d₃} :
      Plans env outer (.table left) d l d₁ → Plans env outer (.table right) d₁ r d₂ →
      Join.plan outer kind swapped l r condition env d₂ = (.ok s, d₃) →
      Plans env outer (.table (.join written left right condition)) d s d₃
  | apply {outer operand d l d₁ kind function arguments correlation s d₂} :
      Plans env outer (.table operand) d l d₁ →
      Apply.plan outer kind l function arguments correlation env d₁ = (.ok s, d₂) →
      Plans env outer (.table (.apply kind operand function arguments correlation)) d s d₂
  | noTable {outer d s d'} : Source.singleRow env d = (.ok s, d') → Plans env outer (.tables []) d s d'
  | firstTable {outer first d s d'} : Plans env outer (.table first) d s d' →
      Plans env outer (.tables [first]) d s d'
  | nextTable {outer tables next d l d₁ r d₂ s d₃} : Plans env outer (.tables tables) d l d₁ →
      Plans env outer (.table next) d₁ r d₂ → Source.cross l r env d₂ = (.ok s, d₃) →
      Plans env outer (.tables (tables ++ [next])) d s d₃

variable {env : Environment}

/-- The operands of a FROM clause are joined like those of a CROSS JOIN. -/
theorem Source.join_of_cross (outer : Scopes) {left right s : Source} {d d' : Draft}
    (h : cross left right env d = (.ok s, d')) :
    Join.plan (Q := Unit) outer .cross false left right none env d = (.ok s, d') := h

theorem NamedQuery.newKey_reads {σ : Type} (named : List (String × NamedQuery)) (name : Identifier) :
    Step.Reads (newKey named name : Step σ String) env := by
  refine .bind .options fun o => ?_
  dsimp only
  split
  · exact .fail _ _ _
  · exact .pure _

theorem NamedQuery.newKey_ok {σ : Type} {named : List (String × NamedQuery)} {name : Identifier} {key : String}
    {s s' : σ} (h : (newKey named name : Step σ String) env s = (.ok key, s')) :
    key = env.options.key name ∧ named.lookup key = none := by
  simp only [newKey, Step.bind_ok, Step.options_ok, Step.ite_ok, Step.fail_ok, Step.pure_ok, and_false,
    false_or] at h
  obtain ⟨_, _, ⟨rfl, rfl⟩, hnone, rfl, rfl⟩ := h
  exact ⟨rfl, Option.not_isSome_iff_eq_none.mp hnone⟩

theorem NamedQuery.ofPlanned_ok {name : Identifier} {columns : List Identifier} {p : Planned} {graph : Graph}
    {element : NamedQuery} {d d' : Draft} (h : ofPlanned name columns p graph env d = (.ok element, d')) :
    ∃ relation, element = ⟨graph, p.output, relation⟩ ∧ relation.bindings = p.relation.bindings ∧ d' = d := by
  simp only [ofPlanned, Step.bind_ok, Step.pure_ok] at h
  obtain ⟨relation, _, hrelation, rfl, rfl⟩ := h
  obtain ⟨hbindings, rfl⟩ := RelationInfo.correlate_ok hrelation
  exact ⟨relation, rfl, hbindings, rfl⟩

mutual

theorem Query.plans (outer : Scopes) : ∀ (query : Query (Expr Q)) {d d' : Draft} {p : Planned},
    query.plan outer env d = (.ok p, d') → Plans env outer (.query query) d p.source d'
  | .select tables clauses, d, d', p, h => by
    simp only [Query.plan, Step.bind_ok] at h
    obtain ⟨s, d₁, hs, hp⟩ := h
    exact .select (planFrom_plans outer tables hs) hp
  | .values rows, d, d', p, h => .values (by rwa [Query.plan] at h)
  | .setOperation op quantifier corresponding left right, d, d', p, h => by
    simp only [Query.plan, Step.ite_ok, Step.fail_ok, Step.bind_ok, and_false, false_or] at h
    obtain ⟨hnone, l, d₁, hl, r, d₂, hr, hp⟩ := h
    obtain rfl : corresponding = none := by simpa using hnone
    exact .setOperation (Query.plans outer left hl) (Query.plans outer right hr) hp
  | .withClause recursive elements body, d, d', p, h => by
    simp only [Query.plan, Step.ite_ok, Step.fail_ok, Step.bind_ok, and_false, false_or,
      Bool.not_eq_true] at h
    obtain ⟨rfl, named, d₁, hnamed, hp⟩ := h
    exact .withClause (planNamed_plans outer [] elements hnamed (Query.plans _ body hp))

theorem planNamed_plans (outer : Scopes) (named : List (String × NamedQuery)) :
    ∀ (elements : List (WithElement (Query (Expr Q)))) {named' : List (String × NamedQuery)}
      {body : Query (Expr Q)} {d d₁ d' : Draft} {s : Source},
    planNamed outer named elements env d = (.ok named', d₁) →
    Plans env ({ named := named' } :: outer) (.query body) d₁ s d' →
    Plans env outer (.within named elements body) d s d'
  | [], _, _, _, _, _, _, h, hbody => by
    simp only [planNamed, Step.pure_ok] at h
    obtain ⟨rfl, rfl⟩ := h
    exact .body hbody
  | ⟨name, columns, query⟩ :: rest, _, _, _, _, _, _, h, hbody => by
    simp only [planNamed, Step.bind_ok, Planning.separately_ok, Prod.exists] at h
    obtain ⟨key, _, hkey, p, graph, d₁, ⟨hp, hg⟩, element, d₂, helement, hrest⟩ := h
    obtain ⟨rfl, -⟩ := (NamedQuery.newKey_reads named name).ok_iff hkey
    exact .element hkey (Query.plans _ query hp) hg helement
      (planNamed_plans outer (named ++ [(key, element)]) rest hrest hbody)

theorem TableRef.plans (outer : Scopes) : ∀ (table : TableRef (Expr Q)) {d d' : Draft} {s : Source},
    table.plan outer env d = (.ok s, d') → Plans env outer (.table table) d s d'
  | .table name correlation, _, _, _, h => by
    simp only [TableRef.plan, Step.bind_ok, Step.pure_ok] at h
    obtain ⟨p, _, hp, rfl, rfl⟩ := h
    exact .table hp
  | .derived query correlation, _, _, _, h => by
    simp only [TableRef.plan, Step.bind_ok] at h
    obtain ⟨p, d₁, hp, hs⟩ := h
    exact .derived (Query.plans outer query hp) hs
  | .join written left right condition, _, _, _, h => by
    rw [TableRef.plan] at h
    rcases hkind : written.kind? with _ | ⟨kind, swapped⟩
    · simp [hkind] at h
    · simp only [hkind, Step.bind_ok] at h
      obtain ⟨l, d₁, hl, r, d₂, hr, hs⟩ := h
      exact .join (TableRef.plans outer left hl) (TableRef.plans outer right hr) hs
  | .apply kind operand function arguments correlation, _, _, _, h => by
    simp only [TableRef.plan, Step.bind_ok] at h
    obtain ⟨l, d₁, hl, hs⟩ := h
    exact .apply (TableRef.plans outer operand hl) hs

theorem planFrom_plans (outer : Scopes) : ∀ (tables : List (TableRef (Expr Q))) {d d' : Draft} {s : Source},
    planFrom outer tables env d = (.ok s, d') → Plans env outer (.tables tables) d s d'
  | [], _, _, _, h => .noTable (by rwa [planFrom] at h)
  | first :: rest, _, _, _, h => by
    simp only [planFrom, Step.bind_ok] at h
    obtain ⟨l, d₁, hl, hs⟩ := h
    exact planCross_plans outer rest (.firstTable (TableRef.plans outer first hl)) hs

theorem planCross_plans (outer : Scopes) : ∀ (rest : List (TableRef (Expr Q)))
    {tables : List (TableRef (Expr Q))} {d d₁ d' : Draft} {l s : Source},
    Plans env outer (.tables tables) d l d₁ → planCross outer l rest env d₁ = (.ok s, d') →
    Plans env outer (.tables (tables ++ rest)) d s d'
  | [], tables, _, _, _, _, _, hl, h => by
    simp only [planCross, Step.pure_ok] at h
    obtain ⟨rfl, rfl⟩ := h
    rwa [List.append_nil]
  | next :: rest, tables, _, _, _, _, _, hl, h => by
    simp only [planCross, Step.bind_ok] at h
    obtain ⟨r, d₂, hr, s₁, d₃, hs₁, hs⟩ := h
    have hplans := planCross_plans outer rest (.nextTable hl (TableRef.plans outer next hr) hs₁) hs
    rwa [List.append_assoc, List.singleton_append] at hplans

end

end SqlPlan
