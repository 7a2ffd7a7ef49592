import SqlPlan.Proofs.BlockDelivery
import SqlPlan.Proofs.FromDelivery
import SqlPlan.Proofs.PlanDerivation
import SqlPlan.Proofs.SetOperationDelivery
import SqlPlan.Proofs.ValuesDelivery

namespace SqlPlan

variable {Q : Type} {env : Environment} {outer : Scopes} {d d₁ d' : Draft} {s : Source}

theorem Delivers.after_mint (hk : d.minted ≤ d₁.minted) (hg : d₁.graph = d.graph) (h : Delivers d₁ s d') :
    Delivers d s d' := by
  obtain ⟨Γ, hb, hcarries⟩ := h
  exact ⟨Γ, ((Builds.refl d).mint hk hg).trans hb, hcarries⟩

theorem Scopes.Sound.cons {named : List (String × NamedQuery)} (h : ∀ p ∈ named, p.2.Sound)
    (houter : outer.Sound) : Scopes.Sound ({ named } :: outer) :=
  List.forall_mem_cons.mpr ⟨⟨rfl, h⟩, houter⟩

theorem NamedQuery.ofPlanned_sound {p : Planned} {graph : Graph} {n k : Nat}
    (hp : Delivers ⟨n, .empty⟩ p.source ⟨k, graph⟩) {name : Identifier} {columns : List Identifier}
    {element : NamedQuery} (h : NamedQuery.ofPlanned name columns p graph env d = (.ok element, d₁)) :
    element.Sound ∧ d₁ = d := by
  obtain ⟨relation, rfl, hbindings, rfl⟩ := ofPlanned_ok h
  obtain ⟨Γ, hb, hcarries⟩ := hp
  refine ⟨⟨⟨hb.sound Graph.sound_empty, fun s => ?_⟩, fun q hq => ?_, Γ, ?_, ?_⟩, rfl⟩
  · rw [hb.frontier]
    simp [Graph.frontier, Graph.empty, Planned.source]
  · refine (hb.subqueries q hq).resolve_left fun hq => ?_
    simp [Graph.empty, Graph.subqueries_eq] at hq
  · exact hb.columns _ (List.mem_singleton_self _)
  · rw [hbindings, ← bindings_singleton]
    exact hcarries

def Task.named : Task Q → List (String × NamedQuery)
  | .within named _ _ => named
  | _ => []

theorem Plans.delivers {task : Task Q} (h : Plans env outer task d s d') (houter : outer.Sound)
    (hnamed : ∀ p ∈ task.named, p.2.Sound) : Delivers d s d' := by
  have hnone : ∀ p ∈ ([] : List (String × NamedQuery)), p.2.Sound := by simp
  induction h with
  | select _ hp ih => exact Block.plan_delivers houter (ih houter hnone) hp
  | values hp => exact Values.plan_delivers houter hp
  | setOperation _ _ hp ihl ihr =>
    exact SetOperation.plan_delivers (ihl houter hnone) (ihr houter hnone) hp
  | withClause _ ih | firstTable _ ih => exact ih houter hnone
  | body _ ih => exact ih (houter.cons hnamed) hnone
  | element _ _ hg helement _ ih ih' =>
    have hquery := ih (houter.cons hnamed) hnone
    obtain ⟨hsound, rfl⟩ := NamedQuery.ofPlanned_sound hquery helement
    obtain ⟨Γ, hb, -⟩ := hquery
    refine Delivers.after_mint ?_ hg (ih' houter ?_)
    · exact hb.minted_le
    · exact List.forall_mem_append.mpr ⟨hnamed, List.forall_mem_singleton.mpr hsound⟩
  | table hp => exact Source.named_delivers houter hp
  | derived _ hs ih => exact Source.derived_delivers (ih houter hnone) hs
  | join _ _ hs ihl ihr =>
    exact Join.plan_delivers houter (ihl houter hnone) (ihr houter hnone) hs
  | apply _ hs ih => exact Apply.plan_delivers houter (ih houter hnone) hs
  | noTable hs => exact Source.singleRow_delivers hs
  | nextTable _ _ hs ihl ihr =>
    exact Join.plan_delivers houter (ihl houter hnone) (ihr houter hnone) (Source.join_of_cross _ hs)

theorem Query.plan_delivers {q : Query (Expr Q)} {p : Planned} (houter : outer.Sound)
    (h : q.plan outer env d = (.ok p, d')) : Delivers d p.source d' :=
  (Query.plans outer q h).delivers houter (by simp [Task.named])

end SqlPlan
