import SqlPlan.Proofs.Building
import SqlPlan.Proofs.ElaborationTyped

namespace SqlPlan

variable {scopes : Scopes} {query : NamedQuery} {correlation : Option Correlation} {β : Type} {ys : List β}

open List (Forall₂)

def RelationInfo.bindings (r : RelationInfo) : Columns := r.columns.map fun c => (c.carrier, c.type)

def bindings (relations : List RelationInfo) : Columns := relations.flatMap RelationInfo.bindings

theorem bindings_singleton (r : RelationInfo) : bindings [r] = r.bindings := List.flatMap_singleton ..

theorem bindings_append (rs rs' : List RelationInfo) : bindings (rs ++ rs') = bindings rs ++ bindings rs' :=
  List.flatMap_append

theorem mem_bindings {relations : List RelationInfo} {c : ColumnInfo} (hc : c ∈ relations.flatMap (·.columns)) :
    (c.carrier, c.type) ∈ bindings relations := by
  obtain ⟨r, hr, hc⟩ := List.mem_flatMap.mp hc
  exact List.mem_flatMap.mpr ⟨r, hr, List.mem_map.mpr ⟨c, hc, rfl⟩⟩

namespace Columns

/-- The bindings are distinct stream columns that have their types among the columns. -/
structure Carries (Γ B : Columns) : Prop where
  distinct : B.Distinct
  typed : ∀ p ∈ B, p.1.isStream = true ∧ Γ.type? p.1 = some p.2

variable {Γ Γ' B B' : Columns} {n k m : Nat}

theorem carries_of_distinct (h : Γ.Distinct) (hs : ∀ p ∈ Γ, p.1.isStream = true) : Γ.Carries Γ :=
  ⟨h, fun p hp => ⟨hs p hp, type?_of_mem h hp⟩⟩

theorem carries_self (h : Fresh n Γ.carriers m) : Γ.Carries Γ :=
  carries_of_distinct (distinct_of_fresh h) fun p hp => (within_of_fresh h p hp).1

theorem Carries.nil (Γ : Columns) : Γ.Carries [] := ⟨.nil, by simp⟩

theorem Carries.within (h : Γ.Carries B) (hw : Γ.Within n m) : B.Within n m := by
  intro p hp
  obtain ⟨hs, ht⟩ := h.typed p hp
  exact ⟨hs, within_of_type? hw hs ht⟩

theorem Carries.sublist (h : Γ.Carries B) (hsub : B'.Sublist B) : Γ.Carries B' :=
  ⟨h.distinct.sublist hsub, fun p hp => h.typed p (hsub.subset hp)⟩

theorem distinct_append (h : B.Distinct) (h' : B'.Distinct) (hw : B.Within n k) (hw' : B'.Within k m) :
    Distinct (B ++ B') := by
  refine List.pairwise_append.mpr ⟨h, h', fun p hp q hq => ?_⟩
  obtain ⟨hps, _, hle⟩ := hw p hp
  obtain ⟨hqs, hlt, _⟩ := hw' q hq
  rw [Variable.same_of_stream hqs hps, beq_eq_false_iff_ne]
  omega

theorem Carries.join (h : Γ.Carries B) (h' : Γ'.Carries B') (hw : Γ.Within n k) (hw' : Γ'.Within k m) :
    Carries (Γ ++ Γ') (B ++ B') ∧ Carries (Γ' ++ Γ) (B ++ B') := by
  have hd := distinct_append h.distinct h'.distinct (h.within hw) (h'.within hw')
  refine ⟨⟨hd, List.forall_mem_append.mpr ⟨fun p hp => ?_, fun p hp => ?_⟩⟩,
    ⟨hd, List.forall_mem_append.mpr ⟨fun p hp => ?_, fun p hp => ?_⟩⟩⟩
  · exact ⟨(h.typed p hp).1, type?_append_left (h.typed p hp).2⟩
  · obtain ⟨hs, ht⟩ := h'.typed p hp
    have hlow := (h'.within hw' p hp).2.1
    exact ⟨hs, (type?_append_right hw hs (.inl hlow)).trans ht⟩
  · obtain ⟨hs, ht⟩ := h.typed p hp
    have hhigh := (h.within hw p hp).2.2
    exact ⟨hs, (type?_append_right hw' hs (.inr hhigh)).trans ht⟩
  · exact ⟨(h'.typed p hp).1, type?_append_left (h'.typed p hp).2⟩

theorem Carries.has (h : Γ.Carries (SqlPlan.bindings relations)) : Γ.type?.Has (relations.flatMap (·.columns)) :=
  fun _ hc => h.typed _ (mem_bindings hc)

end Columns

/-- Planning from the first draft to the second has opened the output of the source, which carries the
columns of its relations. -/
def Delivers (d : Draft) (s : Source) (d' : Draft) : Prop :=
  ∃ Γ, Builds d [(s.output, Γ)] d' ∧ Γ.Carries (bindings s.relations)

/-- A named query has a graph of its own that delivers its relation. -/
structure NamedQuery.Sound (q : NamedQuery) : Prop where
  endsIn : q.graph.EndsIn q.output
  subqueries : ∀ p ∈ q.graph.subqueries, p.1.EndsIn p.2
  carries : ∃ Γ, q.graph.columnsAt .both q.output = some Γ ∧ Γ.Carries q.relation.bindings

def Scopes.Sound (scopes : Scopes) : Prop :=
  ∀ scope ∈ scopes, scope.relations = [] ∧ ∀ p ∈ scope.named, p.2.Sound

theorem Scopes.Sound.visible_eq_nil (h : scopes.Sound) : scopes.visible = [] := by
  rw [Scopes.visible, List.flatMap_eq_nil_iff]
  intro scope hscope
  rw [(h scope hscope).1]
  rfl

theorem Scopes.Sound.visible (h : scopes.Sound) (relations : List RelationInfo) :
    Scopes.visible ({ relations } :: scopes) = relations.flatMap (·.columns) := by
  rw [Scopes.visible, List.flatMap_cons]
  exact (congrArg _ h.visible_eq_nil).trans (List.append_nil _)

theorem Scopes.mem_of_named? {name : String} (h : scopes.named? name = some query) :
    ∃ scope ∈ scopes, (name, query) ∈ scope.named := by
  obtain ⟨scope, hscope, hlookup⟩ := List.exists_of_findSome?_eq_some h
  obtain ⟨before, after, hnamed, -⟩ := List.lookup_eq_some_iff.mp hlookup
  exact ⟨scope, hscope, by simp [hnamed]⟩

theorem Scopes.Sound.named (h : scopes.Sound) {name : String} (hq : scopes.named? name = some query) :
    query.Sound := by
  obtain ⟨scope, hscope, hmem⟩ := Scopes.mem_of_named? hq
  exact (h scope hscope).2 (name, query) hmem

namespace RelationInfo

section Renaming

variable {α : Type} {f : ColumnInfo → α} (hf : ∀ (c : ColumnInfo) (name : Option String), f { c with name } = f c)
include hf

theorem map_renameExported (names : List String) (columns : List ColumnInfo) :
    (renameExported names columns).map f = columns.map f := by
  induction columns generalizing names with
  | nil => cases names <;> rfl
  | cons c columns ih =>
    cases names with
    | nil => rfl
    | cons name names =>
      unfold renameExported
      split <;> simp [ih, hf]

variable {σ : Type} {env : Environment} {s s' : σ} {r r' : RelationInfo}

theorem map_renameColumns {correlation : Correlation}
    (h : (r.renameColumns correlation : Step σ _) env s = (.ok r', s')) :
    r'.columns.map f = r.columns.map f ∧ s' = s := by
  simp only [renameColumns, Step.bind_ok, Step.options_ok, Step.ite_ok, Step.pure_ok, Step.fail_ok,
    and_false, false_or] at h
  obtain ⟨_, _, ⟨rfl, rfl⟩, ⟨_, rfl, rfl⟩ | ⟨_, _, h⟩⟩ := h
  · exact ⟨rfl, rfl⟩
  · rcases hrepeated : firstRepeated? env.options.key [] correlation.columns with _ | column
    · simp only [hrepeated, Step.pure_ok] at h
      obtain ⟨rfl, rfl⟩ := h
      exact ⟨map_renameExported hf _ _, rfl⟩
    · simp [hrepeated] at h

theorem map_correlate (h : (r.correlate correlation : Step σ _) env s = (.ok r', s')) :
    r'.columns.map f = r.columns.map f ∧ s' = s := by
  cases correlation with
  | none =>
    simp only [correlate, Step.pure_ok] at h
    exact ⟨by rw [h.1], h.2.symm⟩
  | some correlation =>
    simp only [correlate, Step.bind_ok, Step.options_ok, Step.pure_ok] at h
    obtain ⟨_, _, ⟨rfl, rfl⟩, renamed, _, hrenamed, rfl, rfl⟩ := h
    obtain ⟨hcolumns, rfl⟩ := map_renameColumns hf hrenamed
    exact ⟨hcolumns, rfl⟩

end Renaming

theorem correlate_ok {σ : Type} {env : Environment} {s s' : σ} {r r' : RelationInfo}
    (h : (r.correlate correlation : Step σ _) env s = (.ok r', s')) : r'.bindings = r.bindings ∧ s' = s :=
  map_correlate (fun _ _ => rfl) h

end RelationInfo

theorem collect_map_ok {α : Type} {f : α → Analysis β} {P : α → β → Prop} {env : Environment} {xs : List α}
    (hf : ∀ x ∈ xs, ∀ n y m, f x env n = (.ok y, m) → n ≤ m ∧ P x y) {n m : Nat}
    (h : Step.collect (xs.map f) env n = (.ok ys, m)) : n ≤ m ∧ Forall₂ P xs ys := by
  induction xs generalizing ys n with
  | nil =>
    obtain ⟨rfl, rfl⟩ := Step.collect_nil_ok.mp h
    exact ⟨Nat.le_refl _, .nil⟩
  | cons x xs ih =>
    obtain ⟨y, ys, k, rfl, hy, hys⟩ := Step.collect_cons_ok.mp h
    obtain ⟨hle, hp⟩ := hf x (by simp) n y k hy
    obtain ⟨hle', hps⟩ := ih (fun x' hx' => hf x' (by simp [hx'])) hys
    exact ⟨by omega, .cons hp hps⟩

theorem collect_forall₂ {σ α : Type} {f : α → Step σ β} {env : Environment} {xs : List α} {s t : σ}
    (h : Step.collect (xs.map f) env s = (.ok ys, t)) : Forall₂ (fun x y => ∃ s t, f x env s = (.ok y, t)) xs ys := by
  induction xs generalizing ys s with
  | nil =>
    obtain ⟨rfl, -⟩ := Step.collect_nil_ok.mp h
    exact .nil
  | cons x xs ih =>
    obtain ⟨y, ys, u, rfl, hy, hys⟩ := Step.collect_cons_ok.mp h
    exact .cons ⟨s, u, hy⟩ (ih hys)

theorem collect_of_each {σ α : Type} {f : α → Step σ β} {env : Environment} {xs : List α} {s s' : σ}
    (h : Step.each f xs env s = (.ok ys, s')) : Step.collect (xs.map f) env s = (.ok ys, s') := by
  induction xs generalizing ys s with
  | nil => exact Step.collect_nil_ok.mpr (Step.each_nil_ok.mp h)
  | cons x xs ih =>
    obtain ⟨y, ys, t, rfl, hy, hys⟩ := Step.each_cons_ok.mp h
    exact Step.collect_cons_ok.mpr ⟨y, ys, t, rfl, hy, ih hys⟩

theorem each_keeps {α σ : Type} {f : α → Step σ β} {P : α → β → Prop} {env : Environment}
    (hf : ∀ x s y s', f x env s = (.ok y, s') → P x y ∧ s' = s) {xs : List α} {s s' : σ}
    (h : Step.each f xs env s = (.ok ys, s')) : Forall₂ P xs ys ∧ s' = s := by
  induction xs generalizing ys s with
  | nil =>
    obtain ⟨rfl, rfl⟩ := Step.each_nil_ok.mp h
    exact ⟨.nil, rfl⟩
  | cons x xs ih =>
    obtain ⟨y, ys, t, rfl, hy, hys⟩ := Step.each_cons_ok.mp h
    obtain ⟨hp, rfl⟩ := hf x s y t hy
    obtain ⟨hps, rfl⟩ := ih hys
    exact ⟨.cons hp hps, rfl⟩

theorem each_minted {α : Type} {f : α → Analysis β} (carrier : β → Variable) {P : α → β → Prop} {env : Environment}
    (hf : ∀ x n y m, f x env n = (.ok y, m) → (∃ label, carrier y = ⟨n + 1, .stream label⟩) ∧ n + 1 ≤ m ∧ P x y)
    {xs : List α} {n m : Nat} (h : Step.each f xs env n = (.ok ys, m)) :
    n ≤ m ∧ Fresh n (ys.map carrier) m ∧ Forall₂ P xs ys := by
  induction xs generalizing ys n with
  | nil =>
    obtain ⟨rfl, rfl⟩ := Step.each_nil_ok.mp h
    exact ⟨Nat.le_refl _, .nil _ _, .nil⟩
  | cons x xs ih =>
    obtain ⟨y, ys, k, rfl, hy, hys⟩ := Step.each_cons_ok.mp h
    obtain ⟨⟨label, hcarrier⟩, hk, hp⟩ := hf x n y k hy
    obtain ⟨hm, hfresh, hall⟩ := ih hys
    refine ⟨by omega, ?_, .cons hp hall⟩
    rw [List.map_cons, hcarrier]
    exact .cons (by omega) (hfresh.mono hk (Nat.le_refl _))

theorem Source.minted_delivers {d d₁ : Draft} {n : Nat} {operator : Operator} {s : Source}
    (hfresh : Fresh d.minted (bindings s.relations).carriers n)
    (hk : d.minted ≤ n) (hm : d₁.minted = n) (hg : d₁.graph = d.graph.insert operator [] 1)
    (hs : s.output = ⟨d.graph.size, 0⟩)
    (hc : operator.columns .both [] = some (bindings s.relations))
    (hsub : ∀ p ∈ operator.subqueries, p.1.EndsIn p.2) : Delivers d s d₁ := by
  subst hm
  refine ⟨bindings s.relations, ?_, Columns.carries_self hfresh⟩
  rw [hs]
  exact Builds.source hk hg hc (Columns.within_of_fresh hfresh) hsub

end SqlPlan
