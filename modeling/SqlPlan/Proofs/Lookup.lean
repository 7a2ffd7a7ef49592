import SqlPlan.Proofs.Elaboration
import SqlPlan.Proofs.Success

namespace SqlPlan

variable {c : ColumnInfo} {key : String}

theorem Entries.mem_values {α : Type} {m : Entries α} {v : α} (h : m.lookup key = some v) : v ∈ m.values := by
  obtain ⟨before, after, rfl, -⟩ := List.lookup_eq_some_iff.mp h
  simp [values]

theorem Entries.mem_flatten {α : Type} {m : Entries (List α)} {v : α} (h : v ∈ (m.lookup key).getD []) :
    v ∈ m.values.flatten := by
  cases hvs : m.lookup key with
  | none => simp [hvs] at h
  | some vs =>
    rw [hvs] at h
    exact List.mem_flatten.mpr ⟨vs, mem_values hvs, h⟩

/-- A step that looks something up and leaves the state as it is. -/
def Step.Reads {σ α : Type} (m : Step σ α) (env : Environment) : Prop :=
  ∃ r : Outcome α, r.Regular False ∧ ∀ s, m env s = (r, s)

namespace Step.Reads

variable {σ α β : Type} {env : Environment}

theorem pure (a : α) : Reads (pure a : Step σ α) env := ⟨.ok a, .ok a, fun _ => rfl⟩

theorem fail (code : DiagnosticCode) (location : Option Span) (message : String) :
    Reads (Step.fail code location message : Step σ α) env :=
  ⟨_, .error _ [], fun _ => Step.fail_eq _ _ _⟩

theorem bind {m : Step σ α} {f : α → Step σ β} (hm : Reads m env) (hf : ∀ a, Reads (f a) env) :
    Reads (m >>= f) env := by
  obtain ⟨r, hregular, hr⟩ := hm
  cases hregular with
  | ok a =>
    obtain ⟨r', hregular', hr'⟩ := hf a
    exact ⟨r', hregular', fun s => (Step.bind_eq_of_ok (hr s)).trans (hr' s)⟩
  | error d ds => exact ⟨_, .error d ds, fun s => Step.bind_eq_of_error (hr s)⟩
  | panic h => exact h.elim

theorem options : Reads (Step.options : Step σ Options) env := ⟨.ok env.options, .ok _, fun _ => rfl⟩

theorem environment : Reads (Step.environment : Step σ Environment) env := ⟨.ok env, .ok _, fun _ => rfl⟩

theorem ok_iff {m : Step σ α} (hm : Reads m env) {a : α} {s s' : σ} (h : m env s = (.ok a, s')) :
    s' = s ∧ ∀ t, m env t = (.ok a, t) := by
  obtain ⟨r, -, hr⟩ := hm
  rw [hr] at h
  cases h
  exact ⟨rfl, hr⟩

end Step.Reads

namespace Name

open Step

variable {σ : Type} {env : Environment}

theorem objectKey_reads (name : Name) : Reads (name.objectKey : Step σ String) env := by
  refine .bind .options fun o => ?_
  cases name.last? with
  | none => exact .fail _ _ _
  | some i => exact .pure _

theorem resolveSchema_reads (qualifier : List Identifier) (location : Option Span) :
    Reads (resolveSchema qualifier location : Step σ (Option Schema)) env := by
  refine .bind .environment fun e => ?_
  dsimp only
  split
  · exact .pure _
  · split
    · exact .pure _
    · exact .fail _ _ _
  · split
    · exact .fail _ _ _
    · split
      · exact .pure _
      · exact .fail _ _ _
  · exact .fail _ _ _

theorem lookUp_reads {α : Type} (name : Name) (suffix : String) (inSchema : Schema → String → α)
    (onPath : SearchPath → String → α) :
    Reads (name.lookUp suffix inSchema onPath : Step σ (String × α)) env := by
  refine .bind (objectKey_reads name) fun key => .bind .environment fun e => ?_
  refine .bind (resolveSchema_reads _ _) fun schema => ?_
  cases schema <;> exact .pure _

theorem resolveFunctions_reads (name : Name) (arity : Nat) :
    Reads (name.resolveFunctions arity : Step σ (String × List FunctionDecl)) env :=
  .bind (lookUp_reads _ _ _ _) fun _ => .pure _

theorem scalarOverloads_reads (name : Name) (arity : Nat) : Reads (name.scalarOverloads arity) env :=
  .bind (resolveFunctions_reads name arity) fun _ => .pure _

end Name

theorem Found.mem_of_narrow {cs : List ColumnInfo} (h : narrow cs = .one c) : c ∈ cs := by
  unfold narrow at h
  split at h
  · cases h
  · cases h
    simp
  · split at h
    · next hfilter =>
      cases h
      exact (List.mem_filter.mp (hfilter ▸ List.mem_singleton_self c)).1
    · cases h

theorem RelationInfo.mem_of_column {r : RelationInfo} (h : r.column key = .one c) : c ∈ r.columns :=
  (List.mem_filter.mp (Found.mem_of_narrow h)).1

namespace Scopes

theorem mem_visible {scopes : Scopes} {scope : Scope} {r : RelationInfo} (hs : scope ∈ scopes)
    (hr : r ∈ scope.relations) (hc : c ∈ r.columns) : c ∈ scopes.visible :=
  List.mem_flatMap.mpr ⟨scope, hs, List.mem_flatMap.mpr ⟨r, hr, hc⟩⟩

theorem mem_of_column {scopes : Scopes} (h : scopes.column key = .one c) : c ∈ scopes.visible := by
  induction scopes with
  | nil => cases h
  | cons scope outer ih =>
    unfold column at h
    split at h
    · exact List.mem_append_right _ (ih h)
    · exact List.mem_append_left _ (List.mem_filter.mp (Found.mem_of_narrow h)).1

theorem mem_of_relation {scopes : Scopes} {r : RelationInfo} (h : scopes.relation key = .one r) :
    ∃ scope ∈ scopes, r ∈ scope.relations := by
  induction scopes with
  | nil => cases h
  | cons scope outer ih =>
    unfold relation at h
    split at h
    · obtain ⟨s, hs, hr⟩ := ih h
      exact ⟨s, List.mem_cons_of_mem _ hs, hr⟩
    · next hcalled =>
      cases h
      exact ⟨scope, by simp, (List.mem_filter.mp (hcalled ▸ List.mem_singleton_self r)).1⟩
    · cases h

theorem mem_of_scanOf {scopes : Scopes} {table : TableDecl} {r : RelationInfo}
    (h : scopes.scanOf? table = some r) : ∃ scope ∈ scopes, r ∈ scope.relations := by
  obtain ⟨scope, hs, hr⟩ := List.exists_of_findSome?_eq_some h
  exact ⟨scope, hs, List.mem_of_find?_eq_some hr⟩

end Scopes

namespace Name

variable {env : Environment} {scopes : Scopes} {name : Name} {r : ResolvedVariable} {n m : Nat}

/-- What a resolved variable name denotes, and what has been minted for it. -/
def Denotes (scopes : Scopes) (n : Nat) (r : ResolvedVariable) (m : Nat) : Prop :=
  (∃ c ∈ scopes.visible, r = .column c ∧ m = n) ∨
    ∃ decl : VariableDecl, r = .external ⟨n + 1, .external decl⟩ decl.type ∧ m = n + 1

def isExternal (env : Environment) (scopes : Scopes) (name : Name) : Bool :=
  match name.segments with
  | [identifier] =>
    match scopes.column (env.options.key identifier) with
    | .nothing => (env.searchPath.findVariable? (env.options.key identifier)).isSome
    | _ => false
  | _ => false

theorem resolveBare_cases {identifier : Identifier} (hsegments : name.segments = [identifier])
    (h : name.resolveBare scopes env n = (.ok r, m)) :
    (∃ c ∈ scopes.visible, r = .column c ∧ m = n ∧ name.isExternal env scopes = false) ∨
      ∃ decl : VariableDecl, r = .external ⟨n + 1, .external decl⟩ decl.type ∧ m = n + 1 ∧
        name.isExternal env scopes = true ∧ ∃ s ∈ env.searchPath.schemas, decl ∈ s.externals := by
  simp only [resolveBare, objectKey, last?, hsegments, List.getLast?_singleton, Step.bind_ok, Step.options_ok,
    Step.pure_ok] at h
  obtain ⟨_, _, ⟨_, _, ⟨rfl, rfl⟩, rfl, rfl⟩, h⟩ := h
  simp only [isExternal, hsegments]
  rcases hc : scopes.column (env.options.key identifier) with _ | c | _
  · simp only [hc, Step.bind_ok, Step.environment_ok] at h
    obtain ⟨_, _, ⟨rfl, rfl⟩, h⟩ := h
    rcases hd : env.searchPath.findVariable? (env.options.key identifier) with _ | decl
    · simp [hd] at h
    · simp only [hd, Step.bind_ok, Analysis.mint_ok, Step.pure_ok] at h
      obtain ⟨_, _, ⟨rfl, rfl⟩, rfl, rfl⟩ := h
      obtain ⟨s, hs, hfind⟩ := List.exists_of_findSome?_eq_some hd
      exact .inr ⟨decl, rfl, rfl, rfl, s, hs, Entries.mem_values hfind⟩
  · simp only [hc, Step.pure_ok] at h
    obtain ⟨rfl, rfl⟩ := h
    exact .inl ⟨c, Scopes.mem_of_column hc, rfl, rfl, rfl⟩
  · simp [hc] at h

theorem resolveInRelation_ok {relation column : Identifier}
    (h : (name.resolveInRelation relation column scopes : Analysis _) env n = (.ok r, m)) :
    ∃ c ∈ scopes.visible, r = .column c ∧ m = n := by
  simp only [resolveInRelation, Step.bind_ok, Step.options_ok] at h
  obtain ⟨o, _, ⟨rfl, rfl⟩, h⟩ := h
  rcases hr : scopes.relation (env.options.key relation) with _ | info | _
  · simp [hr] at h
  · rcases hc : info.column (env.options.key column) with _ | c | _
    · simp [hr, hc] at h
    · simp only [hr, hc, Step.pure_ok] at h
      obtain ⟨rfl, rfl⟩ := h
      obtain ⟨scope, hs, hmem⟩ := Scopes.mem_of_relation hr
      exact ⟨c, Scopes.mem_visible hs hmem (RelationInfo.mem_of_column hc), rfl, rfl⟩
    · simp [hr, hc] at h
  · simp [hr] at h

theorem findTable_reads {σ : Type} (name : Name) : Step.Reads (name.findTable : Step σ _) env :=
  .bind (lookUp_reads _ _ _ _) fun _ => .pure _

theorem resolveTable_reads {σ : Type} (name : Name) :
    Step.Reads (name.resolveTable : Step σ (Schema × TableDecl)) env := by
  refine .bind name.findTable_reads fun found => ?_
  cases found with
  | none => exact .fail _ _ _
  | some found => exact .pure _

theorem resolveInTable_ok (h : (name.resolveInTable scopes : Analysis _) env n = (.ok r, m)) :
    ∃ c ∈ scopes.visible, r = .column c ∧ m = n := by
  simp only [resolveInTable, Step.bind_ok, Prod.exists] at h
  obtain ⟨schema, table, k, htable, key, k', hkey, h⟩ := h
  obtain ⟨rfl, -⟩ := (resolveTable_reads _).ok_iff htable
  obtain ⟨rfl, -⟩ := (objectKey_reads name).ok_iff hkey
  rcases hr : scopes.scanOf? table with _ | info
  · simp [hr] at h
  · rcases hc : info.column key with _ | c | _
    · simp [hr, hc] at h
    · simp only [hr, hc, Step.pure_ok] at h
      obtain ⟨rfl, rfl⟩ := h
      obtain ⟨scope, hs, hmem⟩ := Scopes.mem_of_scanOf hr
      exact ⟨c, Scopes.mem_visible hs hmem (RelationInfo.mem_of_column hc), rfl, rfl⟩
    · simp [hr, hc] at h

theorem resolveVariable_cases (h : name.resolveVariable scopes env n = (.ok r, m)) :
    (∃ c ∈ scopes.visible, r = .column c ∧ m = n ∧ name.isExternal env scopes = false) ∨
      ∃ decl : VariableDecl, r = .external ⟨n + 1, .external decl⟩ decl.type ∧ m = n + 1 ∧
        name.isExternal env scopes = true ∧ ∃ s ∈ env.searchPath.schemas, decl ∈ s.externals := by
  have hqualified : (∃ c ∈ scopes.visible, r = .column c ∧ m = n) → (∀ i, name.segments ≠ [i]) →
      ∃ c ∈ scopes.visible, r = .column c ∧ m = n ∧ name.isExternal env scopes = false := by
    rintro ⟨c, hc, hr, hm⟩ hsegments
    refine ⟨c, hc, hr, hm, ?_⟩
    unfold isExternal
    split
    · next hsegment => exact absurd hsegment (hsegments _)
    · rfl
  unfold resolveVariable at h
  rcases hsegments : name.segments with _ | ⟨a, _ | ⟨b, _ | ⟨c, _ | ⟨d, _ | ⟨e, rest⟩⟩⟩⟩⟩
  all_goals simp only [hsegments, Step.fail_ok] at h
  · exact resolveBare_cases hsegments h
  · exact .inl (hqualified (resolveInRelation_ok h) (by simp [hsegments]))
  · exact .inl (hqualified (resolveInTable_ok h) (by simp [hsegments]))
  · exact .inl (hqualified (resolveInTable_ok h) (by simp [hsegments]))

theorem resolveVariable_ok (h : name.resolveVariable scopes env n = (.ok r, m)) :
    Denotes scopes n r m := by
  rcases resolveVariable_cases h with ⟨c, hc, hr, hm, -⟩ | ⟨decl, hr, hm, -⟩
  · exact .inl ⟨c, hc, hr, hm⟩
  · exact .inr ⟨decl, hr, hm⟩

end Name

end SqlPlan
