import SqlPlan.Proofs.ElaborationSound

namespace SqlPlan

variable {σ α β : Type} {env : Environment} {I : σ → Prop}

def Step.Ensures (env : Environment) (I : σ → Prop) (m : Step σ α) (P : α → Prop) : Prop :=
  ∀ s a s', I s → m env s = (.ok a, s') → I s' ∧ P a

namespace Step.Ensures

variable {m : Step σ α} {P : α → Prop} {R : β → Prop}

theorem pure {a : α} (h : P a) : Ensures env I (pure a) P := by
  intro s b s' hs hrun
  obtain ⟨rfl, rfl⟩ := Step.pure_ok.mp hrun
  exact ⟨hs, h⟩

theorem fail (code : DiagnosticCode) (location : Option Span) (message : String) :
    Ensures env I (Step.fail code location message) P := fun _ _ _ _ hrun => (Step.fail_ok.mp hrun).elim

theorem bind {f : α → Step σ β} (hm : Ensures env I m P) (hf : ∀ a, P a → Ensures env I (f a) R) :
    Ensures env I (m >>= f) R := by
  intro s b s' hs hrun
  obtain ⟨a, t, ha, hb⟩ := Step.bind_ok.mp hrun
  obtain ⟨ht, hP⟩ := hm s a t hs ha
  exact hf a hP t b s' ht hb

theorem options {f : Options → Step σ β} (h : Ensures env I (f env.options) R) :
    Ensures env I (Step.options >>= f) R := h

theorem environment {f : Environment → Step σ β} (h : Ensures env I (f env) R) :
    Ensures env I (Step.environment >>= f) R := h

theorem ite {c : Prop} [Decidable c] {n : Step σ α} (hm : c → Ensures env I m P) (hn : ¬c → Ensures env I n P) :
    Ensures env I (if c then m else n) P := by
  split
  · exact hm ‹c›
  · exact hn ‹¬c›

theorem checked {c : Prop} [Decidable c] {code : DiagnosticCode} {location : Option Span} {message : String}
    (hm : ¬c → Ensures env I m P) : Ensures env I (if c then Step.fail code location message else m) P :=
  .ite (fun _ => .fail _ _ _) hm

theorem both {n : Step σ β} (hm : Ensures env I m P) (hn : Ensures env I n R) :
    Ensures env I (Step.both m n) fun p => P p.1 ∧ R p.2 := by
  intro s p s' hs hrun
  obtain ⟨t, ha, hb⟩ := Step.both_ok.mp hrun
  obtain ⟨ht, hP⟩ := hm s p.1 t hs ha
  obtain ⟨hs', hR⟩ := hn t p.2 s' ht hb
  exact ⟨hs', hP, hR⟩

theorem each {f : α → Step σ β} {xs : List α} (h : ∀ x ∈ xs, Ensures env I (f x) R) :
    Ensures env I (Step.each f xs) fun ys => ∀ y ∈ ys, R y := by
  induction xs with
  | nil => exact .pure (List.forall_mem_nil _)
  | cons x xs ih =>
    obtain ⟨hx, hxs⟩ := List.forall_mem_cons.mp h
    exact .bind hx fun y hy => .bind (ih hxs) fun ys hys => .pure (List.forall_mem_cons.mpr ⟨hy, hys⟩)

theorem collect {ms : List (Step σ α)} (h : ∀ m ∈ ms, Ensures env I m P) :
    Ensures env I (Step.collect ms) fun as => ∀ a ∈ as, P a := by
  induction ms with
  | nil => exact .pure (List.forall_mem_nil _)
  | cons m ms ih =>
    obtain ⟨hm, hms⟩ := List.forall_mem_cons.mp h
    exact .bind (.both hm (ih hms)) fun p hp => .pure (List.forall_mem_cons.mpr hp)

theorem collect_map {f : α → Step σ β} {xs : List α} (h : ∀ x ∈ xs, Ensures env I (f x) R) :
    Ensures env I (Step.collect (xs.map f)) fun ys => ∀ y ∈ ys, R y := by
  refine .collect fun m hm => ?_
  obtain ⟨x, hx, rfl⟩ := List.mem_map.mp hm
  exact h x hx

end Step.Ensures

abbrev Analysis.Ensures (env : Environment) (m : Analysis α) (P : α → Prop) : Prop :=
  Step.Ensures env (fun _ => True) m P

theorem Step.Ensures.any (m : Step σ α) : Step.Ensures env (fun _ => True) m fun _ => True :=
  fun _ _ _ _ _ => ⟨trivial, trivial⟩

abbrev Planning.Ensures (env : Environment) (J : Graph → Prop) (m : Planning α) (P : α → Prop) : Prop :=
  Step.Ensures env (fun d => J d.graph) m P

namespace Step.Ensures

variable {J : Graph → Prop} {P : α → Prop} {operator : Operator}

theorem lift {m : Analysis α} (h : Analysis.Ensures env m P) : Planning.Ensures env J (liftM m) P := by
  intro d a d' hd hrun
  obtain ⟨ha, hg⟩ := Planning.lift_ok.mp hrun
  exact ⟨(congrArg J hg).mpr hd, (h _ a _ trivial ha).2⟩

theorem add {inputs : List Socket} (h : ∀ g, J g → J (g.insert operator inputs 1)) :
    Planning.Ensures env J (Planning.add operator inputs) fun _ => True := by
  intro d a d' hd hrun
  obtain ⟨-, -, hg⟩ := Planning.add_ok.mp hrun
  exact ⟨(congrArg J hg).mpr (h _ hd), trivial⟩

theorem select {D : Type} [Overloaded D] (key : String) (candidates : List D) (types : List SqlType)
    (location : Option Span) : Step.Ensures env I (Overload.select key candidates types location) (· ∈ candidates) := by
  intro s d s' hs hrun
  obtain ⟨hd, rfl⟩ := Overload.mem_of_select hrun
  exact ⟨hs, hd⟩

end Step.Ensures

theorem Overload.mem_of_commonParameter? {D : Type} [Overloaded D] {candidates : List D} {i : Nat} {t : SqlType}
    (h : commonParameter? candidates i = some t) : ∃ d ∈ candidates, t ∈ Overloaded.parameters d := by
  unfold commonParameter? at h
  cases candidates with
  | nil => cases h
  | cons d candidates =>
    simp only [List.map_cons] at h
    cases hd : (Overloaded.parameters d)[i]? with
    | none => simp [hd] at h
    | some u =>
      simp only [hd] at h
      split at h <;> cases h
      exact ⟨d, List.mem_cons_self, List.mem_of_getElem? hd⟩

/-- The schemas in which names are looked up. -/
abbrev Environment.Reaches (env : Environment) (s : Schema) : Prop :=
  s ∈ env.catalog.schemas ∨ s ∈ env.searchPath.schemas

namespace Name

variable {name : Name}

theorem schema?_ensures (key : String) (location : Option Span) :
    Step.Ensures env I (match env.catalog.schema? key with
      | some s => pure (some s)
      | none => Step.fail .schemaNotFound location ("schema '" ++ key ++ "' is not found"))
      fun s? => ∀ s ∈ s?, s ∈ env.catalog.schemas := by
  cases hs : env.catalog.schema? key with
  | none => exact .fail _ _ _
  | some s => exact .pure fun t ht => by cases ht; exact List.mem_of_find?_eq_some hs

theorem resolveSchema_ensures (qualifier : List Identifier) (location : Option Span) :
    Step.Ensures env I (resolveSchema qualifier location) fun s? => ∀ s ∈ s?, s ∈ env.catalog.schemas := by
  refine .environment ?_
  dsimp only
  split
  · exact .pure (by simp)
  · exact schema?_ensures _ _
  · exact .ite (fun _ => .fail _ _ _) fun _ => schema?_ensures _ _
  · exact .fail _ _ _

theorem lookUp_ensures {P : α → Prop} (suffix : String) {inSchema : Schema → String → α}
    {onPath : SearchPath → String → α} (hschema : ∀ s ∈ env.catalog.schemas, ∀ key, P (inSchema s key))
    (hpath : ∀ key, P (onPath env.searchPath key)) :
    Step.Ensures env I (name.lookUp suffix inSchema onPath) fun r => P r.2 := by
  have hkey : Step.Ensures env I name.objectKey fun _ => True := by
    refine .options ?_
    cases name.last? with
    | none => exact .fail _ _ _
    | some i => exact .pure trivial
  refine .bind hkey fun key _ => .environment (.bind (resolveSchema_ensures _ _) fun s? hs => ?_)
  cases s? with
  | none => exact .pure (hpath _)
  | some s => exact .pure (hschema s (hs s rfl) _)

theorem lookUp_ensures_mem {P : α → Prop} (suffix : String) {named : Schema → String → List α}
    (h : ∀ s, env.Reaches s → ∀ key, ∀ a ∈ named s key, P a) :
    Step.Ensures env I (name.lookUp suffix named fun path key => path.schemas.flatMap (named · key))
      fun r => ∀ a ∈ r.2, P a := by
  refine lookUp_ensures (P := fun as => ∀ a ∈ as, P a) suffix (fun s hs => h s (.inl hs)) fun key a ha => ?_
  obtain ⟨s, hs, ha⟩ := List.mem_flatMap.mp ha
  exact h s (.inr hs) key a ha

end Name

end SqlPlan
