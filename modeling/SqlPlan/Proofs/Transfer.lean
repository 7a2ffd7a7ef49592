import SqlPlan.Proofs.Comparison
import SqlPlan.Proofs.Lookup
import SqlPlan.Proofs.Relocation
import SqlPlan.Proofs.Respelling

namespace SqlPlan

/-- The environment with further schemas at the end of the search path. -/
def Environment.extend (env : Environment) (further : List Schema) : Environment :=
  { env with searchPath := ⟨env.searchPath.schemas ++ further⟩ }

theorem Environment.extend_nil (env : Environment) : env.extend [] = env := by
  rw [extend, List.append_nil]

/-- A diagnostic without its text. -/
def Diagnostic.outline (d : Diagnostic) : DiagnosticCode × Option Span := (d.code, d.location)

/-- How a second run of an analysis differs from a first one. -/
structure Transfer (o : Options) where
  /-- The number in the second run of a variable of the first one. -/
  number : Nat ↪ Nat
  /-- How many variables more the second run has minted. -/
  offset : Nat := 0
  /-- The schemas that only the second run searches. -/
  further : List Schema := []
  /-- The keys under which only the second run may see a named query. -/
  hidden : String → Prop := fun _ => False
  /-- The graph after which the second run puts its nodes. -/
  base : Graph := .empty
  /-- How the second run reads identifiers. -/
  spelling : Spelling o := .asWritten o
  /-- Whether the runs may panic. -/
  panics : Prop := True

namespace Transfer

variable {o : Options} (T : Transfer o)

abbrev spell : Identifier → Identifier := T.spelling.spell

def Verbatim : Prop := ∀ i, T.spell i = i

/-- Whether the variables minted from count `a` to count `b` get the numbers that the second run mints. -/
def Mints (a b : Nat) : Prop := ∀ n, a ≤ n → n < b → T.number (n + 1) = n + 1 + T.offset

/-- Logs of the two runs: they differ in the texts of messages at most, and only in another spelling. -/
def Logs (log log' : List Diagnostic) : Prop :=
  log.map Diagnostic.outline = log'.map Diagnostic.outline ∧ (T.Verbatim → log = log')

def socket (s : Socket) : Socket := s.relocate T.base.size

def into (base : Graph) : Transfer o := { T with base }

abbrev inner : Transfer o := T.into .empty

variable {T} {a b c : Nat}

theorem Verbatim.respell (h : T.Verbatim) (name : Name) : name.respell T.spell = name := by
  rw [Name.respell, List.map_congr_left fun i _ => h i, List.map_id']

theorem Mints.left (h : T.Mints a c) (hbc : b ≤ c) : T.Mints a b :=
  fun n ha hb => h n ha (Nat.lt_of_lt_of_le hb hbc)

theorem Mints.right (h : T.Mints a c) (hab : a ≤ b) : T.Mints b c :=
  fun n hb hc => h n (Nat.le_trans hab hb) hc

/-- The first run and the second one, which goes from the mapped states. -/
def comparison {σ : Type} {env : Environment} (T : Transfer env.options) (count : σ → Nat) (g : σ → σ) :
    Comparison σ where
  env
  env' := env.extend T.further
  count
  Counts := T.Mints
  left := .left
  right := .right
  states := .map g
  Logs := T.Logs
  refl _ := ⟨rfl, fun _ => rfl⟩
  append h h' := by
    refine ⟨?_, fun hw => by rw [h.2 hw, h'.2 hw]⟩
    rw [List.map_append, List.map_append, h.1, h'.1]
  Lenient := T.further ≠ []
  Panics := T.panics

end Transfer

namespace Step

variable {σ α α' β β' : Type} {env : Environment}

/-- The first step counts up, and if it mints as the second one does, the second one ends like it, with the
mapped result and in the mapped state. -/
def Transfers (T : Transfer env.options) (count : σ → Nat) (g : σ → σ) (f : α → β) (m : Step σ α) (m' : Step σ β) :
    Prop :=
  (T.comparison count g).Compares (.map f) m m'

/-- The second step runs the first one from a part of its state. -/
def Runs {τ γ : Type} (m : Step σ α) (start : τ → σ) (finish : τ → σ → τ) (result : α → σ → γ) (n : Step τ γ) : Prop :=
  ∀ env t, n env t = ((m env (start t)).1.map (result · (m env (start t)).2), finish t (m env (start t)).2)

namespace Transfers

variable {T : Transfer env.options} {count : σ → Nat} {g : σ → σ} {f : α → α'} {f' : β → β'}

theorem pure {a : α} {b : α'} (h : f a = b) : Transfers T count g f (pure a) (pure b) := Comparison.Compares.pure h

theorem fail (code : DiagnosticCode) (location : Option Span) (message : String) :
    Transfers T count g f (fail code location message) (fail code location message) :=
  Comparison.Compares.fail code location message

variable {location : Option Span} {message : String}

theorem failText {code : DiagnosticCode} {message' : String} (h : T.Verbatim → message = message') :
    Transfers T count g f (Step.fail code location message) (Step.fail code location message') :=
  Comparison.Compares.failWith ⟨rfl, fun hw => by rw [h hw]⟩

theorem failed (hpath : T.further ≠ []) {code : DiagnosticCode}
    {m' : Step σ β} {f : α → β} : Transfers T count g f (Step.fail code location message) m' :=
  fun s _ _ => ⟨⟨Nat.le_refl _, .error _ []⟩, fun _ => .refused hpath _ _ s _⟩

variable {m : Step σ α} {m' : Step σ α'}

theorem bind_of_ok {n : α → Step σ β} {n' : α' → Step σ β'}
    (hm : Transfers T count g f m m') (hn : ∀ a s t, m env s = (.ok a, t) → Transfers T count g f' (n a) (n' (f a))) :
    Transfers T count g f' (m >>= n) (m' >>= n') := by
  refine Comparison.Compares.bind_of_ok hm ?_
  rintro a _ s t h rfl
  exact hn a s t h

theorem bind {n : α → Step σ β} {n' : α' → Step σ β'} (hm : Transfers T count g f m m')
    (hn : ∀ a, Transfers T count g f' (n a) (n' (f a))) : Transfers T count g f' (m >>= n) (m' >>= n') :=
  hm.bind_of_ok fun a _ _ _ => hn a

theorem options {n : Options → Step σ β} {n' : Options → Step σ β'}
    (h : Transfers T count g f' (n env.options) (n' env.options)) :
    Transfers T count g f' (Step.options >>= n) (Step.options >>= n') := h

theorem environment {n : Environment → Step σ β} {n' : Environment → Step σ β'}
    (h : Transfers T count g f' (n env) (n' (env.extend T.further))) :
    Transfers T count g f' (Step.environment >>= n) (Step.environment >>= n') := h

theorem goes_of_reads {r : Outcome α} {s : σ} (hregular : r.Regular False) (h : m env s = (r, s)) :
    (T.comparison count g).Goes s (m env s) := by
  rw [h]
  exact ⟨Nat.le_refl _, hregular.mono False.elim⟩

theorem reads_of_nil (hpath : T.further = []) {m' : Step σ α} (h : Reads m env) (hsame : ∀ s, m' env s = m env s) :
    Transfers T count g (fun a => a) m m' := by
  rintro s _ rfl
  obtain ⟨r, hregular, hr⟩ := h
  refine ⟨goes_of_reads hregular (hr s), fun _ => ?_⟩
  change (T.comparison count g).Ends _ (m env s) (m' (env.extend T.further) (g s))
  rw [hpath, Environment.extend_nil, hsame, hr, hr]
  cases hregular with
  | ok a => exact .ok rfl rfl
  | error d ds => exact .error ⟨rfl, fun _ => rfl⟩ rfl
  | panic h => exact h.elim

theorem reads {m' : Step σ α} (h : Reads m env)
    (hfound : ∀ a s, m env s = (.ok a, s) → m' (env.extend T.further) s = (.ok a, s))
    (hnil : T.further = [] → Transfers T count g (fun a => a) m m') : Transfers T count g (fun a => a) m m' := by
  by_cases hpath : T.further = []
  · exact hnil hpath
  rintro s _ rfl
  obtain ⟨r, hregular, hr⟩ := h
  refine ⟨goes_of_reads hregular (hr s), fun _ => ?_⟩
  change (T.comparison count g).Ends _ (m env s) (m' (env.extend T.further) (g s))
  rw [hr]
  cases hregular with
  | ok a =>
    rw [hfound a (g s) (hr (g s))]
    exact .ok rfl rfl
  | error d ds => exact .refused hpath _ _ _ _
  | panic h => exact h.elim

theorem ite {c : Prop} [Decidable c] {n : Step σ α} {n' : Step σ α'} (hm : Transfers T count g f m m')
    (hn : Transfers T count g f n n') : Transfers T count g f (if c then m else n) (if c then m' else n') :=
  Comparison.Compares.ite hm hn

theorem both {n : Step σ β} {n' : Step σ β'} (hm : Transfers T count g f m m') (hn : Transfers T count g f' n n') :
    Transfers T count g (fun p => (f p.1, f' p.2)) (both m n) (both m' n') := by
  have hboth := Comparison.Compares.both hm hn
  rwa [Link.prod_map] at hboth

variable {step : β → Step σ α} {step' : β' → Step σ α'}

theorem collect {r : β → β'} (xs : List β) (h : ∀ x ∈ xs, Transfers T count g f (step x) (step' (r x))) :
    Transfers T count g (List.map f) (Step.collect (xs.map step)) (Step.collect ((xs.map r).map step')) := by
  unfold Transfers
  rw [← Link.list_map, List.map_map]
  refine Comparison.Compares.collect ?_
  rw [List.forall₂_map_left_iff, List.forall₂_map_right_iff]
  exact List.forall₂_same.mpr h

theorem each {r : β → β'} (xs : List β) (h : ∀ x ∈ xs, Transfers T count g f (step x) (step' (r x))) :
    Transfers T count g (List.map f) (each step xs) (Step.each step' (xs.map r)) := by
  unfold Transfers
  rw [← Link.list_map]
  refine Comparison.Compares.each ?_
  rw [List.forall₂_map_right_iff]
  exact List.forall₂_same.mpr h

theorem each_same {step' : β → Step σ α'} (xs : List β) (h : ∀ x ∈ xs, Transfers T count g f (step x) (step' x)) :
    Transfers T count g (List.map f) (Step.each step xs) (Step.each step' xs) := by
  have heach := Transfers.each (r := id) xs h
  rwa [List.map_id] at heach

theorem each_self {step' : β → Step σ α} (xs : List β)
    (h : ∀ x ∈ xs, Transfers T count g (fun a => a) (step x) (step' x)) :
    Transfers T count g (fun as => as) (Step.each step xs) (Step.each step' xs) := by
  have heach := Transfers.each_same xs h
  rwa [List.map_id_fun'] at heach

theorem within {τ : Type} (base : Graph) (h : Transfers (T.into base) count g f m m') {start start' : τ → σ}
    {finish : τ → σ → τ} {result : α → σ → β} {result' : α' → σ → β'} {n : Step τ β} {n' : Step τ β'}
    (hn : Runs m start finish result n) (hn' : Runs m' start' finish result' n') {count' : τ → Nat} {g' : τ → τ}
    (hstart : ∀ t, start' (g' t) = g (start t)) (hcount : ∀ t, count' t = count (start t))
    (hcount' : ∀ t s, count' (finish t s) = count s) (hfinish : ∀ t s, finish (g' t) (g s) = g' (finish t s))
    (hresult : ∀ a s, result' (f a) (g s) = f' (result a s)) : Transfers T count' g' f' n n' := by
  rintro t _ rfl
  obtain ⟨⟨hle, hregular⟩, hends⟩ := h (start t) _ rfl
  replace hends : T.Mints (count (start t)) (count (m env (start t)).2) →
    ((T.into base).comparison count g).Ends (.map f) (m env (start t))
      (m' (env.extend T.further) (g (start t))) := hends
  have hgoes : (T.comparison count' g').Goes t (n env t) := by
    refine ⟨?_, ?_⟩
    · change count' t ≤ count' (n env t).2
      rw [hn, hcount, hcount']
      exact hle
    · rw [hn]
      exact hregular.map _
  refine ⟨hgoes, ?_⟩
  change T.Mints (count' t) (count' (n env t).2) →
    (T.comparison count' g').Ends (.map f') (n env t) (n' (env.extend T.further) (g' t))
  rw [hn, hn', hstart, hcount, hcount']
  intro hmints
  replace hends := hends hmints
  generalize m env (start t) = x at *
  generalize m' (env.extend T.further) (g (start t)) = x' at *
  cases hends with
  | ok ha hs =>
    cases ha
    cases hs
    exact .ok (hresult _ _).symm (hfinish _ _).symm
  | error hlog hs =>
    cases hs
    exact .error hlog (hfinish _ _).symm
  | panic h hlog hs =>
    cases hs
    exact .panic (C := T.comparison count' g') h hlog (hfinish _ _).symm
  | refused h failure log => exact .refused (C := T.comparison count' g') h failure log _ _

theorem count_le (h : Transfers T count g f m m') (s : σ) : count s ≤ count (m env s).2 :=
  (h s _ rfl).1.count_le

theorem regular (h : Transfers T count g f m m') (s : σ) : (m env s).1.Regular T.panics :=
  (h s _ rfl).1.regular

theorem ends (h : Transfers T count g f m m') (s : σ) (hmints : T.Mints (count s) (count (m env s).2)) :
    (T.comparison count g).Ends (.map f) (m env s) (m' (env.extend T.further) (g s)) :=
  (h s (g s) rfl).2 hmints

theorem run_ok {s t : σ} {a : α} (h : Transfers T count g f m m') (hm : m env s = (.ok a, t))
    (hmints : T.Mints (count s) (count t)) : m' (env.extend T.further) (g s) = (.ok (f a), g t) := by
  have hends := h.ends s (by rwa [hm])
  rw [hm] at hends
  generalize m' (env.extend T.further) (g s) = x at hends
  cases hends with
  | ok ha hs => cases ha; cases hs; rfl

theorem run_eq {s : σ} (h : Transfers T count g f m m') (hpath : T.further = []) (hw : T.Verbatim)
    (hmints : T.Mints (count s) (count (m env s).2)) : m' env (g s) = ((m env s).1.map f, g (m env s).2) := by
  have hends := h.ends s hmints
  rw [hpath, Environment.extend_nil] at hends
  generalize m env s = x at *
  generalize m' env (g s) = x' at *
  cases hends with
  | ok ha hs => cases ha; cases hs; rfl
  | error hlog hs => cases hlog.2 hw; cases hs; rfl
  | panic _ hlog hs => cases hlog.2 hw; cases hs; rfl
  | refused hne => exact absurd hpath hne

theorem eq_of_same {f : α → α} {m' : Step σ α}
    (h : Transfers ({ number := .refl Nat } : Transfer env.options) count g f m m')
    (hf : ∀ a, f a = a) (hg : ∀ s, g s = s) (s : σ) : m' env s = m env s := by
  have heq := h.run_eq (s := s) rfl (fun _ => rfl) fun _ _ _ => rfl
  rw [hg, hg, funext hf] at heq
  rw [heq, Outcome.map_id']

/-- What a run ends with has the numbers that it has minted and those it was given, so a renumbering that keeps
these keeps the end. -/
theorem fixed {ν : Nat ↪ Nat} {f : α → α} {s : σ} (h : Transfers ({ number := ν } : Transfer env.options) count g f m m)
    (hs : g s = s) (hν : ∀ i ≤ count (m env s).2, ν i = i) : m env s = ((m env s).1.map f, g (m env s).2) := by
  have heq := h.run_eq rfl (fun _ => rfl) fun n _ hn => hν (n + 1) hn
  rwa [hs] at heq

end Transfers

end Step

variable {env : Environment} {T : Transfer env.options} {α β : Type} {f : α → β}

def Draft.renumber {o : Options} (T : Transfer o) (d : Draft) : Draft :=
  ⟨d.minted + T.offset, T.base.onto (d.graph.renumber T.number)⟩

theorem Draft.renumber_refl {o : Options} (d : Draft) : d.renumber ({ number := .refl Nat } : Transfer o) = d := by
  rw [renumber, Graph.empty_onto, Graph.renumber_refl]
  rfl

abbrev Analysis.Transfers (T : Transfer env.options) (f : α → β) (m : Analysis α) (m' : Analysis β) : Prop :=
  Step.Transfers T (fun n => n) (· + T.offset) f m m'

abbrev Planning.Transfers (T : Transfer env.options) (f : α → β) (m : Planning α) (m' : Planning β) : Prop :=
  Step.Transfers T Draft.minted (Draft.renumber T) f m m'

theorem Analysis.mint_transfers (kind : VariableKind) :
    Transfers T (Variable.renumber T.number) (mint kind) (mint kind) := by
  rintro n _ rfl
  refine ⟨⟨Nat.le_succ n, .ok _⟩, fun hmints => ?_⟩
  have hnumber : T.number (n + 1) = n + 1 + T.offset := hmints n (Nat.le_refl n) (Nat.lt_succ_self n)
  have hend : mint kind (env.extend T.further) (n + T.offset) =
      (.ok (Variable.renumber T.number ⟨n + 1, kind⟩), n + 1 + T.offset) := by
    rw [mint, Variable.renumber, hnumber, Nat.add_right_comm]
  change (T.comparison _ _).Ends _ (mint kind env n) (mint kind (env.extend T.further) (n + T.offset))
  rw [hend]
  exact .ok rfl rfl

namespace Planning

theorem lift_runs (m : Analysis α) :
    Step.Runs m Draft.minted (fun d n => { d with minted := n }) (fun a _ => a) (liftM m) := by
  intro env d
  exact Prod.ext (Outcome.map_id' _).symm rfl

theorem lift_transfers {m : Analysis α} {m' : Analysis β} (h : Analysis.Transfers T f m m') :
    Transfers T f (liftM m) (liftM m') :=
  .within T.base h (lift_runs m) (lift_runs m') (fun _ => rfl) (fun _ => rfl) (fun _ _ => rfl) (fun _ _ => rfl)
    fun _ _ => rfl

theorem insert_renumber (d : Draft) (operator : Operator) (inputs : List Socket) (k : Nat) :
    (T.base.onto (d.graph.renumber T.number)).insert (operator.renumber T.number) (inputs.map T.socket) k =
      T.base.onto ((d.graph.insert operator inputs k).renumber T.number) := by
  rw [← Graph.insert_renumber]
  exact Graph.insert_onto _ _ _ _ _

theorem add_transfers (operator : Operator) (inputs : List Socket) :
    Transfers T T.socket (add operator inputs) (add (operator.renumber T.number) (inputs.map T.socket)) := by
  rintro d _ rfl
  refine ⟨⟨Nat.le_refl _, .ok _⟩, fun _ => .ok ?_ ?_⟩
  · simp only [Draft.renumber, Graph.size_onto, Graph.size_renumber]
    rfl
  · exact congrArg (Draft.mk (d.minted + T.offset)) (insert_renumber d operator inputs 1).symm

theorem addSink_transfers (operator : Operator) (input : Socket) :
    Transfers T (· + T.base.size) (addSink operator input)
      (addSink (operator.renumber T.number) (T.socket input)) := by
  rintro d _ rfl
  refine ⟨⟨Nat.le_refl _, .ok _⟩, fun _ => .ok ?_ ?_⟩
  · simp only [Draft.renumber, Graph.size_onto, Graph.size_renumber]
    rfl
  · exact congrArg (Draft.mk (d.minted + T.offset)) (insert_renumber d operator [input] 0).symm

theorem separately_runs (m : Planning α) : Step.Runs m (fun d => ⟨d.minted, .empty⟩)
    (fun d inner => { d with minted := inner.minted }) (fun a inner => (a, inner.graph)) (separately m) := by
  intro env d
  unfold separately
  rcases m env ⟨d.minted, .empty⟩ with ⟨_ | _, _⟩ <;> rfl

theorem separately_transfers {m : Planning α} {m' : Planning β} (h : Transfers T.inner f m m') :
    Transfers T (fun p => (f p.1, p.2.renumber T.number)) (separately m) (separately m') :=
  .within .empty h (separately_runs m) (separately_runs m') (fun _ => rfl) (fun _ => rfl) (fun _ _ => rfl)
    (fun _ _ => rfl) fun a _ => congrArg (Prod.mk (f a)) (Graph.empty_onto _)

end Planning

end SqlPlan
