import Mathlib.Data.List.Forall2
import SqlPlan.Proofs.Success

namespace SqlPlan

/-- A relation that has something for every value of the first type. -/
@[ext]
structure Link (α β : Type) where
  Rel : α → β → Prop
  total (a : α) : ∃ b, Rel a b

namespace Link

variable {α α' β β' : Type}

def map (f : α → β) : Link α β := ⟨fun a b => f a = b, fun a => ⟨f a, rfl⟩⟩

abbrev eq : Link α α := map fun a => a

def prod (L : Link α α') (K : Link β β') : Link (α × β) (α' × β') where
  Rel p q := L.Rel p.1 q.1 ∧ K.Rel p.2 q.2
  total p := by
    obtain ⟨a, ha⟩ := L.total p.1
    obtain ⟨b, hb⟩ := K.total p.2
    exact ⟨(a, b), ha, hb⟩

def option (L : Link α β) : Link (Option α) (Option β) where
  Rel := Option.Rel L.Rel
  total o := by
    cases o with
    | none => exact ⟨none, .none⟩
    | some a =>
      obtain ⟨b, hb⟩ := L.total a
      exact ⟨some b, .some hb⟩

def list (L : Link α β) : Link (List α) (List β) where
  Rel := List.Forall₂ L.Rel
  total as := by
    induction as with
    | nil => exact ⟨[], .nil⟩
    | cons a as ih =>
      obtain ⟨b, hb⟩ := L.total a
      obtain ⟨bs, hbs⟩ := ih
      exact ⟨b :: bs, .cons hb hbs⟩

theorem prod_map (f : α → α') (g : β → β') : (map f).prod (map g) = map (Prod.map f g) := by
  ext p q
  change f p.1 = q.1 ∧ g p.2 = q.2 ↔ Prod.map f g p = q
  rw [Prod.ext_iff, Prod.map_fst, Prod.map_snd]

theorem option_map (f : α → β) : (map f).option = map (Option.map f) := by
  ext o p
  cases o <;> cases p <;> simp [option, map]

theorem list_map (f : α → β) : (map f).list = map (List.map f) := by
  ext as bs
  change List.Forall₂ (fun a b => f a = b) as bs ↔ as.map f = bs
  rw [← List.forall₂_eq_eq_eq, List.forall₂_map_left_iff]

end Link

/-- How two runs are compared, each in an environment of its own. -/
structure Comparison (σ : Type) where
  env : Environment
  env' : Environment
  /-- How far a state has counted. -/
  count : σ → Nat
  /-- The runs are compared if the first one counts from the one number to the other. -/
  Counts : Nat → Nat → Prop
  left {a b c : Nat} : Counts a c → b ≤ c → Counts a b
  right {a b c : Nat} : Counts a c → a ≤ b → Counts b c
  states : Link σ σ
  Logs : List Diagnostic → List Diagnostic → Prop
  refl (log : List Diagnostic) : Logs log log
  append {log log' more more' : List Diagnostic} :
    Logs log log' → Logs more more' → Logs (log ++ more) (log' ++ more')
  /-- Whether the second run may go on where the first one fails. -/
  Lenient : Prop
  /-- Whether the runs may panic. -/
  Panics : Prop

namespace Comparison

variable {σ α α' β β' : Type} (C : Comparison σ)

/-- The comparison of runs that may count as they like and fail together, with the same reports. -/
def strict (env env' : Environment) (count : σ → Nat) (states : Link σ σ) : Comparison σ where
  env
  env'
  count
  Counts _ _ := True
  left _ _ := trivial
  right _ _ := trivial
  states
  Logs := Eq
  refl _ := rfl
  append := by
    rintro log _ more _ rfl rfl
    rfl
  Lenient := False
  Panics := True

/-- Two ends of a run: related results and nothing reported, reports that belong together, a panic, or a failure
of the first run alone. -/
inductive Ends (L : Link α β) : Outcome α × σ → Outcome β × σ → Prop where
  | ok {a : α} {b : β} {s s' : σ} : L.Rel a b → C.states.Rel s s' → Ends L (.ok a, s) (.ok b, s')
  | error {d d' : Diagnostic} {ds ds' : List Diagnostic} {s s' : σ} : C.Logs (d :: ds) (d' :: ds') →
    C.states.Rel s s' → Ends L (.error ⟨d, ds⟩, s) (.error ⟨d', ds'⟩, s')
  | panic (h : C.Panics) {log log' : List Diagnostic} {s s' : σ} : C.Logs log log' → C.states.Rel s s' →
    Ends L (⟨.error .panic, log⟩, s) (⟨.error .panic, log'⟩, s')
  | refused (h : C.Lenient) (failure : Failure) (log : List Diagnostic) (s : σ) (x : Outcome β × σ) :
    Ends L (⟨.error failure, log⟩, s) x

theorem Ends.refused_join {C : Comparison σ} {L : Link (α × β) α'} (h : C.Lenient) (failure : Failure)
    (log : List Diagnostic) (p : Outcome β) (t : σ) (x : Outcome α' × σ) :
    C.Ends L ((⟨.error failure, log⟩ : Outcome α).join p, t) x := by
  obtain ⟨_ | _, more⟩ := p <;> cases failure <;> exact .refused h _ _ _ _

theorem Ends.join {C : Comparison σ} {L : Link α α'} {K : Link β β'} {o : Outcome α} {o' : Outcome α'}
    {p : Outcome β} {p' : Outcome β'} {s s' t t' : σ} (h : C.Ends L (o, s) (o', s'))
    (hpanic : o.result ≠ .error .panic) (h' : C.states.Rel s s' → C.Ends K (p, t) (p', t')) :
    C.Ends (L.prod K) (o.join p, t) (o'.join p', t') := by
  cases h with
  | ok ha hs =>
    cases h' hs with
    | ok hb ht => exact .ok ⟨ha, hb⟩ ht
    | error hlog ht => exact .error hlog ht
    | panic h hlog ht => exact .panic h hlog ht
    | refused h => exact .refused h _ _ _ _
  | error hlog hs =>
    cases h' hs with
    | ok _ ht => exact .error (C.append hlog (C.refl [])) ht
    | error hmore ht => exact .error (C.append hlog hmore) ht
    | panic h hmore ht => exact .panic h (C.append hlog hmore) ht
    | refused h => exact .refused h _ _ _ _
  | panic => exact absurd rfl hpanic
  | refused h => exact .refused_join h _ _ _ _ _

/-- What is known of a run from a state, whatever it is compared with. -/
structure Goes (s : σ) (x : Outcome α × σ) : Prop where
  count_le : C.count s ≤ C.count x.2
  regular : x.1.Regular C.Panics

/-- From states that belong together the first step counts up, and the second one ends like it. -/
def Compares (L : Link α β) (m : Step σ α) (m' : Step σ β) : Prop :=
  ∀ s s', C.states.Rel s s' → C.Goes s (m C.env s) ∧
    (C.Counts (C.count s) (C.count (m C.env s).2) → C.Ends L (m C.env s) (m' C.env' s'))

namespace Compares

variable {C} {L : Link α α'} {K : Link β β'}

theorem pure {a : α} {b : α'} (h : L.Rel a b) : C.Compares L (pure a) (pure b) :=
  fun _ _ hs => ⟨⟨Nat.le_refl _, .ok a⟩, fun _ => .ok h hs⟩

theorem failWith {d d' : Diagnostic} (h : C.Logs [d] [d']) :
    C.Compares L (Step.failWith d) (Step.failWith d') :=
  fun _ _ hs => ⟨⟨Nat.le_refl _, .error d []⟩, fun _ => .error h hs⟩

theorem panic (h : C.Panics) : C.Compares L (Step.throw .panic) (Step.throw .panic) :=
  fun _ _ hs => ⟨⟨Nat.le_refl _, .panic h []⟩, fun _ => .panic h (C.refl _) hs⟩

theorem fail (code : DiagnosticCode) (location : Option Span) (message : String) :
    C.Compares L (Step.fail code location message) (Step.fail code location message) :=
  failWith (C.refl _)

theorem bind_of_ok {m : Step σ α} {m' : Step σ α'} {n : α → Step σ β} {n' : α' → Step σ β'} (hm : C.Compares L m m')
    (hn : ∀ a b s t, m C.env s = (.ok a, t) → L.Rel a b → C.Compares K (n a) (n' b)) :
    C.Compares K (m >>= n) (m' >>= n') := by
  intro s s' hs
  obtain ⟨⟨hle, hregular⟩, hends⟩ := hm s s' hs
  generalize hx' : m' C.env' s' = x' at hends
  rcases hx : m C.env s with ⟨o, t⟩
  rw [hx] at hle hregular hends
  cases hregular with
  | ok a =>
    rw [Step.bind_eq_of_ok hx]
    -- The first run counts up also where the second one has left it, so links must be total.
    obtain ⟨b, hb⟩ := L.total a
    obtain ⟨t', ht'⟩ := C.states.total t
    obtain ⟨hup, hregular⟩ := (hn a b s t hx hb t t' ht').1
    refine ⟨⟨Nat.le_trans hle hup, hregular⟩, fun hcounts => ?_⟩
    cases hends (C.left hcounts hup) with
    | ok hab ht =>
      rw [Step.bind_eq_of_ok hx']
      exact (hn a _ s t hx hab t _ ht).2 (C.right hcounts hle)
  | error d ds =>
    rw [Step.bind_eq_of_error hx]
    refine ⟨⟨hle, .error d ds⟩, fun hcounts => ?_⟩
    cases hends hcounts with
    | error hlog ht =>
      rw [Step.bind_eq_of_error hx']
      exact .error hlog ht
    | refused h => exact .refused h _ _ _ _
  | panic h log =>
    rw [Step.bind_of_failure hx]
    refine ⟨⟨hle, .panic h log⟩, fun hcounts => ?_⟩
    cases hends hcounts with
    | panic _ hlog ht =>
      rw [Step.bind_of_failure hx']
      exact .panic h hlog ht
    | refused h => exact .refused h _ _ _ _

theorem bind {m : Step σ α} {m' : Step σ α'} {n : α → Step σ β} {n' : α' → Step σ β'} (hm : C.Compares L m m')
    (hn : ∀ a b, L.Rel a b → C.Compares K (n a) (n' b)) : C.Compares K (m >>= n) (m' >>= n') :=
  hm.bind_of_ok fun a b _ _ _ => hn a b

theorem environment {n : Environment → Step σ β} {n' : Environment → Step σ β'}
    (h : C.Compares K (n C.env) (n' C.env')) :
    C.Compares K (Step.environment >>= n) (Step.environment >>= n') := h

theorem options {n : Options → Step σ β} {n' : Options → Step σ β'} (ho : C.env'.options = C.env.options)
    (h : C.Compares K (n C.env.options) (n' C.env.options)) :
    C.Compares K (Step.options >>= n) (Step.options >>= n') := by
  intro s s' hs
  change _ ∧ (_ → C.Ends K (n C.env.options C.env s) (n' C.env'.options C.env' s'))
  rw [ho]
  exact h s s' hs

theorem ite {c : Prop} [Decidable c] {m n : Step σ α} {m' n' : Step σ α'} (hm : C.Compares L m m')
    (hn : C.Compares L n n') : C.Compares L (if c then m else n) (if c then m' else n') := by
  by_cases h : c
  · rwa [if_pos h, if_pos h]
  · rwa [if_neg h, if_neg h]

theorem both {m : Step σ α} {m' : Step σ α'} {n : Step σ β} {n' : Step σ β'} (hm : C.Compares L m m')
    (hn : C.Compares K n n') : C.Compares (L.prod K) (Step.both m n) (Step.both m' n') := by
  intro s s' hs
  obtain ⟨⟨hle, hregular⟩, hends⟩ := hm s s' hs
  rcases hx : m C.env s with ⟨o, t⟩
  rcases hx' : m' C.env' s' with ⟨o', t'⟩
  rw [hx] at hle hregular hends
  rw [hx'] at hends
  by_cases hpanic : o.result = .error .panic
  · obtain ⟨_, log⟩ := o
    cases hpanic
    rw [Step.both_of_panic hx]
    cases hregular with
    | panic h => ?_
    refine ⟨⟨hle, .panic h log⟩, fun hcounts => ?_⟩
    cases hends hcounts with
    | panic _ hlog ht =>
      rw [Step.both_of_panic hx']
      exact .panic h hlog ht
    | refused h => exact .refused h _ _ _ _
  · rcases hy : n C.env t with ⟨p, u⟩
    rw [Step.both_eq hx hpanic hy]
    obtain ⟨t₀, ht₀⟩ := C.states.total t
    obtain ⟨hup, hregular'⟩ := (hn t t₀ ht₀).1
    rw [hy] at hup hregular'
    refine ⟨⟨Nat.le_trans hle hup, hregular.join hregular'⟩, fun hcounts => ?_⟩
    replace hends := hends (C.left hcounts hup)
    by_cases hpanic' : o'.result = .error .panic
    · cases hends with
      | ok | error => cases hpanic'
      | panic => exact absurd rfl hpanic
      | refused h => exact .refused_join h _ _ _ _ _
    · rw [Step.both_eq hx' hpanic' rfl]
      refine hends.join hpanic fun ht => ?_
      have hends' := (hn t t' ht).2
      rw [hy] at hends'
      exact hends' (C.right hcounts hle)

theorem collect {ms : List (Step σ α)} {ms' : List (Step σ α')} (h : List.Forall₂ (C.Compares L) ms ms') :
    C.Compares L.list (Step.collect ms) (Step.collect ms') := by
  induction h with
  | nil => exact .pure .nil
  | cons hm _ ih => exact .bind (.both hm ih) fun _ _ hp => .pure (.cons hp.1 hp.2)

theorem each {step : β → Step σ α} {step' : β' → Step σ α'} {xs : List β} {xs' : List β'}
    (h : List.Forall₂ (fun x x' => C.Compares L (step x) (step' x')) xs xs') :
    C.Compares L.list (Step.each step xs) (Step.each step' xs') := by
  induction h with
  | nil => exact .pure .nil
  | cons hx _ ih => exact .bind hx fun _ _ ha => .bind ih fun _ _ has => .pure (.cons ha has)

end Compares

end Comparison

end SqlPlan
