import SqlPlan.Analysis.Session

namespace SqlPlan

namespace Outcome

variable {α β : Type} {a b : α} {r : Report} {f : α → β} {c : β}

@[simp] theorem ok_inj : ok a = ok b ↔ a = b := by
  constructor
  · intro h
    cases h
    rfl
  · intro h
    rw [h]

@[simp] theorem ok_ne_error : (ok a = error r) ↔ False := by
  constructor
  · intro h
    cases h
  · exact False.elim

@[simp] theorem error_ne_ok : (error r = ok a) ↔ False := by
  constructor
  · intro h
    cases h
  · exact False.elim

@[simp] theorem map_ok : (ok a).map f = ok (f a) := rfl

theorem map_eq_ok {o : Outcome α} : o.map f = ok c ↔ ∃ a, o = ok a ∧ f a = c := by
  obtain ⟨_ | a, log⟩ := o
  · simp [map, ok, Except.map]
  · constructor
    · intro h
      cases h
      exact ⟨a, rfl, rfl⟩
    · rintro ⟨_, h, rfl⟩
      cases h
      rfl

theorem map_id' (o : Outcome α) : (o.map fun a => a) = o := by
  obtain ⟨_ | _, _⟩ := o <;> rfl

@[simp] theorem toOption_ok : (ok a).toOption = some a := rfl

@[simp] theorem toOption_error : (error r : Outcome α).toOption = none := rfl

theorem toOption_eq_some {o : Outcome α} : o.toOption = some a ↔ o = ok a := by
  obtain ⟨_ | b, _ | ⟨d, log⟩⟩ := o <;> simp [toOption, ok]

/-- The log has grown exactly if the step has failed, unless it has panicked, which it may only if allowed. -/
inductive Regular (panics : Prop) : Outcome α → Prop where
  | ok (a : α) : Regular panics (ok a)
  | error (d : Diagnostic) (ds : List Diagnostic) : Regular panics (error ⟨d, ds⟩)
  | panic (h : panics) (log : List Diagnostic) : Regular panics ⟨.error .panic, log⟩

/-- The end of two steps, the second of which was run also if the first one has failed. -/
def join (o : Outcome α) (p : Outcome β) : Outcome (α × β) where
  result := match o.result, p.result with
    | .ok a, .ok b => .ok (a, b)
    | .error .reported, .ok _ => .error .reported
    | .error .reported, .error failure => .error failure
    | .error .panic, _ => .error .panic
    | .ok _, .error failure => .error failure
  log := o.log ++ p.log

theorem join_eq_ok {o : Outcome α} {p : Outcome β} {x : α × β} : o.join p = ok x ↔ o = ok x.1 ∧ p = ok x.2 := by
  obtain ⟨a, b⟩ := x
  obtain ⟨(_ | _) | a', log⟩ := o <;> obtain ⟨(_ | _) | b', more⟩ := p <;> simp [join, ok, and_and_and_comm]

theorem Regular.map {panics : Prop} {o : Outcome α} (h : o.Regular panics) (f : α → β) :
    (o.map f).Regular panics := by
  cases h with
  | ok a => exact .ok (f a)
  | error d ds => exact .error d ds
  | panic h log => exact .panic h log

theorem Regular.mono {panics panics' : Prop} {o : Outcome α} (h : o.Regular panics) (himp : panics → panics') :
    o.Regular panics' := by
  cases h with
  | ok a => exact .ok a
  | error d ds => exact .error d ds
  | panic h log => exact .panic (himp h) log

theorem Regular.join {panics : Prop} {o : Outcome α} {p : Outcome β} (h : o.Regular panics)
    (h' : p.Regular panics) : (o.join p).Regular panics := by
  cases h with
  | ok a =>
    cases h' with
    | ok b => exact .ok (a, b)
    | error d ds => exact .error d ds
    | panic h log => exact .panic h log
  | error d ds =>
    cases h' with
    | ok b => exact .error d (ds ++ [])
    | error d' ds' => exact .error d (ds ++ d' :: ds')
    | panic h log => exact .panic h _
  | panic h log => exact .panic h _

theorem isOk_iff {o : Outcome α} : o.isOk = true ↔ ∃ a, o = ok a := by
  simp only [isOk, Option.isSome_iff_exists, toOption_eq_some]

end Outcome

namespace Step

variable {σ α β : Type} {env : Environment} {s s' : σ}

@[simp] theorem pure_ok {a b : α} :
    (pure a : Step σ α) env s = (.ok b, s') ↔ a = b ∧ s = s' := by
  constructor
  · intro h
    cases h
    exact ⟨rfl, rfl⟩
  · rintro ⟨rfl, rfl⟩
    rfl

theorem bind_of_result {m : Step σ α} {f : α → Step σ β} {a : α} {log : List Diagnostic}
    (h : m env s = (⟨.ok a, log⟩, s')) :
    (m >>= f) env s = (⟨(f a env s').1.result, log ++ (f a env s').1.log⟩, (f a env s').2) := by
  change Step.bind m f env s = _
  rw [Step.bind, h]

theorem bind_of_failure {m : Step σ α} {f : α → Step σ β} {failure : Failure} {log : List Diagnostic}
    (h : m env s = (⟨.error failure, log⟩, s')) : (m >>= f) env s = (⟨.error failure, log⟩, s') := by
  change Step.bind m f env s = _
  rw [Step.bind, h]

@[simp] theorem bind_ok {m : Step σ α} {f : α → Step σ β} {b : β} :
    (m >>= f) env s = (.ok b, s') ↔
      ∃ a t, m env s = (.ok a, t) ∧ f a env t = (.ok b, s') := by
  rcases hm : m env s with ⟨⟨failure | a, log⟩, t⟩
  · rw [bind_of_failure hm]
    constructor
    · intro h
      cases h
    · rintro ⟨_, _, h, _⟩
      cases h
  · rw [bind_of_result hm]
    constructor
    · intro h
      obtain ⟨ho, hs⟩ := Prod.mk.inj h
      obtain ⟨hresult, hlog⟩ := Outcome.mk.inj ho
      obtain ⟨rfl, hnew⟩ := List.append_eq_nil_iff.mp hlog
      exact ⟨a, t, rfl, Prod.ext (Outcome.ext hresult hnew) hs⟩
    · rintro ⟨_, _, h, h'⟩
      cases h
      rw [h']
      rfl

theorem bind_eq_of_ok {m : Step σ α} {f : α → Step σ β} {a : α} (h : m env s = (.ok a, s')) :
    (m >>= f) env s = f a env s' := bind_of_result h

theorem bind_eq_of_error {m : Step σ α} {f : α → Step σ β} {r : Report} (h : m env s = (.error r, s')) :
    (m >>= f) env s = (.error r, s') := bind_of_failure h

theorem bind_congr {m m' : Step σ α} (h : m env s = m' env s') (f : α → Step σ β) :
    (m >>= f) env s = (m' >>= f) env s' := by
  change Step.bind m f env s = Step.bind m' f env s'
  rw [Step.bind, Step.bind, h]

theorem toOption_bind (m : Step σ α) (f : α → Step σ β) :
    ((m >>= f) env s).1.toOption = (m env s).1.toOption.bind fun a => (f a env (m env s).2).1.toOption := by
  rcases hm : m env s with ⟨⟨failure | a, _ | ⟨d, ds⟩⟩, t⟩
  · rw [bind_of_failure hm]
    rfl
  · rw [bind_of_failure hm]
    rfl
  · rw [bind_eq_of_ok hm]
    rfl
  · rw [bind_of_result hm]
    rcases f a env t with ⟨⟨_ | _, _⟩, _⟩ <;> rfl

theorem pure_bind (a : α) (f : α → Step σ β) : (pure a >>= f) = f a := rfl

theorem bind_map (m : Step σ α) (f : α → β) (env : Environment) (s : σ) :
    (m >>= fun a => pure (f a)) env s = ((m env s).1.map f, (m env s).2) := by
  rcases hm : m env s with ⟨⟨failure | a, log⟩, t⟩
  · rw [bind_of_failure hm]
    rfl
  · rw [bind_of_result hm]
    exact Prod.ext (Outcome.ext rfl (List.append_nil log)) rfl

theorem bind_pure (m : Step σ α) : m >>= pure = m := by
  funext env s
  rcases hm : m env s with ⟨⟨failure | a, log⟩, t⟩
  · rw [bind_of_failure hm]
  · rw [bind_of_result hm]
    exact Prod.ext (Outcome.ext rfl (List.append_nil log)) rfl

theorem bind_assoc {γ : Type} (m : Step σ α) (f : α → Step σ β) (n : β → Step σ γ) :
    (m >>= f >>= n) = (m >>= fun a => f a >>= n) := by
  funext env s
  rcases hm : m env s with ⟨⟨failure | a, log⟩, t⟩
  · rw [bind_of_failure (bind_of_failure hm), bind_of_failure hm]
  · rcases hf : f a env t with ⟨⟨failure | b, more⟩, u⟩
    · have hmf : (m >>= f) env s = (⟨.error failure, log ++ more⟩, u) := by rw [bind_of_result hm, hf]
      rw [bind_of_failure hmf, bind_of_result hm, bind_of_failure hf]
    · have hmf : (m >>= f) env s = (⟨.ok b, log ++ more⟩, u) := by rw [bind_of_result hm, hf]
      rw [bind_of_result hmf, bind_of_result hm, bind_of_result hf, List.append_assoc]

theorem each_map {γ : Type} (step : β → Step σ γ) (h : α → β) (xs : List α) :
    each step (xs.map h) = each (fun x => step (h x)) xs := by
  induction xs with
  | nil => rfl
  | cons x xs ih => rw [List.map_cons, each, each, ih]

theorem failWith_eq (d : Diagnostic) : (failWith d : Step σ α) env s = (.error ⟨d, []⟩, s) := rfl

theorem fail_eq (code : DiagnosticCode) (location : Option Span) (message : String) :
    (fail code location message : Step σ α) env s = (.error ⟨⟨code, location, message⟩, []⟩, s) := rfl

@[simp] theorem fail_ok {code : DiagnosticCode} {location : Option Span} {message : String} {b : α} :
    (fail code location message : Step σ α) env s = (.ok b, s') ↔ False := by
  simp [fail_eq]

@[simp] theorem options_ok {o : Options} :
    (options : Step σ Options) env s = (.ok o, s') ↔ env.options = o ∧ s = s' := by
  simp [options]

@[simp] theorem environment_ok {e : Environment} :
    (environment : Step σ Environment) env s = (.ok e, s') ↔ env = e ∧ s = s' := by
  simp [environment]

@[simp] theorem ofExcept_ok {x : Except Diagnostic α} {b : α} :
    (ofExcept x : Step σ α) env s = (.ok b, s') ↔ x = .ok b ∧ s = s' := by
  cases x with
  | ok a => simp [ofExcept]
  | error d => simp [ofExcept, failWith_eq]

@[simp] theorem ite_ok {c : Prop} [Decidable c] {m n : Step σ α} {b : α} :
    (if c then m else n) env s = (.ok b, s') ↔
      (c ∧ m env s = (.ok b, s')) ∨ (¬c ∧ n env s = (.ok b, s')) := by
  split <;> simp_all

theorem attempt_of_result {m : Step σ α} {a : α} {log : List Diagnostic} (h : m env s = (⟨.ok a, log⟩, s')) :
    attempt m env s = (⟨.ok (.ok a), log⟩, s') := by
  rw [attempt, h]

theorem attempt_of_reported {m : Step σ α} {log : List Diagnostic}
    (h : m env s = (⟨.error .reported, log⟩, s')) : attempt m env s = (⟨.ok (.error .reported), log⟩, s') := by
  rw [attempt, h]

theorem attempt_of_panic {m : Step σ α} {log : List Diagnostic} (h : m env s = (⟨.error .panic, log⟩, s')) :
    attempt m env s = (⟨.error .panic, log⟩, s') := by
  rw [attempt, h]

theorem both_of_panic {m : Step σ α} {n : Step σ β} {log : List Diagnostic}
    (h : m env s = (⟨.error .panic, log⟩, s')) : both m n env s = (⟨.error .panic, log⟩, s') :=
  bind_of_failure (attempt_of_panic h)

theorem both_eq {m : Step σ α} {n : Step σ β} {o : Outcome α} {p : Outcome β} {t : σ} (hm : m env s = (o, t))
    (hpanic : o.result ≠ .error .panic) (hn : n env t = (p, s')) : both m n env s = (o.join p, s') := by
  obtain ⟨(_ | _) | a, log⟩ := o
  · refine (bind_of_result (attempt_of_reported hm)).trans ?_
    obtain ⟨(_ | _) | b, more⟩ := p
    · rw [bind_of_result (attempt_of_reported hn)]
      simp only [throw, List.append_nil, Outcome.join]
    · rw [bind_of_failure (attempt_of_panic hn)]
      rfl
    · rw [bind_of_result (attempt_of_result hn)]
      simp only [throw, List.append_nil, Outcome.join]
  · exact absurd rfl hpanic
  · refine (bind_of_result (attempt_of_result hm)).trans ?_
    obtain ⟨(_ | _) | b, more⟩ := p
    · rw [bind_of_result (attempt_of_reported hn)]
      simp only [throw, List.append_nil, Outcome.join]
    · rw [bind_of_failure (attempt_of_panic hn)]
      rfl
    · rw [bind_of_result (attempt_of_result hn)]
      change (Outcome.mk _ (log ++ (more ++ [])), s') = _
      rw [List.append_nil]
      rfl

@[simp] theorem both_ok {m : Step σ α} {n : Step σ β} {p : α × β} :
    both m n env s = (.ok p, s') ↔
      ∃ t, m env s = (.ok p.1, t) ∧ n env t = (.ok p.2, s') := by
  rcases hm : m env s with ⟨o, t⟩
  by_cases hpanic : o.result = .error .panic
  · obtain ⟨_, log⟩ := o
    cases hpanic
    rw [both_of_panic hm]
    simp [Outcome.ok]
  · rcases hn : n env t with ⟨o', u⟩
    rw [both_eq hm hpanic hn]
    simp only [Prod.mk.injEq, Outcome.join_eq_ok]
    constructor
    · rintro ⟨⟨rfl, rfl⟩, rfl⟩
      exact ⟨t, ⟨rfl, rfl⟩, hn⟩
    · rintro ⟨_, ⟨rfl, rfl⟩, hn'⟩
      cases hn.symm.trans hn'
      exact ⟨⟨rfl, rfl⟩, rfl⟩

@[simp] theorem collect_nil_ok {bs : List α} :
    collect ([] : List (Step σ α)) env s = (.ok bs, s') ↔ bs = [] ∧ s = s' := by
  rw [collect, pure_ok, eq_comm]

@[simp] theorem collect_cons_ok {m : Step σ α} {ms : List (Step σ α)} {bs : List α} :
    collect (m :: ms) env s = (.ok bs, s') ↔
      ∃ b rest t, bs = b :: rest ∧ m env s = (.ok b, t) ∧ collect ms env t = (.ok rest, s') := by
  simp only [collect, bind_ok, both_ok, pure_ok, Prod.exists]
  constructor
  · rintro ⟨b, rest, _, ⟨t, hb, hr⟩, rfl, rfl⟩
    exact ⟨b, rest, t, rfl, hb, hr⟩
  · rintro ⟨b, rest, t, rfl, hb, hr⟩
    exact ⟨b, rest, s', ⟨t, hb, hr⟩, rfl, rfl⟩

@[simp] theorem each_nil_ok {f : α → Step σ β} {bs : List β} :
    each f [] env s = (.ok bs, s') ↔ bs = [] ∧ s = s' := by
  rw [each, pure_ok, eq_comm]

@[simp] theorem each_cons_ok {f : α → Step σ β} {a : α} {as : List α} {bs : List β} :
    each f (a :: as) env s = (.ok bs, s') ↔
      ∃ b rest t, bs = b :: rest ∧ f a env s = (.ok b, t) ∧ each f as env t = (.ok rest, s') := by
  simp only [each, bind_ok, pure_ok]
  constructor
  · rintro ⟨b, t, hb, rest, _, hr, rfl, rfl⟩
    exact ⟨b, rest, t, rfl, hb, hr⟩
  · rintro ⟨b, rest, t, rfl, hb, hr⟩
    exact ⟨b, t, hb, rest, s', hr, rfl, rfl⟩

theorem exists_ok {m : Step σ α} (h : (m env s).1.isOk = true) : ∃ a t, m env s = (.ok a, t) := by
  obtain ⟨a, ha⟩ := Outcome.isOk_iff.mp h
  exact ⟨a, _, Prod.ext ha rfl⟩

theorem exists_of_map_eq_some {m : Step σ α} {f : α → β} {b : β} (h : (m env s).1.toOption.map f = some b) :
    ∃ a t, m env s = (.ok a, t) ∧ f a = b := by
  obtain ⟨a, ha, hb⟩ := Option.map_eq_some_iff.1 h
  exact ⟨a, _, Prod.ext (Outcome.toOption_eq_some.1 ha) rfl, hb⟩

end Step

theorem Literal.resolve_eq {σ : Type} {env : Environment} (l : Literal) (target : Option Target) (s : σ) :
    (l.resolve target : Step σ Typed) env s =
      match l.typed env.options target with
      | .ok x => (.ok x, s)
      | .error (.diagnostic d) => (.error ⟨d, []⟩, s)
      | .error .panic => (⟨.error .panic, []⟩, s) := by
  rw [Literal.resolve, Step.bind_eq_of_ok rfl]
  rcases l.typed env.options target with (d | _) | x <;> rfl

/-- Whether a panic is what comes of reading the literal. -/
def Literal.panics (o : Options) (l : Literal) : Bool :=
  match l.constant o with
  | .error .panic => true
  | _ => false

theorem Literal.panics_of_typed {o : Options} {l : Literal} {target : Option Target}
    (h : l.typed o target = .error .panic) : l.panics o = true := by
  unfold typed at h
  split at h
  · split at h
    · cases h
    · split at h <;> cases h
  · split at h <;> cases h
  · cases hc : l.constant o with
    | error fault =>
      rw [hc] at h
      cases h
      rw [panics, hc]
    | ok p =>
      simp only [hc, bind, Except.bind] at h
      split at h
      · split at h <;> cases h
      · cases h

theorem Literal.panics_of_negated? {o : Options} {l l' : Literal} (h : l.negated? = some l') :
    l'.panics o = false := by
  unfold negated? at h
  split at h
  · next negative digits =>
    cases h
    rw [panics, constant, exactConstant]
    cases numeral? digits with
    | none => rfl
    | some p =>
      dsimp only
      generalize (if !negative then _ else _ : Int) = unscaled
      split
      · next heq =>
        split at heq
        · cases heq
        · split at heq <;> cases heq
      · rfl
  · next negative text =>
    cases h
    rw [panics, constant, approximateConstant]
    cases BinaryFormat.double.ofText? text <;> rfl
  · cases h

namespace Analysis

variable {env : Environment} {n n' : Nat}

@[simp] theorem mint_ok {kind : VariableKind} {v : Variable} :
    mint kind env n = (.ok v, n') ↔ v = ⟨n + 1, kind⟩ ∧ n' = n + 1 := by
  simp [mint, eq_comm]

@[simp] theorem stream_ok {label : Option String} {v : Variable} :
    stream label env n = (.ok v, n') ↔ v = ⟨n + 1, .stream label⟩ ∧ n' = n + 1 :=
  mint_ok

@[simp] theorem temporary_ok {v : Variable} :
    temporary env n = (.ok v, n') ↔ v = ⟨n + 1, .temporary⟩ ∧ n' = n + 1 :=
  mint_ok

end Analysis

namespace Planning

variable {α : Type} {env : Environment} {d d' : Draft}

@[simp] theorem lift_ok {m : Analysis α} {a : α} :
    (liftM m : Planning α) env d = (.ok a, d') ↔
      m env d.minted = (.ok a, d'.minted) ∧ d'.graph = d.graph := by
  obtain ⟨n', g'⟩ := d'
  change ((m env d.minted).1, Draft.mk (m env d.minted).2 d.graph) = _ ↔ _
  generalize m env d.minted = x
  obtain ⟨o, k⟩ := x
  simp only [Prod.mk.injEq, Draft.mk.injEq]
  constructor
  · rintro ⟨rfl, rfl, rfl⟩
    exact ⟨⟨rfl, rfl⟩, rfl⟩
  · rintro ⟨⟨rfl, rfl⟩, rfl⟩
    exact ⟨rfl, rfl, rfl⟩

theorem run_lift {m : Analysis α} {x : Outcome α} {n : Nat} (h : m env d.minted = (x, n)) :
    (liftM m : Planning α) env d = (x, { d with minted := n }) := by
  change ofAnalysis m env d = _
  simp only [ofAnalysis, h]

theorem ofAnalysis_bind {β : Type} (m : Analysis α) (f : α → Analysis β) :
    ofAnalysis (m >>= f) = ofAnalysis m >>= fun a => ofAnalysis (f a) := by
  funext env d
  rcases hm : m env d.minted with ⟨⟨failure | a, log⟩, n⟩ <;>
    have hrun : ofAnalysis m env d = (_, { d with minted := n }) := run_lift hm
  · rw [ofAnalysis, Step.bind_of_failure hm, Step.bind_of_failure hrun]
  · rw [ofAnalysis, Step.bind_of_result hm, Step.bind_of_result hrun]
    rfl

@[simp] theorem add_ok {operator : Operator} {inputs : List Socket} {s : Socket} :
    add operator inputs env d = (.ok s, d') ↔
      s = ⟨d.graph.size, 0⟩ ∧ d'.minted = d.minted ∧ d'.graph = d.graph.insert operator inputs 1 := by
  obtain ⟨n', g'⟩ := d'
  simp only [add, Graph.add, Prod.mk.injEq, Outcome.ok_inj, Draft.mk.injEq, eq_comm]

@[simp] theorem addSink_ok {operator : Operator} {input : Socket} {node : Nat} :
    addSink operator input env d = (.ok node, d') ↔
      node = d.graph.size ∧ d'.minted = d.minted ∧ d'.graph = d.graph.insert operator [input] 0 := by
  obtain ⟨n', g'⟩ := d'
  simp only [addSink, Graph.addSink, Prod.mk.injEq, Outcome.ok_inj, Draft.mk.injEq, eq_comm]

@[simp] theorem separately_ok {m : Planning α} {a : α} {g : Graph} :
    separately m env d = (.ok (a, g), d') ↔
      m env ⟨d.minted, .empty⟩ = (.ok a, ⟨d'.minted, g⟩) ∧ d'.graph = d.graph := by
  obtain ⟨n', g'⟩ := d'
  unfold separately
  rcases m env ⟨d.minted, .empty⟩ with ⟨o, k, h⟩
  simp only [Prod.mk.injEq, Draft.mk.injEq, Outcome.map_eq_ok]
  constructor
  · rintro ⟨⟨_, rfl, rfl, rfl⟩, rfl, rfl⟩
    exact ⟨⟨rfl, rfl, rfl⟩, rfl⟩
  · rintro ⟨⟨rfl, rfl, rfl⟩, rfl⟩
    exact ⟨⟨a, rfl, rfl, rfl⟩, rfl, rfl⟩

end Planning

end SqlPlan
