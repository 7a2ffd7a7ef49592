import Mathlib.Algebra.GroupWithZero.Nat
import Mathlib.Data.List.Forall2
import SqlPlan.Analysis.Overload
import SqlPlan.Proofs.ConversionCost

namespace SqlPlan

/-- The result of a step that reports nothing, or the code of the first problem that a failed one reports. -/
inductive Verdict (α : Type) where
  | ok (a : α)
  | error (code : DiagnosticCode)
  | fault

def Outcome.verdict {α : Type} : Outcome α → Verdict α
  | ⟨.ok a, []⟩ => .ok a
  | ⟨.error .reported, d :: _⟩ => .error d.code
  | _ => .fault

def Step.verdict {σ α : Type} (m : Step σ α) (env : Environment) (s : σ) : Verdict α := (m env s).1.verdict

theorem Step.verdict_congr {σ α : Type} {m m' : Step σ α} {env : Environment} {s : σ} (h : m env s = m' env s) :
    m.verdict env s = m'.verdict env s := by
  rw [verdict, verdict, h]

theorem SqlType.conversionCost_self (a : SqlType) : a.conversionCost a = some 0 :=
  conversionCost_eq_zero_iff.2 rfl

namespace Overload

open List (Forall₂ Perm)

variable {D : Type} [Overloaded D] {arguments : List SqlType} {candidates others : List D} {d e : D}

/-- Whether the declaration has a parameter for each argument, to which the argument converts. -/
def Accepts (arguments : List SqlType) (d : D) : Prop :=
  Forall₂ (fun a p => (a.conversionCost p).isSome) arguments (Overloaded.parameters d)

def cost (arguments : List SqlType) (d : D) : Nat :=
  (List.zipWith (fun a p => (a.conversionCost p).getD 0) arguments (Overloaded.parameters d)).sum

/-- Whether the declaration stands at some position of the candidates and accepts the arguments at a lower cost
than the candidates at all other positions. -/
def Wins (arguments : List SqlType) (candidates : List D) (d : D) : Prop :=
  ∃ before after, candidates = before ++ d :: after ∧ Accepts arguments d ∧
    ∀ e ∈ before ++ after, Accepts arguments e → cost arguments d < cost arguments e

theorem totalCost_eq_some_iff {parameters : List SqlType} {c : Nat} :
    totalCost arguments parameters = some c ↔
      Forall₂ (fun a p => (a.conversionCost p).isSome) arguments parameters ∧
        (List.zipWith (fun a p => (a.conversionCost p).getD 0) arguments parameters).sum = c := by
  induction arguments generalizing parameters c with
  | nil => cases parameters <;> simp [totalCost]
  | cons a arguments ih =>
    cases parameters with
    | nil => simp [totalCost]
    | cons p parameters =>
      cases hc : a.conversionCost p with
      | none => simp [totalCost, hc]
      | some n =>
        simp only [totalCost, hc, Option.bind_eq_bind, Option.bind_some, Option.bind_eq_some_iff, ih]
        simp [hc]

theorem callCost_eq_some_iff {c : Nat} :
    callCost arguments d = some c ↔ Accepts arguments d ∧ cost arguments d = c :=
  totalCost_eq_some_iff

theorem callCost_of_accepts (h : Accepts arguments d) : callCost arguments d = some (cost arguments d) :=
  callCost_eq_some_iff.2 ⟨h, rfl⟩

theorem accepts_iff_isSome : Accepts arguments d ↔ (callCost arguments d).isSome = true := by
  rw [Option.isSome_iff_exists]
  constructor
  · exact fun h => ⟨_, callCost_of_accepts h⟩
  · rintro ⟨c, hc⟩
    exact (callCost_eq_some_iff.1 hc).1

theorem callCost_eq_none_iff : callCost arguments d = none ↔ ¬Accepts arguments d := by
  rw [accepts_iff_isSome, Option.not_isSome_iff_eq_none]

instance : Decidable (Accepts arguments d) := decidable_of_iff _ accepts_iff_isSome.symm

/-- Whether the declaration accepts the arguments at a cost that no candidate undercuts. -/
def IsCheapest (arguments : List SqlType) (candidates : List D) (d : D) : Prop :=
  Accepts arguments d ∧ ∀ e ∈ candidates, Accepts arguments e → cost arguments d ≤ cost arguments e

instance : Decidable (IsCheapest arguments candidates d) := inferInstanceAs (Decidable (_ ∧ _))

theorem mem_costs {c : Nat} :
    c ∈ (ranked arguments candidates).map (·.1) ↔
      ∃ d ∈ candidates, Accepts arguments d ∧ cost arguments d = c := by
  simp only [ranked, List.map_filterMap, List.mem_filterMap, Option.map_map, Option.map_eq_some_iff,
    callCost_eq_some_iff]
  simp

theorem costs_eq_nil_iff :
    (ranked arguments candidates).map (·.1) = [] ↔ ∀ d ∈ candidates, ¬Accepts arguments d := by
  rw [List.eq_nil_iff_forall_not_mem]
  simp only [mem_costs]
  constructor
  · exact fun h d hd hacc => h _ ⟨d, hd, hacc, rfl⟩
  · rintro h c ⟨d, hd, hacc, -⟩
    exact h d hd hacc

theorem filter_ranked (c : Nat) :
    ((ranked arguments candidates).filter fun p => p.1 == c).map (·.2) =
      candidates.filter fun d => callCost arguments d == some c := by
  induction candidates with
  | nil => rfl
  | cons d candidates ih =>
    cases hd : callCost arguments d with
    | none => simp_all [ranked]
    | some n => by_cases hn : n = c <;> simp_all [ranked]

theorem cheapest_eq_nil (h : ∀ d ∈ candidates, ¬Accepts arguments d) : cheapest arguments candidates = [] := by
  rw [cheapest, costs_eq_nil_iff.2 h]
  rfl

theorem exists_isCheapest (hd : d ∈ candidates) (hacc : Accepts arguments d) :
    ∃ first ∈ candidates, IsCheapest arguments candidates first ∧
      cheapest arguments candidates =
        candidates.filter fun e => callCost arguments e == some (cost arguments first) := by
  obtain ⟨best, hbest⟩ := Option.isSome_iff_exists.1 (List.isSome_min?_of_mem (mem_costs.2 ⟨d, hd, hacc, rfl⟩))
  obtain ⟨hmem, hle⟩ := List.min?_eq_some_iff.1 hbest
  obtain ⟨first, hfirst, hacc', rfl⟩ := mem_costs.1 hmem
  refine ⟨first, hfirst, ⟨hacc', fun e he hacc'' => hle _ (mem_costs.2 ⟨e, he, hacc'', rfl⟩)⟩, ?_⟩
  rw [cheapest, hbest]
  exact filter_ranked _

theorem cheapest_eq_filter :
    cheapest arguments candidates = candidates.filter (IsCheapest arguments candidates ·) := by
  by_cases h : ∃ d ∈ candidates, Accepts arguments d
  · obtain ⟨d, hd, hacc⟩ := h
    obtain ⟨first, hfirst, hcheap, heq⟩ := exists_isCheapest hd hacc
    rw [heq]
    refine List.filter_congr fun e he => ?_
    rw [Bool.eq_iff_iff, beq_iff_eq, callCost_eq_some_iff, decide_eq_true_iff]
    constructor
    · rintro ⟨he', hcost⟩
      exact ⟨he', hcost ▸ hcheap.2⟩
    · rintro ⟨he', hcost⟩
      exact ⟨he', Nat.le_antisymm (hcost first hfirst hcheap.1) (hcheap.2 e he he')⟩
  · push Not at h
    rw [cheapest_eq_nil h, eq_comm, List.filter_eq_nil_iff]
    exact fun d hd hcheap => h d hd (of_decide_eq_true hcheap).1

theorem cheapest_eq_nil_iff : cheapest arguments candidates = [] ↔ ∀ d ∈ candidates, ¬Accepts arguments d := by
  refine ⟨fun h d hd hacc => ?_, cheapest_eq_nil⟩
  obtain ⟨first, hfirst, hcheap, -⟩ := exists_isCheapest hd hacc
  rw [cheapest_eq_filter, List.filter_eq_nil_iff] at h
  exact h first hfirst (decide_eq_true hcheap)

theorem isCheapest_of_lt {before after : List D} (hacc : Accepts arguments d)
    (hlt : ∀ e ∈ before ++ after, Accepts arguments e → cost arguments d < cost arguments e) :
    IsCheapest arguments (before ++ d :: after) d := by
  refine ⟨hacc, fun e he hacc' => ?_⟩
  rcases List.mem_append.1 he with he | he
  · exact Nat.le_of_lt (hlt e (List.mem_append_left _ he) hacc')
  · rcases List.mem_cons.1 he with rfl | he
    · exact Nat.le_refl _
    · exact Nat.le_of_lt (hlt e (List.mem_append_right _ he) hacc')

theorem cheapest_eq_singleton_iff : cheapest arguments candidates = [d] ↔ Wins arguments candidates d := by
  rw [cheapest_eq_filter, List.filter_eq_cons_iff]
  constructor
  · rintro ⟨before, after, rfl, hbefore, hcheap, hafter⟩
    have hcheap := of_decide_eq_true hcheap
    rw [List.filter_eq_nil_iff] at hafter
    refine ⟨before, after, rfl, hcheap.1, fun e he hacc => ?_⟩
    have hother : ¬IsCheapest arguments (before ++ d :: after) e := by
      rcases List.mem_append.1 he with he | he
      · simpa using hbefore e he
      · simpa using hafter e he
    have hmem : e ∈ before ++ d :: after := by
      rw [List.mem_append] at he
      simpa using he.imp_right .inr
    -- At the same cost the other one would be among the cheapest too.
    refine Nat.lt_of_le_of_ne (hcheap.2 e hmem hacc) fun hcost => hother ⟨hacc, ?_⟩
    exact hcost ▸ hcheap.2
  · rintro ⟨before, after, rfl, hacc, hlt⟩
    have hcheap := isCheapest_of_lt hacc hlt
    have hother : ∀ e ∈ before ++ after, ¬IsCheapest arguments (before ++ d :: after) e := by
      intro e he hcheap'
      have := hcheap'.2 d (by simp) hacc
      have := hlt e he hcheap'.1
      omega
    refine ⟨before, after, rfl, fun e he => ?_, decide_eq_true hcheap, List.filter_eq_nil_iff.2 fun e he => ?_⟩
    · simpa using hother e (List.mem_append_left _ he)
    · simpa using hother e (List.mem_append_right _ he)

theorem isCheapest_congr (h : ∀ e, e ∈ candidates ↔ e ∈ others) :
    IsCheapest arguments candidates d ↔ IsCheapest arguments others d := by
  simp only [IsCheapest, h]

theorem cheapest_perm (h : candidates.Perm others) :
    (cheapest arguments candidates).Perm (cheapest arguments others) := by
  rw [cheapest_eq_filter, cheapest_eq_filter]
  simp only [isCheapest_congr fun _ => h.mem_iff]
  exact h.filter _

theorem cheapest_filter_accepts :
    cheapest arguments (candidates.filter (Accepts arguments ·)) = cheapest arguments candidates := by
  have hranked : ranked arguments (candidates.filter (Accepts arguments ·)) = ranked arguments candidates := by
    rw [ranked, List.filterMap_filter]
    refine List.filterMap_congr fun d _ => ?_
    by_cases hacc : Accepts arguments d
    · simp [hacc]
    · simp [hacc, callCost_eq_none_iff.2 hacc]
  rw [cheapest, hranked, cheapest]

variable {σ : Type} {name : String} {location : Option Span} {env : Environment} {s : σ}

theorem select_verdict : (select name candidates arguments location).verdict env s =
    match cheapest arguments candidates with
    | [] => .error .functionNotFound
    | [d] => .ok d
    | _ => .error .functionAmbiguous := by
  unfold select Step.verdict
  rcases cheapest arguments candidates with _ | ⟨d, _ | ⟨e, rest⟩⟩ <;> rfl

theorem select_congr (h : others.filter (Accepts arguments ·) = candidates.filter (Accepts arguments ·)) :
    (select name others arguments location : Step σ D) = select name candidates arguments location := by
  have hcheapest : cheapest arguments others = cheapest arguments candidates := by
    rw [← cheapest_filter_accepts, h, cheapest_filter_accepts]
  rw [select, select, hcheapest]

theorem select_ok_iff :
    (select name candidates arguments location).verdict env s = .ok d ↔ Wins arguments candidates d := by
  rw [select_verdict, ← cheapest_eq_singleton_iff]
  rcases cheapest arguments candidates with _ | ⟨e, _ | ⟨e', rest⟩⟩ <;> simp

theorem select_notFound_iff :
    (select name candidates arguments location).verdict env s = .error .functionNotFound ↔
      ∀ d ∈ candidates, ¬Accepts arguments d := by
  rw [select_verdict, ← cheapest_eq_nil_iff]
  rcases cheapest arguments candidates with _ | ⟨e, _ | ⟨e', rest⟩⟩ <;> simp

theorem select_ambiguous_iff :
    (select name candidates arguments location).verdict env s = .error .functionAmbiguous ↔
      (∃ d ∈ candidates, Accepts arguments d) ∧ ∀ d, ¬Wins arguments candidates d := by
  have hsome : (∃ d ∈ candidates, Accepts arguments d) ↔ cheapest arguments candidates ≠ [] := by
    rw [ne_eq, cheapest_eq_nil_iff]
    push Not
    rfl
  simp only [select_verdict, hsome, ← cheapest_eq_singleton_iff]
  rcases cheapest arguments candidates with _ | ⟨e, _ | ⟨e', rest⟩⟩ <;> simp

theorem select_perm (h : candidates.Perm others) :
    (select name others arguments location).verdict env s =
      (select name candidates arguments location).verdict env s := by
  have hperm : (cheapest arguments candidates).Perm (cheapest arguments others) := cheapest_perm h
  rw [select_verdict, select_verdict]
  rcases hc : cheapest arguments candidates with _ | ⟨e, _ | ⟨e', rest⟩⟩
  · rw [hc, List.nil_perm] at hperm
    rw [hperm]
  · rw [hc, List.singleton_perm] at hperm
    rw [← hperm]
  · have hlength := hperm.length_eq
    rcases ho : cheapest arguments others with _ | ⟨a, _ | ⟨a', rest'⟩⟩
    · simp [hc, ho] at hlength
    · simp [hc, ho] at hlength
    · rfl

theorem accepts_of_eq (h : Overloaded.parameters d = arguments) : Accepts arguments d := by
  rw [Accepts, h, List.forall₂_same]
  exact fun a _ => by simp [SqlType.conversionCost_self]

theorem cost_eq_zero_iff (hacc : Accepts arguments d) :
    cost arguments d = 0 ↔ Overloaded.parameters d = arguments := by
  unfold cost
  unfold Accepts at hacc
  generalize Overloaded.parameters d = parameters at *
  induction hacc with
  | nil => simp
  | @cons a p as ps hap _ ih =>
    obtain ⟨c, hc⟩ := Option.isSome_iff_exists.1 hap
    rw [List.zipWith_cons_cons, List.sum_cons, Nat.add_eq_zero_iff, ih, hc, Option.getD_some, List.cons.injEq]
    refine and_congr_left fun _ => ?_
    rw [eq_comm (a := p), ← SqlType.conversionCost_eq_zero_iff, hc, Option.some.injEq]

theorem wins_of_exact {before after : List D} (h : Overloaded.parameters d = arguments)
    (hother : ∀ e ∈ before ++ after, Overloaded.parameters e ≠ arguments) :
    Wins arguments (before ++ d :: after) d := by
  have hacc := accepts_of_eq h
  refine ⟨before, after, rfl, hacc, fun e he hacc' => ?_⟩
  rw [(cost_eq_zero_iff hacc).2 h, Nat.pos_iff_ne_zero, ne_eq, cost_eq_zero_iff hacc']
  exact hother e he

/-- Selection picks the only cheapest candidate, whatever the order of the candidates and whatever else does not
accept the arguments. -/
theorem select_cheapest (name : String) (candidates : List D) (arguments : List SqlType) (location : Option Span)
    (env : Environment) (s : σ) :
    (∀ d, (select name candidates arguments location).verdict env s = .ok d ↔ Wins arguments candidates d) ∧
    ((select name candidates arguments location).verdict env s = .error .functionNotFound ↔
      ∀ d ∈ candidates, ¬Accepts arguments d) ∧
    ((select name candidates arguments location).verdict env s = .error .functionAmbiguous ↔
      (∃ d ∈ candidates, Accepts arguments d) ∧ ∀ d, ¬Wins arguments candidates d) ∧
    (∀ others, candidates.Perm others →
      (select name others arguments location).verdict env s =
        (select name candidates arguments location).verdict env s) ∧
    (∀ before d after, candidates = before ++ d :: after → Overloaded.parameters d = arguments →
      (∀ e ∈ before ++ after, Overloaded.parameters e ≠ arguments) →
      (select name candidates arguments location).verdict env s = .ok d) ∧
    (∀ others : List D, others.filter (Accepts arguments ·) = candidates.filter (Accepts arguments ·) →
      (select name others arguments location : Step σ D) = select name candidates arguments location) := by
  refine ⟨fun d => select_ok_iff, select_notFound_iff, select_ambiguous_iff, fun _ => select_perm, ?_,
    fun _ => select_congr⟩
  rintro before d after rfl hexact hother
  exact select_ok_iff.2 (wins_of_exact hexact hother)

end Overload

namespace Sample

def absolute (id : Nat) (parameters : List SqlType) : FunctionDecl where
  id
  name := "abs"
  parameters
  result := parameters.headD .unknown

def absolutes : List FunctionDecl :=
  [absolute 1 [.int4], absolute 2 [.int8, .int8], absolute 3 [.int8], absolute 4 [.double]]

end Sample

/-- The exact overload is taken for `bigint` in any order, the nearest one for `smallint` also without the one that
has too many parameters, and a string is refused. -/
theorem Overload.select_cheapest_absolutes :
    (∀ others, Sample.absolutes.Perm others →
      (select "abs" others [.int8] none).verdict default () = .ok (Sample.absolute 3 [.int8])) ∧
    (select "abs" (Sample.absolutes.eraseIdx 1) [.int2] none).verdict default () =
      .ok (Sample.absolute 1 [.int4]) ∧
    (select "abs" Sample.absolutes [.flexibleVarchar] none).verdict default () = .error .functionNotFound := by
  obtain ⟨-, -, -, hperm, hexact, -⟩ := select_cheapest "abs" Sample.absolutes [.int8] none default ()
  obtain ⟨hwins, -, -, -, -, hfilter⟩ := select_cheapest "abs" Sample.absolutes [.int2] none default ()
  refine ⟨fun others hothers => ?_, ?_, ?_⟩
  · rw [hperm others hothers]
    exact hexact [_, _] _ [_] rfl rfl (by decide)
  · rw [hfilter (Sample.absolutes.eraseIdx 1) (by decide), hwins]
    exact ⟨[], _, rfl, by decide, by decide⟩
  · exact (select_cheapest "abs" Sample.absolutes [.flexibleVarchar] none default ()).2.1.2 (by decide)

end SqlPlan
