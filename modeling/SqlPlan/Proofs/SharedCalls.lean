import SqlPlan.Proofs.AggregationRewriting

namespace SqlPlan

open List (Forall₂)

namespace Scalar

theorem exists_type_of_value? {s : Scalar} {v : Value} (h : s.value? = some v) : ∃ τ, s = .immediate v τ := by
  cases s with
  | immediate w τ =>
    obtain rfl := Option.some.inj h
    exact ⟨τ, rfl⟩
  | _ => cases h

/-- The constants at the same positions of two expressions are related. -/
def ConstantsAgree (R : Value → Value → Prop) (s t : Scalar) : Prop :=
  ∀ p v τ w υ, s.at? p = some (.immediate v τ) → t.at? p = some (.immediate w υ) → R v w

namespace Agree

variable {R S : Value → Value → Prop} {s t : Scalar}

theorem constantsAgree (h : Agree R s t) : ConstantsAgree R s t := by
  intro p v τ w υ hs ht
  induction p generalizing s t with
  | nil =>
    obtain rfl := Option.some.inj hs
    obtain rfl := Option.some.inj ht
    cases (agree_iff.mp h).1.2 with
    | some h => exact h
  | cons i p ih =>
    obtain ⟨c, hc, hs⟩ := Option.bind_eq_some_iff.mp hs
    obtain ⟨d, hd, ht⟩ := Option.bind_eq_some_iff.mp ht
    have hmem : (c, d) ∈ s.children.zip t.children :=
      List.mem_of_getElem? (List.getElem?_zip_eq_some.mpr ⟨hc, hd⟩)
    exact ih (List.forall₂_zip (agree_iff.mp h).2 hmem) hs ht

theorem of_constantsAgree (h : Agree R s t) (hS : ConstantsAgree S s t) : Agree S s t := by
  induction h with
  | @node s t hhead hlength _ ih =>
    refine .node ⟨hhead.1, ?_⟩ hlength fun pair hpair => ih pair hpair fun p v τ w υ hc hd => ?_
    · obtain ⟨-, hvalue⟩ := hhead
      rcases hs : s.value? with _ | v
      · rw [hs] at hvalue
        generalize t.value? = b at hvalue ⊢
        cases hvalue
        exact .none
      · rcases ht : t.value? with _ | w
        · rw [hs, ht] at hvalue
          cases hvalue
        · obtain ⟨τ, rfl⟩ := exists_type_of_value? hs
          obtain ⟨υ, rfl⟩ := exists_type_of_value? ht
          exact .some (hS [] v τ w υ rfl rfl)
    · obtain ⟨i, hi⟩ := List.mem_iff_getElem?.mp hpair
      obtain ⟨hci, hdi⟩ := List.getElem?_zip_eq_some.mp hi
      exact hS (i :: p) v τ w υ (by simp [at?, hci, hc]) (by simp [at?, hdi, hd])

end Agree

end Scalar

section Registering

open Scalar

/-- The call at a position of an expression is a column in another one. -/
structure Scalar.Replaced (s s' : Scalar) (p : List Nat) (f : AggregateDecl) (ss : List Scalar)
    (v : Variable) : Prop where
  call : s.at? p = some (.aggregate f ss)
  column : s'.at? p = some (.var v)

/-- The entry stands for the call, with the variable as its column. -/
structure AggregateEntry.Holds (e : AggregateEntry) (f : AggregateDecl) (ss : List Scalar) (v : Variable) :
    Prop where
  destination : e.destination = v
  function : e.function = f
  arguments : e.arguments = ss ∨ sameList e.arguments ss = true

theorem Regrouping.call_cases (location : Option Span) (f : AggregateDecl) (ss : List Scalar) (r : Regrouping) :
    (r.call location f ss).1 = .aggregate f ss ∨
      r.call location f ss = (.var (r.register f ss).1, (r.register f ss).2) := by
  unfold call
  split
  · exact .inl rfl
  · split
    · exact .inl rfl
    · exact .inr rfl

theorem Scalar.exists_entry_of_regroup (location : Option Span) (s : Scalar) (r : Regrouping) :
    ∀ p f ss v, Replaced s (s.regroup location r).1 p f ss v →
      ∃ e ∈ (s.regroup location r).2.aggregation.entries, e.Holds f ss v := by
  refine regroup_induction location
    (P := fun s r => ∀ p f ss v, Replaced s (s.regroup location r).1 p f ss v →
      ∃ e ∈ (s.regroup location r).2.aggregation.entries, e.Holds f ss v)
    (L := fun cs r => ∀ (i : Nat) (c c' : Scalar) p f ss v, cs[i]? = some c →
      (regroupList location cs r).1[i]? = some c' → Replaced c c' p f ss v →
      ∃ e ∈ (regroupList location cs r).2.aggregation.entries, e.Holds f ss v) ?_ ?_ ?_ ?_ ?_ s r
  · intro w r p f ss v h
    have hcall := h.call
    cases p <;> simp [at?, children] at hcall
  · intro g ts r p f ss v h
    rw [regroup] at h ⊢
    rcases r.call_cases location g ts with hsame | hnew
    · rw [hsame] at h
      simpa [h.call] using h.column
    · rw [hnew] at h ⊢
      have hcolumn := h.column
      cases p with
      | nil =>
        obtain ⟨rfl, rfl⟩ := Scalar.aggregate.inj (Option.some.inj h.call)
        obtain ⟨e, he, hdestination, hfunction, harguments⟩ := r.exists_entry_of_register g ts
        obtain rfl := Scalar.var.inj (Option.some.inj hcolumn)
        exact ⟨e, he, hdestination, hfunction, harguments⟩
      | cons i p => simp [at?, children] at hcolumn
  · intro s r hvar hcall hchildren p f ss v h
    rw [regroup_node location hvar hcall] at h ⊢
    obtain ⟨hs, hs'⟩ := h
    cases p with
    | nil => exact absurd ⟨f, ss, hs⟩ hcall
    | cons i p =>
      obtain ⟨hspec, -⟩ := withChildren_spec (length_regroupList location s.children r)
      obtain ⟨c, hc, hs⟩ := Option.bind_eq_some_iff.mp hs
      obtain ⟨c', hc', hs'⟩ := Option.bind_eq_some_iff.mp hs'
      rw [hspec] at hc'
      exact hchildren i c c' p f ss v hc hc' ⟨hs, hs'⟩
  · intro r i c c' p f ss v hc
    simp at hc
  · intro s cs r hs hcs i c c' p f ss v hc hc' h
    cases i with
    | zero =>
      obtain rfl := Option.some.inj hc
      obtain rfl := Option.some.inj hc'
      obtain ⟨e, he, hholds⟩ := hs p f ss v h
      have hgrows := (regroupList_advances location cs (s.regroup location r).2).grows
      exact ⟨e, hgrows.mem_entries he, hholds⟩
    | succ i => exact hcs i c c' p f ss v hc hc' h

end Registering

namespace Aggregation

open Scalar

/-- A grouping in use, with the expressions regrouped so far, as they were and as they have become. An
expression that cannot be regrouped is left as far as it was. Variables may be minted in between. -/
inductive Run (locals : List Variable) : List (Scalar × Scalar) → Aggregation → Nat → Prop where
  | new (n : Nat) : Run locals [] { locals } n
  | mint {done a n} (m : Nat) : Run locals done a n → n ≤ m → Run locals done a m
  | addKey {done a n} (key : Variable) : Run locals done a n → Run locals done (a.addKey key) n
  | activate {done a n} : Run locals done a n → Run locals done a.activate n
  | process {done a n} (location : Option Span) (s : Scalar) : Run locals done a n →
      Run locals ((s, (a.process n location s).1) :: done) (a.process n location s).2.aggregation
        (a.process n location s).2.minted

namespace Run

variable {locals : List Variable} {done : List (Scalar × Scalar)} {a : Aggregation} {n : Nat}

theorem wellFormed (h : Run locals done a n) : a.WellFormed n := by
  induction h with
  | new n => exact ⟨.nil, .nil 0 n⟩
  | mint m _ hm ih => exact ⟨ih.different, ih.columns.mono (Nat.le_refl 0) hm⟩
  | addKey key _ ih | activate _ ih => exact ⟨ih.different, ih.columns⟩
  | process location s _ ih => exact (s.regroup_advances location _).wellFormed ih

theorem exists_entry (h : Run locals done a n) : ∀ pair ∈ done, ∀ p f ss v,
    Replaced pair.1 pair.2 p f ss v → ∃ e ∈ a.entries, e.Holds f ss v := by
  induction h with
  | new n => simp
  | mint m _ _ ih | addKey key _ ih | activate _ ih => exact ih
  | @process done a n location s _ ih =>
    refine List.forall_mem_cons.mpr ⟨s.exists_entry_of_regroup location ⟨a, n, none⟩, ?_⟩
    intro pair hpair p f ss v hreplaced
    obtain ⟨e, he, hholds⟩ := ih pair hpair p f ss v hreplaced
    exact ⟨e, (s.regroup_advances location ⟨a, n, none⟩).grows.mem_entries he, hholds⟩

end Run

theorem sameArguments {as ss ts : List Scalar} (hss : as = ss ∨ sameList as ss = true)
    (hts : as = ts ∨ sameList as ts = true) : ss = ts ∨ sameList ss ts = true := by
  rcases hss with rfl | hss
  · exact hts
  · rcases hts with rfl | hts
    · exact .inr (sameList_symm hss)
    · exact .inr (sameList_trans (sameList_symm hss) hts)

theorem sameArguments_of_same {as bs ss ts : List Scalar} (hss : as = ss ∨ sameList as ss = true)
    (hts : bs = ts ∨ sameList bs ts = true) (h : sameList ss ts = true) : sameList as bs = true := by
  have has : sameList as ts = true := by
    rcases hss with rfl | hss
    · exact h
    · exact sameList_trans hss h
  rcases hts with rfl | hts
  · exact has
  · exact sameList_trans has (sameList_symm hts)

theorem WellFormed.eq_of_sameCall {a : Aggregation} {n : Nat} (h : a.WellFormed n) {e e' : AggregateEntry}
    (he : e ∈ a.entries) (he' : e' ∈ a.entries) (hfunction : e.function = e'.function)
    (harguments : sameList e.arguments e'.arguments = true) : e = e' := by
  obtain ⟨i, hi⟩ := List.mem_iff_getElem?.mp he
  obtain ⟨j, hj⟩ := List.mem_iff_getElem?.mp he'
  have hsymm : ∀ e e' : AggregateEntry, ¬(e.function = e'.function ∧ sameList e.arguments e'.arguments = true) →
      ¬(e'.function = e.function ∧ sameList e'.arguments e.arguments = true) := by
    rintro e e' hne ⟨hf, hargs⟩
    exact hne ⟨hf.symm, sameList_symm hargs⟩
  obtain rfl := eq_of_pairwise hsymm h.different hi hj fun hne => hne ⟨hfunction, harguments⟩
  exact Option.some.inj (hi.symm.trans hj)

theorem forall₂_agree {ss ts : List Scalar} (h : ss = ts ∨ sameList ss ts = true) :
    Forall₂ (Agree fun x y => x = y ∨ x.Interchangeable y) ss ts := by
  rcases h with rfl | h
  · exact List.forall₂_same.mpr fun s _ => .refl (fun _ => .inl rfl) s
  · refine (sameList_iff.mp h).imp fun s t hst => (same_iff_agree.mp hst).mono fun x y hxy => ?_
    exact (Value.same_iff.mp hxy).imp_left And.right

/-- Replaced calls share a column if they call one function on the same arguments, and only then. The
arguments of calls that share a column agree in all nodes, up to interchangeable constants, so that these
calls are identical if and only if their constants are. -/
theorem Run.shared_calls {locals : List Variable} {done : List (Scalar × Scalar)} {a : Aggregation} {n : Nat}
    (h : Run locals done a n) {s s' t t' : Scalar} (hs : (s, s') ∈ done) (ht : (t, t') ∈ done)
    {p q : List Nat} {f g : AggregateDecl} {ss ts : List Scalar} {v w : Variable}
    (hv : Replaced s s' p f ss v) (hw : Replaced t t' q g ts w) :
    (v.same w = true → f = g ∧ Forall₂ (Agree fun x y => x = y ∨ x.Interchangeable y) ss ts ∧
      (Forall₂ (Agree Eq) ss ts ↔ Forall₂ (ConstantsAgree Eq) ss ts)) ∧
    (f = g → Forall₂ Same ss ts → v.same w = true) := by
  obtain ⟨e, he, rfl, rfl, hss⟩ := h.exists_entry _ hs p f ss v hv
  obtain ⟨e', he', rfl, rfl, hts⟩ := h.exists_entry _ ht q g ts w hw
  constructor
  · intro hsame
    obtain rfl := AggregateEntry.eq_of_same h.wellFormed.columns he he' hsame
    have hagree := forall₂_agree (sameArguments hss hts)
    refine ⟨rfl, hagree, fun hidentical => hidentical.imp fun _ _ => Agree.constantsAgree, fun hconstants => ?_⟩
    exact List.Forall₂.mp (fun _ _ => Agree.of_constantsAgree) hagree hconstants
  · intro hfunction harguments
    obtain rfl := h.wellFormed.eq_of_sameCall he he' hfunction
      (sameArguments_of_same hss hts (sameList_iff.mpr harguments))
    exact Variable.same_self _

end Aggregation

namespace Sample

def decimal (digits scale : Int) : Scalar := .immediate (.decimal ⟨digits, scale⟩) (.decimal none none)

/-- `0e0` and `-0e0` -/
def zero (negative : Bool) : Scalar :=
  .immediate (.double (if negative then 0x8000000000000000 else 0)) .double

/-- The grouping of a block without columns, after it has regrouped an expression and then another. -/
theorem run_both (s t : Scalar) : ∃ s' t' a n, Aggregation.Run [] [(t, t'), (s, s')] a n ∧
    s' = (Aggregation.process { locals := [] } 0 none s).1 ∧
    t' = ((Aggregation.process { locals := [] } 0 none s).2.aggregation.process
      (Aggregation.process { locals := [] } 0 none s).2.minted none t).1 :=
  ⟨_, _, _, _, .process none t (.process none s (.new 0)), rfl, rfl⟩

theorem at?_of_asVariable? {s : Scalar} {p : List Nat} {v : Variable}
    (h : (s.at? p).bind Scalar.asVariable? = some v) : s.at? p = some (.var v) := by
  obtain ⟨u, hu, hv⟩ := Option.bind_eq_some_iff.mp h
  rw [hu, Scalar.eq_var_of_asVariable? hv]

end Sample

/-- `max(1.0)` and `+max(1.00)` -/
theorem Aggregation.Run.shared_calls_decimals : ∃ done a n s' t' f v w,
    Aggregation.Run [] done a n ∧ (Sample.aggregateOf "max" (Sample.decimal 10 1), s') ∈ done ∧
      (.unary .plus (Sample.aggregateOf "max" (Sample.decimal 100 2)), t') ∈ done ∧
      Scalar.Replaced (Sample.aggregateOf "max" (Sample.decimal 10 1)) s' [] f [Sample.decimal 10 1] v ∧
      Scalar.Replaced (.unary .plus (Sample.aggregateOf "max" (Sample.decimal 100 2))) t' [0] f
        [Sample.decimal 100 2] w ∧ v.same w = true := by
  obtain ⟨s', t', a, n, h, hs', ht'⟩ := Sample.run_both (Sample.aggregateOf "max" (Sample.decimal 10 1))
    (.unary .plus (Sample.aggregateOf "max" (Sample.decimal 100 2)))
  have hv : Scalar.Replaced (Sample.aggregateOf "max" (Sample.decimal 10 1)) s' [] _ [Sample.decimal 10 1]
      ⟨1, .stream (some "max")⟩ := ⟨rfl, Sample.at?_of_asVariable? (by rw [hs']; decide +kernel)⟩
  have hw : Scalar.Replaced (.unary .plus (Sample.aggregateOf "max" (Sample.decimal 100 2))) t' [0] _
      [Sample.decimal 100 2] ⟨1, .stream (some "max")⟩ :=
    ⟨rfl, Sample.at?_of_asVariable? (by rw [ht']; decide +kernel)⟩
  have hsame := (h.shared_calls (by simp) (by simp) hv hw).2 rfl (.cons (by decide +kernel) .nil)
  exact ⟨_, a, n, s', t', _, _, _, h, by simp, by simp, hv, hw, hsame⟩

/-- `max(0e0)` and `max(-0e0)` become one column, although the zeros differ. -/
theorem Aggregation.Run.shared_calls_zeros : ∃ done a n s' t' f v,
    Aggregation.Run [] done a n ∧ (Sample.aggregateOf "max" (Sample.zero false), s') ∈ done ∧
      (Sample.aggregateOf "max" (Sample.zero true), t') ∈ done ∧
      Scalar.Replaced (Sample.aggregateOf "max" (Sample.zero false)) s' [] f [Sample.zero false] v ∧
      Scalar.Replaced (Sample.aggregateOf "max" (Sample.zero true)) t' [] f [Sample.zero true] v ∧
      ¬Forall₂ (Scalar.Agree Eq) [Sample.zero false] [Sample.zero true] := by
  obtain ⟨s', t', a, n, h, hs', ht'⟩ := Sample.run_both (Sample.aggregateOf "max" (Sample.zero false))
    (Sample.aggregateOf "max" (Sample.zero true))
  have hv : Scalar.Replaced (Sample.aggregateOf "max" (Sample.zero false)) s' [] _ [Sample.zero false]
      ⟨1, .stream (some "max")⟩ := ⟨rfl, Sample.at?_of_asVariable? (by rw [hs']; decide +kernel)⟩
  have hw : Scalar.Replaced (Sample.aggregateOf "max" (Sample.zero true)) t' [] _ [Sample.zero true]
      ⟨1, .stream (some "max")⟩ := ⟨rfl, Sample.at?_of_asVariable? (by rw [ht']; decide +kernel)⟩
  refine ⟨_, a, n, s', t', _, _, h, by simp, by simp, hv, hw, fun hall => ?_⟩
  cases hall with
  | cons hzero _ =>
    have hbits := hzero.constantsAgree [] _ _ _ _ rfl rfl
    exact absurd hbits (by decide)

end SqlPlan
