import SqlPlan.Proofs.AggregationRewriting
import SqlPlan.Proofs.SingleAssignment

namespace SqlPlan

variable {s : Scalar} {xs : List Typed} {r r' : Regrouping} {ss : List Scalar}

open List (Forall₂)

variable {Q : Type} {env : Environment} {scopes : Scopes} {p : Position}

namespace Scalar

def isConstant (s : Scalar) : Bool := s.asVariable?.any Variable.isConstant

end Scalar

theorem Expr.someCall_mono {test test' : List (Expr Q) → Bool} (h : ∀ es, test es = true → test' es = true)
    (e : Expr Q) (he : e.someCall env test = true) : e.someCall env test' = true := by
  obtain ⟨x, hx, hon⟩ := List.any_eq_true.mp he
  refine List.any_eq_true.mpr ⟨x, hx, ?_⟩
  cases x with
  | call name quantifier arguments =>
    rw [isCallOn, Bool.and_eq_true] at hon ⊢
    exact ⟨hon.1, h _ hon.2⟩
  | _ => cases hon

/-- A test that does not tell identical calls apart. -/
def Scalar.Respects (test : List Scalar → Bool) : Prop :=
  ∀ ss ts, sameList ss ts = true → test ss = test ts

def Aggregation.someEntry (test : List Scalar → Bool) (a : Aggregation) : Bool :=
  a.entries.any fun e => test e.arguments

variable {test : List Scalar → Bool}

theorem Regrouping.someEntry_register (htest : Scalar.Respects test) {f : AggregateDecl} {v : Variable}
    (h : r.register f ss = (v, r')) : r'.aggregation.someEntry test = (r.aggregation.someEntry test || test ss) := by
  unfold register at h
  split at h
  · next e he =>
    cases h
    have hsame := List.find?_some he
    simp only [Bool.and_eq_true] at hsame
    have hentry : test ss = true → r.aggregation.someEntry test = true := by
      intro hss
      rw [← htest _ _ hsame.2] at hss
      exact List.any_eq_true.mpr ⟨e, List.mem_of_find?_eq_some he, hss⟩
    cases hss : test ss with
    | false => rw [Bool.or_false]
    | true => rw [hentry hss, Bool.or_true]
  · cases h
    simp [Aggregation.someEntry]

theorem Regroups.someEntry_eq (htest : Scalar.Respects test) {ss' : List Scalar} (h : Regroups ss r ss' r') :
    r'.aggregation.someEntry test = (r.aggregation.someEntry test || ss.any (Scalar.someCall test)) := by
  induction h with
  | conditional _ _ ih ih' =>
    rw [ih', ih]
    simp [Scalar.someCall_node, Scalar.children_conditional, Bool.or_assoc]
  | letIn _ _ _ ih ih' =>
    rw [ih', ih]
    simp [Scalar.someCall_node, Scalar.children, Bool.or_assoc]
  | @aggregate f ss r v r' hflat hregister =>
    rw [Scalar.listHasAggregate_eq, List.any_eq_false] at hflat
    have hnone : ss.any (Scalar.someCall test) = false :=
      List.any_eq_false.mpr fun s hs => by simp [Scalar.someCall_of_not_hasAggregate (by simpa using hflat s hs)]
    rw [Regrouping.someEntry_register htest hregister, List.any_cons, List.any_nil, Scalar.someCall_aggregate, hnone,
      Bool.or_false, Bool.or_false]
  | cons _ _ ih ih' =>
    rw [ih', ih]
    simp [Bool.or_assoc]
  | _ => simp_all [Scalar.someCall_node, Scalar.children]

end SqlPlan
