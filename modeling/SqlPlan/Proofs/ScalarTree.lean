import SqlPlan.Proofs.Regrouping
import SqlPlan.Proofs.Sameness

namespace SqlPlan

variable {cs ss ts : List Scalar} {c b : Scalar} {ps qs : List (Scalar × Scalar)} {ds es : List (Variable × Scalar)}
  {o p : Option Scalar}

open List (Forall₂)

theorem forall₂_trans {α β γ : Type} {R : α → β → Prop} {S : β → γ → Prop} {T : α → γ → Prop} {as : List α}
    {bs : List β} {cs : List γ} (h : Forall₂ R as bs) (h' : Forall₂ S bs cs)
    (hT : ∀ a b c, R a b → S b c → T a c) : Forall₂ T as cs := by
  induction h generalizing cs with
  | nil =>
    cases h'
    exact .nil
  | cons hst _ ih =>
    cases h' with
    | cons htu h' => exact .cons (hT _ _ _ hst htu) (ih h')

namespace Scalar

theorem children_conditional (ps : List (Scalar × Scalar)) (o : Option Scalar) :
    (conditional ps o).children = flatPairs ps ++ o.toList := rfl

theorem sizeOf_lt_of_mem_flatPairs (h : c ∈ flatPairs ps) : sizeOf c < sizeOf ps := by
  obtain ⟨p, hp, hc⟩ := List.mem_flatMap.mp h
  have hlt := List.sizeOf_lt_of_mem hp
  obtain ⟨a, b⟩ := p
  rcases List.mem_pair.mp hc with rfl | rfl <;> simp at hlt <;> omega

theorem sizeOf_lt_of_mem_declarators (h : c ∈ ds.map (·.2)) : sizeOf c < sizeOf ds := by
  obtain ⟨d, hd, rfl⟩ := List.mem_map.mp h
  have hlt := List.sizeOf_lt_of_mem hd
  obtain ⟨v, s⟩ := d
  simp at hlt ⊢
  omega

theorem sizeOf_lt_of_mem_children {s : Scalar} (h : c ∈ s.children) : sizeOf c < sizeOf s := by
  cases s with
  | immediate _ _ => cases h
  | var _ => cases h
  | unary _ s | cast _ _ s =>
    obtain rfl := List.mem_singleton.mp h
    simp
  | binary _ l r | compare _ l r =>
    rcases List.mem_pair.mp h with rfl | rfl <;> simp [Nat.lt_add_right]
  | pattern _ i p e =>
    simp only [children, List.mem_cons, List.not_mem_nil, or_false] at h
    rcases h with rfl | rfl | rfl <;> simp <;> omega
  | conditional ps o =>
    rw [children_conditional, List.mem_append] at h
    rcases h with h | h
    · have := sizeOf_lt_of_mem_flatPairs h
      simp
      omega
    · obtain rfl := Option.mem_toList.mp h
      simp
      omega
  | letIn ds b =>
    rcases List.mem_append.mp h with h | h
    · have := sizeOf_lt_of_mem_declarators h
      simp
      omega
    · obtain rfl := List.mem_singleton.mp h
      simp
  | call _ ss | aggregate _ ss =>
    have := List.sizeOf_lt_of_mem (show c ∈ ss from h)
    simp
    omega

/-- Induction on the direct subexpressions. -/
@[elab_as_elim]
theorem childInduction {P : Scalar → Prop} (node : ∀ s, (∀ c ∈ s.children, P c) → P s) (s : Scalar) :
    P s :=
  node s fun c _ => childInduction node c
termination_by sizeOf s
decreasing_by exact sizeOf_lt_of_mem_children ‹_›

section Sameness

/-- The topmost node of an expression, apart from the value of a constant. -/
inductive Head where
  | immediate (type : SqlType)
  | var (identity : Variable.Identity)
  | unary (op : UnaryOperator)
  | binary (op : BinaryOperator)
  | compare (op : ComparisonOp)
  | pattern (op : PatternOp)
  | conditional (alternatives : Nat) (hasDefault : Bool)
  | letIn (declared : List Variable.Identity)
  | cast (policy : LossPolicy) (target : SqlType)
  | call (function : FunctionDecl)
  | aggregate (function : AggregateDecl)

def head : Scalar → Head
  | immediate _ t => .immediate t
  | var v => .var v.identity
  | unary op _ => .unary op
  | binary op _ _ => .binary op
  | compare op _ _ => .compare op
  | pattern op _ _ _ => .pattern op
  | conditional ps o => .conditional ps.length o.isSome
  | letIn ds _ => .letIn (ds.map (·.1.identity))
  | cast policy target _ => .cast policy target
  | call f _ => .call f
  | aggregate f _ => .aggregate f

theorem ne_var_of_head_eq {s t : Scalar} (h : s.head = t.head) (ht : ∀ v, t ≠ .var v) : ∀ v, s ≠ .var v := by
  rintro v rfl
  cases t with
  | var w => exact ht w rfl
  | _ => cases h

def value? : Scalar → Option Value
  | immediate v _ => some v
  | _ => none

abbrev Same (s t : Scalar) : Prop := s.same t = true

theorem sameList_iff : sameList ss ts = true ↔ Forall₂ Same ss ts := by
  induction ss generalizing ts with
  | nil => cases ts <;> simp [sameList]
  | cons s ss ih => cases ts <;> simp [sameList, ih]

theorem samePairs_iff : samePairs ps qs = true ↔ Forall₂ Same (flatPairs ps) (flatPairs qs) := by
  induction ps generalizing qs with
  | nil => cases qs <;> simp [samePairs, flatPairs]
  | cons p ps ih =>
    obtain ⟨a, b⟩ := p
    cases qs with
    | nil => simp [samePairs, flatPairs]
    | cons q qs =>
      obtain ⟨a', b'⟩ := q
      simp only [flatPairs] at ih
      simp [samePairs, flatPairs, ih, and_assoc]

theorem sameOption_iff : sameOption o p = true ↔ Forall₂ Same o.toList p.toList := by
  cases o <;> cases p <;> simp [sameOption]

theorem sameDeclarators_iff : sameDeclarators ds es = true ↔
    ds.map (·.1.identity) = es.map (·.1.identity) ∧ Forall₂ Same (ds.map (·.2)) (es.map (·.2)) := by
  induction ds generalizing es with
  | nil => cases es <;> simp [sameDeclarators]
  | cons d ds ih =>
    obtain ⟨v, s⟩ := d
    cases es with
    | nil => simp [sameDeclarators]
    | cons e es =>
      obtain ⟨w, t⟩ := e
      simp only [sameDeclarators, Bool.and_eq_true, ih, List.map_cons, List.forall₂_cons, List.cons.injEq,
        Variable.same_iff]
      tauto

theorem forall₂_append_iff {R : Scalar → Scalar → Prop} {ss' ts' : List Scalar} (h : ss.length = ts.length) :
    Forall₂ R (ss ++ ss') (ts ++ ts') ↔ Forall₂ R ss ts ∧ Forall₂ R ss' ts' := by
  constructor
  · intro hall
    have hfront := List.forall₂_take_append _ _ _ hall
    have hback := List.forall₂_drop_append _ _ _ hall
    rw [← h, List.take_left] at hfront
    rw [← h, List.drop_left] at hback
    exact ⟨hfront, hback⟩
  · rintro ⟨hfront, hback⟩
    exact List.rel_append hfront hback

theorem length_flatPairs (ps : List (Scalar × Scalar)) : (flatPairs ps).length = 2 * ps.length := by
  induction ps with
  | nil => rfl
  | cons p ps ih =>
    simp only [flatPairs] at ih
    simp [flatPairs, ih]
    omega

theorem samePairs_and_sameOption_iff :
    samePairs ps qs = true ∧ sameOption o p = true ↔ ps.length = qs.length ∧ o.isSome = p.isSome ∧
      Forall₂ Same (flatPairs ps ++ o.toList) (flatPairs qs ++ p.toList) := by
  have hlength : (flatPairs ps).length = (flatPairs qs).length ↔ ps.length = qs.length := by
    simp only [length_flatPairs]
    omega
  rw [samePairs_iff, sameOption_iff]
  constructor
  · rintro ⟨hps, ho⟩
    refine ⟨hlength.mp hps.length_eq, ?_, List.rel_append hps ho⟩
    cases o <;> cases p <;> simp at ho ⊢
  · rintro ⟨hps, -, h⟩
    exact (forall₂_append_iff (hlength.mpr hps)).mp h

theorem sameDeclarators_and_same_iff :
    sameDeclarators ds es = true ∧ b.same c = true ↔ ds.map (·.1.identity) = es.map (·.1.identity) ∧
      Forall₂ Same (ds.map (·.2) ++ [b]) (es.map (·.2) ++ [c]) := by
  rw [sameDeclarators_iff, and_assoc]
  refine and_congr_right fun h => ?_
  have hlength := congrArg List.length h
  rw [forall₂_append_iff (by simpa using hlength)]
  simp

/-- The topmost nodes agree, where `R` says which constants do. -/
def HeadsAgree (R : Value → Value → Prop) (s t : Scalar) : Prop :=
  s.head = t.head ∧ Option.Rel R s.value? t.value?

/-- Expressions are the same if their topmost nodes agree and their subexpressions are the same. -/
theorem same_iff {s t : Scalar} : s.same t = true ↔
    HeadsAgree (fun v w => v.same w = true) s t ∧ Forall₂ Same s.children t.children := by
  cases s <;> cases t <;>
    simp only [same, HeadsAgree, head, value?, children, Bool.and_eq_true, decide_eq_true_eq, false_and,
      Bool.false_eq_true, List.forall₂_nil_left_iff, List.forall₂_cons, and_true, and_assoc,
      AggregateDecl.sameObject, FunctionDecl.sameObject, sameList_iff, reduceCtorEq, Head.immediate.injEq,
      Head.var.injEq, Head.unary.injEq, Head.binary.injEq, Head.compare.injEq, Head.pattern.injEq,
      Head.conditional.injEq, Head.letIn.injEq, Head.cast.injEq, Head.call.injEq, Head.aggregate.injEq,
      Option.rel_some_some, Option.rel_none_none, Variable.same_iff]
  · exact and_comm
  · exact samePairs_and_sameOption_iff
  · exact sameDeclarators_and_same_iff

namespace HeadsAgree

variable {R S T : Value → Value → Prop} {s t u : Scalar}

theorem of_eq (hR : ∀ v, R v v) (hhead : s.head = t.head) (hvalue : s.value? = t.value?) :
    HeadsAgree R s t := by
  refine ⟨hhead, ?_⟩
  rw [hvalue]
  cases t.value? with
  | none => exact .none
  | some v => exact .some (hR v)

theorem mono (hRS : ∀ v w, R v w → S v w) (h : HeadsAgree R s t) : HeadsAgree S s t := by
  obtain ⟨hhead, hvalue⟩ := h
  refine ⟨hhead, ?_⟩
  generalize s.value? = a at hvalue ⊢
  generalize t.value? = b at hvalue ⊢
  cases hvalue with
  | none => exact .none
  | some h => exact .some (hRS _ _ h)

theorem symm (hS : ∀ v w, R v w → S w v) (h : HeadsAgree R s t) : HeadsAgree S t s := by
  obtain ⟨hhead, hvalue⟩ := h
  refine ⟨hhead.symm, ?_⟩
  generalize s.value? = a at hvalue ⊢
  generalize t.value? = b at hvalue ⊢
  cases hvalue with
  | none => exact .none
  | some h => exact .some (hS _ _ h)

theorem trans (hT : ∀ v w x, R v w → S w x → T v x) (h : HeadsAgree R s t) (h' : HeadsAgree S t u) :
    HeadsAgree T s u := by
  obtain ⟨hhead, hvalue⟩ := h
  obtain ⟨hhead', hvalue'⟩ := h'
  refine ⟨hhead.trans hhead', ?_⟩
  generalize s.value? = a at hvalue ⊢
  generalize t.value? = b at hvalue hvalue'
  generalize u.value? = c at hvalue' ⊢
  cases hvalue with
  | none =>
    cases hvalue'
    exact .none
  | some h =>
    cases hvalue' with
    | some h' => exact .some (hT _ _ _ h h')

end HeadsAgree

/-- Expressions of the same form: they agree in all nodes, where `R` says which constants do. -/
inductive Agree (R : Value → Value → Prop) : Scalar → Scalar → Prop where
  | node {s t : Scalar} : HeadsAgree R s t → s.children.length = t.children.length →
      (∀ p ∈ s.children.zip t.children, Agree R p.1 p.2) → Agree R s t

theorem agree_iff {R : Value → Value → Prop} {s t : Scalar} :
    Agree R s t ↔ HeadsAgree R s t ∧ Forall₂ (Agree R) s.children t.children := by
  constructor
  · rintro ⟨hhead, hlength, hall⟩
    exact ⟨hhead, List.forall₂_iff_zip.mpr ⟨hlength, fun h => hall _ h⟩⟩
  · rintro ⟨hhead, hchildren⟩
    exact .node hhead hchildren.length_eq fun p hp => List.forall₂_zip hchildren hp

theorem same_iff_agree {s t : Scalar} :
    s.same t = true ↔ Agree (fun v w => v.same w = true) s t := by
  induction s using childInduction generalizing t with
  | node s ih =>
    rw [same_iff, agree_iff]
    refine and_congr_right fun _ => ⟨fun h => ?_, fun h => ?_⟩
    · exact ((List.forall₂_and_left _ _).mpr ⟨ih, h⟩).imp fun _ _ h => h.1.mp h.2
    · exact ((List.forall₂_and_left _ _).mpr ⟨ih, h⟩).imp fun _ _ h => h.1.mpr h.2

namespace Agree

variable {R S T : Value → Value → Prop} {s t u : Scalar}

theorem mono (hRS : ∀ v w, R v w → S v w) (h : Agree R s t) : Agree S s t := by
  induction h with
  | node hhead hlength _ ih => exact .node (hhead.mono hRS) hlength ih

theorem refl (hR : ∀ v, R v v) (s : Scalar) : Agree R s s := by
  induction s using childInduction with
  | node s ih => exact agree_iff.mpr ⟨.of_eq hR rfl rfl, List.forall₂_same.mpr ih⟩

theorem symm (hS : ∀ v w, R v w → S w v) (h : Agree R s t) : Agree S t s := by
  induction s using childInduction generalizing t with
  | node s ih =>
    obtain ⟨hhead, hchildren⟩ := agree_iff.mp h
    have hboth := (List.forall₂_and_left _ _).mpr ⟨ih, hchildren⟩
    exact agree_iff.mpr ⟨hhead.symm hS, List.Forall₂.flip (hboth.imp fun _ _ h => h.1 h.2)⟩

theorem trans (h : Agree R s t) (h' : Agree S t u) (hT : ∀ v w x, R v w → S w x → T v x) : Agree T s u := by
  induction s using childInduction generalizing t u with
  | node s ih =>
    obtain ⟨hhead, hchildren⟩ := agree_iff.mp h
    obtain ⟨hhead', hchildren'⟩ := agree_iff.mp h'
    have hboth := (List.forall₂_and_left _ _).mpr ⟨ih, hchildren⟩
    exact agree_iff.mpr ⟨hhead.trans hT hhead',
      forall₂_trans hboth hchildren' fun _ _ _ hcd hde => hcd.1 hcd.2 hde⟩

end Agree

theorem same_symm {s t : Scalar} (h : s.same t = true) : t.same s = true :=
  same_iff_agree.mpr ((same_iff_agree.mp h).symm fun _ _ => Value.same_symm)

theorem same_trans {s t u : Scalar} (h : s.same t = true) (h' : t.same u = true) : s.same u = true :=
  same_iff_agree.mpr ((same_iff_agree.mp h).trans (same_iff_agree.mp h') fun _ _ _ => Value.same_trans)

theorem sameList_symm (h : sameList ss ts = true) : sameList ts ss = true :=
  sameList_iff.mpr (List.Forall₂.flip ((sameList_iff.mp h).imp fun _ _ => same_symm))

theorem sameList_trans {us : List Scalar} (h : sameList ss ts = true) (h' : sameList ts us = true) :
    sameList ss us = true :=
  sameList_iff.mpr (forall₂_trans (sameList_iff.mp h) (sameList_iff.mp h') fun _ _ _ => same_trans)

end Sameness

section Rebuilding

theorem exists_flatPairs {n : Nat} (h : cs.length = 2 * n) : ∃ ps, ps.length = n ∧ flatPairs ps = cs := by
  induction n generalizing cs with
  | zero => exact ⟨[], rfl, (List.length_eq_zero_iff.mp h).symm⟩
  | succ n ih =>
    obtain ⟨a, cs, rfl⟩ := List.exists_cons_of_length_eq_add_one (h.trans (Nat.mul_succ 2 n))
    obtain ⟨b, cs, rfl⟩ := List.exists_cons_of_length_eq_add_one (Nat.succ.inj h)
    obtain ⟨ps, hlength, rfl⟩ := ih (Nat.succ.inj (Nat.succ.inj h))
    exact ⟨(a, b) :: ps, congrArg (· + 1) hlength, rfl⟩

theorem refillPairs_append (h : qs.length = ps.length) (rest : List Scalar) :
    refillPairs ps (flatPairs qs ++ rest) = (qs, rest) := by
  induction ps generalizing qs with
  | nil =>
    obtain rfl := List.length_eq_zero_iff.mp h
    rfl
  | cons p ps ih =>
    obtain ⟨q, qs, rfl⟩ := List.exists_cons_of_length_eq_add_one h
    have hrest := ih (Nat.succ.inj h)
    simp only [flatPairs, List.flatMap_cons, List.cons_append, List.nil_append, refillPairs] at hrest ⊢
    rw [hrest]

theorem exists_conditional_children (h : cs.length = (flatPairs ps ++ o.toList).length) :
    ∃ (qs : List (Scalar × Scalar)) (p : Option Scalar),
      qs.length = ps.length ∧ p.isSome = o.isSome ∧ cs = flatPairs qs ++ p.toList := by
  rw [List.length_append, length_flatPairs] at h
  have hlength : (cs.take (2 * ps.length)).length = 2 * ps.length := by
    rw [List.length_take]
    omega
  obtain ⟨qs, hqs, htake⟩ := exists_flatPairs hlength
  have hdrop : (cs.drop (2 * ps.length)).length = o.toList.length := by
    rw [List.length_drop]
    omega
  have hcs := List.take_append_drop (2 * ps.length) cs
  rw [← htake] at hcs
  cases o with
  | none =>
    rw [List.length_eq_zero_iff.mp hdrop] at hcs
    exact ⟨qs, none, hqs, rfl, hcs.symm⟩
  | some d =>
    obtain ⟨c, hc⟩ := List.length_eq_one_iff.mp hdrop
    rw [hc] at hcs
    exact ⟨qs, some c, hqs, rfl, hcs.symm⟩

theorem exists_letIn_children (h : cs.length = (ds.map (·.2) ++ [b]).length) :
    ∃ ss c, ss.length = ds.length ∧ cs = ss ++ [c] := by
  rcases List.eq_nil_or_concat cs with rfl | ⟨ss, c, rfl⟩
  · simp at h
  · exact ⟨ss, c, by simpa using h, List.concat_eq_append⟩

theorem withChildren_conditional (hps : qs.length = ps.length) (ho : p.isSome = o.isSome) :
    (conditional ps o).withChildren (flatPairs qs ++ p.toList) = conditional qs p := by
  simp only [withChildren, refillPairs_append hps]
  cases o <;> cases p <;> simp at ho ⊢

theorem withChildren_letIn (h : ss.length = ds.length) :
    (letIn ds b).withChildren (ss ++ [c]) = letIn ((ds.map (·.1)).zip ss) c := by
  have hzip : (ds.map (·.1)).zip (ss ++ [c]) = (ds.map (·.1)).zip ss := by
    have hlength : (ds.map (·.1)).length = ss.length := by
      rw [List.length_map, h]
    have happend := @List.zip_append _ _ _ [] _ [c] hlength
    simpa using happend
  simp only [withChildren, hzip]
  rw [← h, List.drop_left]
  rfl

/-- An expression with other subexpressions in the place of its own, and as many, has the same topmost
node over these. -/
theorem withChildren_spec {s : Scalar} (h : cs.length = s.children.length) :
    (s.withChildren cs).children = cs ∧ (s.withChildren cs).head = s.head ∧
      (s.withChildren cs).value? = s.value? := by
  cases s with
  | immediate v t | var v =>
    obtain rfl := List.length_eq_zero_iff.mp h
    exact ⟨rfl, rfl, rfl⟩
  | unary op _ | cast policy target _ =>
    obtain ⟨c, rfl⟩ := List.length_eq_one_iff.mp h
    exact ⟨rfl, rfl, rfl⟩
  | binary op _ _ | compare op _ _ =>
    obtain ⟨l, r, rfl⟩ := List.length_eq_two.mp h
    exact ⟨rfl, rfl, rfl⟩
  | pattern op _ _ _ =>
    obtain ⟨i, p, e, rfl⟩ := List.length_eq_three.mp h
    exact ⟨rfl, rfl, rfl⟩
  | conditional ps o =>
    obtain ⟨qs, p, hqs, hp, rfl⟩ := exists_conditional_children h
    rw [withChildren_conditional hqs hp]
    exact ⟨rfl, by rw [head, head, hqs, hp], rfl⟩
  | letIn ds b =>
    obtain ⟨ss, c, hss, rfl⟩ := exists_letIn_children h
    rw [withChildren_letIn hss]
    have hlength : (ds.map (·.1)).length = ss.length := by rw [List.length_map, hss]
    refine ⟨?_, ?_, rfl⟩
    · rw [children, List.map_snd_zip (Nat.le_of_eq hlength.symm)]
    · have hdeclared : ((ds.map (·.1)).zip ss).map (·.1.identity) =
          (((ds.map (·.1)).zip ss).map (·.1)).map Variable.identity := by
        rw [List.map_map]
        rfl
      rw [head, head, hdeclared, List.map_fst_zip (Nat.le_of_eq hlength), List.map_map]
      rfl
  | call f _ | aggregate f _ => exact ⟨rfl, rfl, rfl⟩

end Rebuilding

section Positions

def at? (s : Scalar) : List Nat → Option Scalar
  | [] => some s
  | i :: path => s.children[i]?.bind (at? · path)

end Positions

end Scalar

end SqlPlan
