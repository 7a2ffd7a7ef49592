import SqlPlan.Proofs.GroupingFaults
import SqlPlan.Proofs.SourceTransfer

namespace SqlPlan

open List (Forall₂)

variable {ν : Nat ↪ Nat} {env : Environment} {T : Transfer env.options}

namespace Scalar

theorem flatPairs_renumber (ps : List (Scalar × Scalar)) :
    flatPairs (ps.map fun p => (p.1.renumber ν, p.2.renumber ν)) = (flatPairs ps).map (renumber ν) := by
  simp [flatPairs, List.flatMap_map, List.map_flatMap]

theorem children_renumber (s : Scalar) : (s.renumber ν).children = s.children.map (renumber ν) := by
  cases s with
  | conditional ps o =>
    rw [renumber, renumberPairs_eq, renumberOption_eq, children_conditional, flatPairs_renumber, children_conditional,
      List.map_append, Option.toList_map]
  | _ => simp [renumber, children]

theorem withChildren_renumber {s : Scalar} {cs : List Scalar} (h : cs.length = s.children.length) :
    (s.renumber ν).withChildren (cs.map (renumber ν)) = (s.withChildren cs).renumber ν := by
  cases s with
  | immediate _ _ | var _ =>
    obtain rfl := List.length_eq_zero_iff.mp h
    rfl
  | unary _ _ | cast _ _ _ =>
    obtain ⟨c, rfl⟩ := List.length_eq_one_iff.mp h
    rfl
  | binary _ _ _ | compare _ _ _ =>
    obtain ⟨l, r, rfl⟩ := List.length_eq_two.mp h
    rfl
  | pattern _ _ _ _ =>
    obtain ⟨i, p, e, rfl⟩ := List.length_eq_three.mp h
    rfl
  | conditional ps o =>
    obtain ⟨qs, p, hqs, hp, rfl⟩ := exists_conditional_children h
    rw [withChildren_conditional hqs hp, List.map_append, ← flatPairs_renumber, ← Option.toList_map]
    simp only [renumber, renumberPairs_eq, renumberOption_eq]
    exact withChildren_conditional (by simpa using hqs) (by simpa using hp)
  | letIn ds b =>
    obtain ⟨ss, c, hss, rfl⟩ := exists_letIn_children h
    rw [withChildren_letIn hss, List.map_append, List.map_singleton]
    simp only [renumber, renumberDeclarators_eq]
    rw [withChildren_letIn (by simpa using hss), map_fst_map, List.zip_map]
    rfl
  | call _ _ | aggregate _ _ => simp [withChildren, renumber]

theorem ne_aggregate_renumber {s : Scalar} (h : ∀ f ss, s ≠ aggregate f ss) :
    ∀ f ss, s.renumber ν ≠ aggregate f ss := by
  cases s <;> simp_all [renumber]

@[simp] theorem hasAggregate_renumber (s : Scalar) : (s.renumber ν).hasAggregate = s.hasAggregate := by
  induction s using childInduction with
  | node s ih =>
    by_cases htop : ∃ f ss, s = aggregate f ss
    · obtain ⟨f, ss, rfl⟩ := htop
      rfl
    · have hnode : ∀ f ss, s ≠ aggregate f ss := fun f ss hs => htop ⟨f, ss, hs⟩
      rw [hasAggregate_node hnode, hasAggregate_node (ne_aggregate_renumber hnode), children_renumber, List.any_map,
        Bool.eq_iff_iff, List.any_eq_true, List.any_eq_true]
      exact exists_congr fun c => and_congr_right fun hc => by rw [Function.comp_apply, ih c hc]

theorem identity_renumber {v w : Variable} : (v.renumber ν).identity = (w.renumber ν).identity ↔
    v.identity = w.identity := by
  rw [← Variable.same_iff, Variable.same_renumber, Variable.same_iff]

theorem identities_renumber {ds es : List (Variable × Scalar)} :
    ds.map (fun d => (d.1.renumber ν).identity) = es.map (fun d => (d.1.renumber ν).identity) ↔
      ds.map (·.1.identity) = es.map (·.1.identity) := by
  induction ds generalizing es with
  | nil => cases es <;> simp
  | cons d ds ih => cases es <;> simp [ih, identity_renumber]

theorem headsAgree_renumber {R : Value → Value → Prop} {s t : Scalar} :
    HeadsAgree R (s.renumber ν) (t.renumber ν) ↔ HeadsAgree R s t := by
  cases s <;> cases t <;>
    simp [HeadsAgree, head, value?, renumber, identity_renumber, identities_renumber, Function.comp_def]

@[simp] theorem same_renumber (s t : Scalar) : (s.renumber ν).same (t.renumber ν) = s.same t := by
  induction s using childInduction generalizing t with
  | node s ih =>
    rw [Bool.eq_iff_iff, same_iff, same_iff, headsAgree_renumber, children_renumber, children_renumber,
      List.forall₂_map_left_iff, List.forall₂_map_right_iff, List.forall₂_iff_zip, List.forall₂_iff_zip]
    refine and_congr_right fun _ => and_congr_right fun _ => ?_
    exact forall_congr' fun c => forall_congr' fun d => imp_congr_right fun h => by
      rw [Same, ih c (List.of_mem_zip h).1]

end Scalar

def AggregateEntry.renumber (ν : Nat ↪ Nat) (e : AggregateEntry) : AggregateEntry :=
  ⟨e.function, e.arguments.map (Scalar.renumber ν), e.destination.renumber ν⟩

def Aggregation.renumber (ν : Nat ↪ Nat) (a : Aggregation) : Aggregation :=
  ⟨a.locals.map (Variable.renumber ν), a.keys.map (Variable.renumber ν), a.entries.map (AggregateEntry.renumber ν),
    a.active⟩

def Regrouping.renumber {o : Options} (T : Transfer o) (r : Regrouping) : Regrouping :=
  ⟨r.aggregation.renumber T.number, r.minted + T.offset, r.problem⟩

def GroupingState.renumber {o : Options} (T : Transfer o) (s : GroupingState) : GroupingState :=
  ⟨s.minted + T.offset, s.aggregation.renumber T.number⟩

abbrev Grouping.Transfers {α β : Type} (T : Transfer env.options) (f : α → β) (m : Grouping α) (m' : Grouping β) :
    Prop :=
  Step.Transfers T GroupingState.minted (GroupingState.renumber T) f m m'

namespace Aggregation

theorem addKey_renumber (a : Aggregation) (key : Variable) :
    (a.renumber ν).addKey (key.renumber ν) = (a.addKey key).renumber ν := by
  cases h : key.isIn a.keys <;> simp [addKey, renumber, h]

theorem isUngrouped_renumber (a : Aggregation) (v : Variable) :
    (a.renumber ν).isUngrouped (v.renumber ν) = a.isUngrouped v := by
  simp only [isUngrouped, renumber, Variable.isIn_renumber]

theorem entry?_renumber (a : Aggregation) (function : AggregateDecl) (arguments : List Scalar) :
    Aggregation.entry? (a.renumber ν) function (arguments.map (Scalar.renumber ν)) =
      Option.map (AggregateEntry.renumber ν) ( a.entry? function arguments) := by
  have hsame : ∀ ss : List Scalar, Scalar.sameList (ss.map (Scalar.renumber ν)) (arguments.map (Scalar.renumber ν)) =
      Scalar.sameList ss arguments := by
    intro ss
    rw [Bool.eq_iff_iff, Scalar.sameList_iff, Scalar.sameList_iff, List.forall₂_map_left_iff,
      List.forall₂_map_right_iff]
    simp only [Scalar.Same, Scalar.same_renumber]
  simp only [renumber, entry?, List.find?_map, Function.comp_def, AggregateEntry.renumber, hsame]

theorem outputs_renumber (a : Aggregation) : (a.renumber ν).outputs = a.outputs.map (Variable.renumber ν) := by
  simp only [outputs, renumber, List.map_append, List.map_map]
  rfl

end Aggregation

namespace Regrouping

theorem minted_le_check (location : Option Span) (v : Variable) (r : Regrouping) :
    r.minted ≤ (r.check location v).minted := by
  unfold check
  split <;> exact Nat.le_refl _

theorem minted_le_register (r : Regrouping) (function : AggregateDecl) (arguments : List Scalar) :
    r.minted ≤ (r.register function arguments).2.minted := by
  unfold register
  cases r.aggregation.entry? function arguments with
  | some entry => exact Nat.le_refl _
  | none => exact Nat.le_succ _

theorem minted_le_call (location : Option Span) (function : AggregateDecl) (arguments : List Scalar)
    (r : Regrouping) : r.minted ≤ (r.call location function arguments).2.minted := by
  unfold call
  split
  · exact Nat.le_refl _
  · split
    · exact Nat.le_refl _
    · exact r.minted_le_register function arguments

theorem register_renumber (r : Regrouping) (function : AggregateDecl) (arguments : List Scalar)
    (h : T.Mints r.minted (r.register function arguments).2.minted) :
    (r.renumber T).register function (arguments.map (Scalar.renumber T.number)) =
      ((r.register function arguments).1.renumber T.number, (r.register function arguments).2.renumber T) := by
  have hentry := r.aggregation.entry?_renumber (ν := T.number) function arguments
  unfold register at *
  rw [renumber, hentry]
  cases he : r.aggregation.entry? function arguments with
  | some entry => rfl
  | none =>
    have hnumber : T.number (r.minted + 1) = r.minted + 1 + T.offset := by
      rw [he] at h
      exact h _ (Nat.le_refl _) (Nat.lt_succ_self _)
    have hnext : r.minted + T.offset + 1 = r.minted + 1 + T.offset := Nat.add_right_comm _ _ _
    simp only [Option.map_none, hnext, renumber, Aggregation.renumber, AggregateEntry.renumber, Variable.renumber,
      hnumber, List.map_append, List.map_cons, List.map_nil]

theorem call_renumber (location : Option Span) (function : AggregateDecl) (arguments : List Scalar) (r : Regrouping)
    (h : T.Mints r.minted (r.call location function arguments).2.minted) :
    (r.renumber T).call location function (arguments.map (Scalar.renumber T.number)) =
      ((r.call location function arguments).1.renumber T.number,
        (r.call location function arguments).2.renumber T) := by
  have hflat : Scalar.listHasAggregate (arguments.map (Scalar.renumber T.number)) =
      Scalar.listHasAggregate arguments := by
    simp [Scalar.listHasAggregate_eq, List.any_map, Function.comp_def]
  have hproblem : (r.renumber T).problem = r.problem := rfl
  unfold call at *
  rw [hproblem, hflat]
  by_cases hp : r.problem.isSome = true
  · simp only [if_pos hp, Scalar.renumber, Scalar.renumberList_eq]
  · by_cases ha : Scalar.listHasAggregate arguments = true
    · simp only [if_neg hp, if_pos ha, Scalar.renumber, Scalar.renumberList_eq]
      rfl
    · simp only [if_neg hp, if_neg ha] at h
      simp only [if_neg hp, if_neg ha, register_renumber r function arguments h, Scalar.renumber]

theorem check_renumber (location : Option Span) (v : Variable) (r : Regrouping) :
    (r.renumber T).check location (v.renumber T.number) = (r.check location v).renumber T := by
  have hungrouped := r.aggregation.isUngrouped_renumber (ν := T.number) v
  unfold check
  simp only [renumber, hungrouped]
  split <;> rfl

end Regrouping

namespace Scalar

/-- A regrouping counts up also where it finds a problem, and what it mints has the numbers that the second run
gives. -/
theorem regroup_renumber (location : Option Span) (s : Scalar) (r : Regrouping) :
    r.minted ≤ (s.regroup location r).2.minted ∧ (T.Mints r.minted (s.regroup location r).2.minted →
      (s.renumber T.number).regroup location (r.renumber T) =
        ((s.regroup location r).1.renumber T.number, (s.regroup location r).2.renumber T)) := by
  refine regroup_induction location (P := fun s r => r.minted ≤ (s.regroup location r).2.minted ∧
      (T.Mints r.minted (s.regroup location r).2.minted → (s.renumber T.number).regroup location (r.renumber T) =
        ((s.regroup location r).1.renumber T.number, (s.regroup location r).2.renumber T)))
    (L := fun ss r => r.minted ≤ (regroupList location ss r).2.minted ∧
      (T.Mints r.minted (regroupList location ss r).2.minted →
        regroupList location (ss.map (renumber T.number)) (r.renumber T) =
          ((regroupList location ss r).1.map (renumber T.number), (regroupList location ss r).2.renumber T)))
    (fun v r => ?_) (fun f ss r => ?_) (fun s r hvar hcall h => ?_) (fun r => ⟨Nat.le_refl _, fun _ => rfl⟩)
    (fun s ss r hs hss => ?_) s r
  · exact ⟨r.minted_le_check location v, fun _ => by simp only [renumber, regroup, Regrouping.check_renumber]⟩
  · refine ⟨r.minted_le_call location f ss, fun h => ?_⟩
    simp only [renumber, regroup, renumberList_eq]
    exact Regrouping.call_renumber location f ss r h
  · have hvar' : ∀ v, s.renumber T.number ≠ var v := by cases s <;> simp_all [renumber]
    have hcall' : ¬(s.renumber T.number).CallAt [] := by
      simp only [callAt_nil, not_exists] at hcall ⊢
      exact ne_aggregate_renumber hcall
    rw [regroup_node location hvar hcall, regroup_node location hvar' hcall', children_renumber]
    refine ⟨h.1, fun hmints => ?_⟩
    rw [h.2 hmints, withChildren_renumber (length_regroupList location s.children r)]
  · rw [regroupList_cons, List.map_cons, regroupList_cons]
    refine ⟨Nat.le_trans hs.1 hss.1, fun hmints => ?_⟩
    rw [hs.2 (hmints.left hss.1), hss.2 (hmints.right hs.1)]
    rfl

end Scalar

namespace Aggregation

theorem regroup_transfers (location : Option Span) (s : Scalar) :
    Grouping.Transfers T (Scalar.renumber T.number) (regroup location s) (regroup location (s.renumber T.number)) := by
  rintro state _ rfl
  obtain ⟨hle, hregroup⟩ := s.regroup_renumber (T := T) location ⟨state.aggregation, state.minted, none⟩
  change Comparison.Goes (T.comparison GroupingState.minted (GroupingState.renumber T)) state
      (regroup location s env state) ∧
    (T.Mints state.minted (regroup location s env state).2.minted → (T.comparison _ _).Ends _ _
      (regroup location (s.renumber T.number) (env.extend T.further) (state.renumber T)))
  unfold regroup process
  rw [Regrouping.renumber] at hregroup
  dsimp only [GroupingState.renumber] at hregroup ⊢
  generalize s.regroup location ⟨state.aggregation, state.minted, none⟩ = x at *
  obtain ⟨s', aggregation, minted, problem⟩ := x
  cases problem with
  | none =>
    refine ⟨⟨hle, .ok _⟩, fun hmints => ?_⟩
    rw [hregroup hmints]
    exact .ok rfl rfl
  | some d =>
    refine ⟨⟨hle, .error d []⟩, fun hmints => ?_⟩
    rw [hregroup hmints]
    exact .error ⟨rfl, fun _ => rfl⟩ rfl

theorem run_runs {α : Type} (a : Aggregation) (m : Grouping α) : Step.Runs m (fun d : Draft => ⟨d.minted, a⟩)
    (fun d state => { d with minted := state.minted }) (fun x state => (x, state.aggregation)) (a.run m) := by
  intro env d
  unfold run
  rcases m env ⟨d.minted, a⟩ with ⟨_ | _, _⟩ <;> rfl

theorem run_transfers {α β : Type} {f : α → β} (a : Aggregation) {m : Grouping α} {m' : Grouping β}
    (h : Grouping.Transfers T f m m') :
    Planning.Transfers T (fun p => (f p.1, p.2.renumber T.number)) (a.run m) ((a.renumber T.number).run m') :=
  .within T.base h (a.run_runs m) (run_runs _ m') (fun _ => rfl) (fun _ => rfl) (fun _ _ => rfl) (fun _ _ => rfl)
    fun _ _ => rfl

theorem argumentColumns_transfers (ss : List Scalar) :
    Analysis.Transfers T
      (fun p => (p.1.map (Variable.renumber T.number), p.2.map (Scalar.renumberDefinition T.number)))
      (argumentColumns ss) (argumentColumns (ss.map (Scalar.renumber T.number))) := by
  induction ss with
  | nil => exact .pure rfl
  | cons s ss ih =>
    rw [List.map_cons, argumentColumns, argumentColumns, Scalar.asVariable?_renumber]
    cases s.asVariable? with
    | some v => exact .bind ih fun _ => .pure rfl
    | none => exact .bind (Analysis.mint_transfers _) fun _ => .bind ih fun _ => .pure rfl

theorem aggregateColumns_transfers (entries : List AggregateEntry) :
    Analysis.Transfers T
      (fun p => (p.1.map (AggregateColumn.renumber T.number), p.2.map (Scalar.renumberDefinition T.number)))
      (aggregateColumns entries) (aggregateColumns (entries.map (AggregateEntry.renumber T.number))) := by
  induction entries with
  | nil => exact .pure rfl
  | cons e entries ih =>
    refine .bind (argumentColumns_transfers e.arguments) fun _ => .bind ih fun _ => .pure ?_
    rw [List.map_append]
    rfl

end Aggregation

namespace Block

theorem addIf_transfers (needed : Bool) (operator : Operator) (input : Socket) :
    Planning.Transfers T T.socket (addIf needed operator input)
      (addIf needed (operator.renumber T.number) (T.socket input)) :=
  .ite (Planning.add_transfers operator [input]) (.pure rfl)

theorem addFilter_transfers (condition : Option Scalar) (input : Socket) :
    Planning.Transfers T T.socket (addFilter condition input)
      (addFilter (condition.map (Scalar.renumber T.number)) (T.socket input)) := by
  cases condition with
  | some c => exact Planning.add_transfers (.filter c) [input]
  | none => exact .pure rfl

end Block

theorem Aggregation.install_transfers (a : Aggregation) (input : Socket) :
    Planning.Transfers T T.socket (a.install input) ((a.renumber T.number).install (T.socket input)) := by
  refine .bind (Planning.lift_transfers (aggregateColumns_transfers a.entries)) ?_
  rintro ⟨columns, computed⟩
  dsimp only
  rw [List.isEmpty_map]
  cases computed.isEmpty with
  | true => exact Planning.add_transfers (.aggregate a.keys columns) [input]
  | false =>
    refine .bind (Planning.add_transfers (.project computed) [input]) fun input => ?_
    exact Planning.add_transfers (.aggregate a.keys columns) [input]

end SqlPlan
