import Mathlib.Data.List.Nodup
import SqlPlan.Proofs.GroupingFaults
import SqlPlan.Proofs.IntroducedColumns

namespace SqlPlan

variable {e : AggregateEntry} {s t c : Scalar} {v : Variable} {ss : List Scalar} {p : List Nat}

open List (Forall₂)

section Calls

/-- The calls of a grouping are different, and each has a column of its own. -/
structure Aggregation.WellFormed (a : Aggregation) (minted : Nat) : Prop where
  different : a.entries.Pairwise fun e e' =>
    ¬(e.function = e'.function ∧ Scalar.sameList e.arguments e'.arguments = true)
  columns : Fresh 0 (a.entries.map (·.destination)) minted

theorem AggregateEntry.eq_of_same {entries : List AggregateEntry} {n : Nat}
    (h : Fresh 0 (entries.map (·.destination)) n) {e' : AggregateEntry} (he : e ∈ entries) (he' : e' ∈ entries)
    (hsame : e.destination.same e'.destination = true) : e = e' := by
  have hstream (e : AggregateEntry) (he : e ∈ entries) : e.destination.isStream = true :=
    h.stream _ (List.mem_map_of_mem he)
  rw [Variable.same_of_stream (hstream e he) (hstream e' he'), beq_iff_eq] at hsame
  have hnodup : (entries.map fun e => e.destination.id).Nodup := by
    have hids := List.pairwise_map.mp h.increasing
    exact List.pairwise_map.mpr (hids.imp Nat.ne_of_lt)
  exact List.inj_on_of_nodup_map hnodup he he' hsame

namespace Regrouping

variable {r r' : Regrouping}

theorem wellFormed_register (f : AggregateDecl) (ss : List Scalar) (h : r.aggregation.WellFormed r.minted) :
    (r.register f ss).2.aggregation.WellFormed (r.register f ss).2.minted := by
  unfold register
  rcases hentry : r.aggregation.entry? f ss with _ | e
  · refine ⟨?_, ?_⟩
    · refine List.pairwise_append.mpr ⟨h.different, List.pairwise_singleton _ _, fun e he e' he' => ?_⟩
      obtain rfl := List.mem_singleton.mp he'
      simpa [AggregateDecl.sameObject] using List.find?_eq_none.mp hentry e he
    · have hlast : Fresh r.minted [⟨r.minted + 1, .stream (some f.name)⟩] (r.minted + 1) :=
        .cons (Nat.le_refl _) (.nil _ _)
      rw [List.map_append]
      exact h.columns.append hlast (Nat.zero_le _) (Nat.le_succ _)
  · exact h

theorem Advances.wellFormed (h : r.Advances r') (hr : r.aggregation.WellFormed r.minted) :
    r'.aggregation.WellFormed r'.minted := by
  induction h with
  | refl => exact hr
  | register f _ _ ih => exact wellFormed_register f _ ih
  | fail d _ ih => exact ih

theorem exists_entry_of_register (r : Regrouping) (f : AggregateDecl) (ss : List Scalar) :
    ∃ e ∈ (r.register f ss).2.aggregation.entries, e.destination = (r.register f ss).1 ∧ e.function = f ∧
      (e.arguments = ss ∨ Scalar.sameList e.arguments ss = true) := by
  unfold register
  rcases hentry : r.aggregation.entry? f ss with _ | e
  · exact ⟨_, List.mem_append_right _ (List.mem_singleton_self _), rfl, rfl, .inl rfl⟩
  · have hsame := List.find?_some hentry
    simp only [AggregateDecl.sameObject, Bool.and_eq_true, decide_eq_true_eq] at hsame
    exact ⟨e, List.mem_of_find?_eq_some hentry, rfl, hsame.1, .inr hsame.2⟩

end Regrouping

end Calls

namespace Scalar

mutual

def substitute (σ : Variable → Scalar) : Scalar → Scalar
  | immediate v t => immediate v t
  | var v => σ v
  | unary op s => unary op (s.substitute σ)
  | binary op l r => binary op (l.substitute σ) (r.substitute σ)
  | compare op l r => compare op (l.substitute σ) (r.substitute σ)
  | pattern op i p e => pattern op (i.substitute σ) (p.substitute σ) (e.substitute σ)
  | conditional ps o => conditional (substitutePairs σ ps) (substituteOption σ o)
  | letIn ds b => letIn (substituteDeclarators σ ds) (b.substitute σ)
  | cast policy target s => cast policy target (s.substitute σ)
  | call f ss => call f (substituteList σ ss)
  | aggregate f ss => aggregate f (substituteList σ ss)

def substitutePairs (σ : Variable → Scalar) : List (Scalar × Scalar) → List (Scalar × Scalar)
  | [] => []
  | (x, y) :: ps => (x.substitute σ, y.substitute σ) :: substitutePairs σ ps

def substituteOption (σ : Variable → Scalar) : Option Scalar → Option Scalar
  | none => none
  | some s => some (s.substitute σ)

def substituteDeclarators (σ : Variable → Scalar) : List (Variable × Scalar) → List (Variable × Scalar)
  | [] => []
  | (v, s) :: ds => (v, s.substitute σ) :: substituteDeclarators σ ds

def substituteList (σ : Variable → Scalar) : List Scalar → List Scalar
  | [] => []
  | s :: ss => s.substitute σ :: substituteList σ ss

end

example : (letIn [(⟨2, .temporary⟩, var ⟨1, .temporary⟩)] (var ⟨2, .temporary⟩)).substitute
    (fun v => unary .plus (var v)) =
    letIn [(⟨2, .temporary⟩, unary .plus (var ⟨1, .temporary⟩))] (unary .plus (var ⟨2, .temporary⟩)) := by
  cbv

variable (σ : Variable → Scalar)

theorem substituteList_eq (ss : List Scalar) : substituteList σ ss = ss.map (substitute σ) := by
  induction ss with
  | nil => rfl
  | cons s ss ih => rw [substituteList, ih, List.map_cons]

theorem flatPairs_substitutePairs (ps : List (Scalar × Scalar)) :
    flatPairs (substitutePairs σ ps) = (flatPairs ps).map (substitute σ) ∧
      (substitutePairs σ ps).length = ps.length := by
  induction ps with
  | nil => exact ⟨rfl, rfl⟩
  | cons p ps ih =>
    obtain ⟨x, y⟩ := p
    obtain ⟨hpairs, hlength⟩ := ih
    simp only [flatPairs] at hpairs
    exact ⟨by simp [substitutePairs, flatPairs, hpairs], congrArg (· + 1) hlength⟩

theorem substituteOption_eq (o : Option Scalar) : substituteOption σ o = o.map (substitute σ) := by
  cases o <;> rfl

theorem substituteDeclarators_eq (ds : List (Variable × Scalar)) :
    substituteDeclarators σ ds = (ds.map (·.1)).zip ((ds.map (·.2)).map (substitute σ)) := by
  induction ds with
  | nil => rfl
  | cons d ds ih => rw [substituteDeclarators, ih, List.map_cons, List.map_cons, List.map_cons, List.zip_cons_cons]

theorem substitute_eq_withChildren (hvar : ∀ v, s ≠ var v) :
    s.substitute σ = s.withChildren (s.children.map (substitute σ)) := by
  cases s with
  | var v => exact absurd rfl (hvar v)
  | conditional ps o =>
    obtain ⟨hpairs, hlength⟩ := flatPairs_substitutePairs σ ps
    have ho : (o.toList.map (substitute σ)) = (substituteOption σ o).toList := by cases o <;> rfl
    have hsome : (substituteOption σ o).isSome = o.isSome := by cases o <;> rfl
    rw [children_conditional, List.map_append, ← hpairs, ho, withChildren_conditional hlength hsome, substitute]
  | letIn ds b =>
    have hlength : ((ds.map (·.2)).map (substitute σ)).length = ds.length := by simp
    rw [children, List.map_append, List.map_singleton, withChildren_letIn hlength, substitute,
      substituteDeclarators_eq]
  | call f ss => exact congrArg (call f) (substituteList_eq σ ss)
  | aggregate f ss => exact congrArg (aggregate f) (substituteList_eq σ ss)
  | _ => rfl

theorem substitute_node (h : ∀ v, s ≠ .var v) :
    (s.substitute σ).head = s.head ∧ (s.substitute σ).value? = s.value? ∧
      (s.substitute σ).children = s.children.map (substitute σ) := by
  obtain ⟨hchildren, hhead, hvalue⟩ := withChildren_spec (s.children.length_map (substitute σ))
  rw [substitute_eq_withChildren σ h]
  exact ⟨hhead, hvalue, hchildren⟩

end Scalar

section Restoring

open Scalar

/-- The call whose column a variable is, or else the variable. -/
def AggregateEntry.restore (entries : List AggregateEntry) (v : Variable) : Scalar :=
  match entries.find? fun e => e.destination.same v with
  | some e => .aggregate e.function e.arguments
  | none => .var v

def Scalar.restore (entries : List AggregateEntry) (s : Scalar) : Scalar :=
  s.substitute (AggregateEntry.restore entries)

/-- Expressions that agree in all nodes. Their constants are identical or the same, which no constant is
that is not a number. -/
def Scalar.Coincides (s t : Scalar) : Prop := Agree (fun v w => v = w ∨ v.same w = true) s t

variable {entries : List AggregateEntry} {n : Nat} {location : Option Span}

theorem AggregateEntry.restore_destination (h : Fresh 0 (entries.map (·.destination)) n) (he : e ∈ entries) :
    AggregateEntry.restore entries e.destination = .aggregate e.function e.arguments := by
  unfold restore
  rcases hfind : entries.find? (fun e' => e'.destination.same e.destination) with _ | e'
  · simpa using List.find?_eq_none.mp hfind e he
  · have hsame := List.find?_some hfind
    obtain rfl := eq_of_same h (List.mem_of_find?_eq_some hfind) he hsame
    simp only [hfind]

theorem AggregateEntry.restore_var (h : ∀ e ∈ entries, e.destination.same v = false) :
    AggregateEntry.restore entries v = .var v := by
  have hfind : entries.find? (fun e => e.destination.same v) = none :=
    List.find?_eq_none.mpr fun e he => by simp [h e he]
  rw [restore, hfind]

namespace Scalar.Coincides

theorem symm (h : s.Coincides t) : t.Coincides s :=
  Agree.symm (fun _ _ h => h.imp Eq.symm Value.same_symm) h

theorem same_of_same {u : Scalar} (h : s.Coincides t) (h' : t.same u = true) : s.same u = true := by
  refine same_iff_agree.mpr (Agree.trans h (same_iff_agree.mp h') fun v w x hvw hwx => ?_)
  rcases hvw with rfl | hvw
  · exact hwx
  · exact Value.same_trans hvw hwx

/-- No expression tells the two apart. -/
theorem same_congr (h : s.Coincides t) (u : Scalar) : s.same u = t.same u :=
  Bool.eq_iff_iff.mpr ⟨h.symm.same_of_same, h.same_of_same⟩

theorem of_register {f : AggregateDecl} (hf : e.function = f)
    (hss : e.arguments = ss ∨ sameList e.arguments ss = true) :
    Coincides (.aggregate e.function e.arguments) (.aggregate f ss) := by
  rcases hss with rfl | hss
  · rw [hf]
    exact .refl (fun _ => .inl rfl) _
  · have hsame : same (.aggregate e.function e.arguments) (.aggregate f ss) = true := by
      simp [same, AggregateDecl.sameObject, hf, hss]
    exact (same_iff_agree.mp hsame).mono fun _ _ => .inr

end Scalar.Coincides

/-- What a regrouped expression was can be told from the calls of its columns. -/
theorem Scalar.restore_regroup (hcolumns : Fresh 0 (entries.map (·.destination)) n) (s : Scalar)
    (r : Regrouping) : (s.regroup location r).2.problem = none →
      (∀ e ∈ (s.regroup location r).2.aggregation.entries, e ∈ entries) →
      (∀ p v, s.at? p = some (.var v) → ∀ e ∈ entries, e.destination.same v = false) →
      ((s.regroup location r).1.restore entries).Coincides s := by
  refine regroup_induction location
    (P := fun s r => (s.regroup location r).2.problem = none →
      (∀ e ∈ (s.regroup location r).2.aggregation.entries, e ∈ entries) →
      (∀ p v, s.at? p = some (.var v) → ∀ e ∈ entries, e.destination.same v = false) →
      ((s.regroup location r).1.restore entries).Coincides s)
    (L := fun ss r => (regroupList location ss r).2.problem = none →
      (∀ e ∈ (regroupList location ss r).2.aggregation.entries, e ∈ entries) →
      (∀ s ∈ ss, ∀ p v, s.at? p = some (.var v) → ∀ e ∈ entries, e.destination.same v = false) →
      Forall₂ Coincides ((regroupList location ss r).1.map (restore entries)) ss) ?_ ?_ ?_ ?_ ?_ s r
  · intro v r _ _ hvars
    rw [regroup, restore, substitute, AggregateEntry.restore_var (hvars [] v rfl)]
    exact .refl (fun _ => .inl rfl) _
  · intro f ss r hnone hmem _
    have hcall := Regrouping.call_of_problem_none hnone
    obtain ⟨e, he, hv, hf, hss⟩ := r.exists_entry_of_register f ss
    simp only [regroup, hcall] at hmem ⊢
    rw [restore, substitute, ← hv, AggregateEntry.restore_destination hcolumns (hmem e he)]
    exact .of_register hf hss
  · intro s r hvar hcall hchildren hnone hmem hvars
    rw [regroup_node location hvar hcall] at hnone hmem ⊢
    obtain ⟨hchildren', hhead, hvalue⟩ := withChildren_spec (length_regroupList location s.children r)
    have hvar' := ne_var_of_head_eq hhead hvar
    obtain ⟨hhead', hvalue', hsub⟩ := substitute_node (AggregateEntry.restore entries) hvar'
    refine agree_iff.mpr ⟨.of_eq (fun _ => .inl rfl) (hhead'.trans hhead) (hvalue'.trans hvalue), ?_⟩
    rw [restore, hsub, hchildren']
    refine hchildren hnone hmem fun c hc p v hv => ?_
    obtain ⟨i, hi⟩ := List.mem_iff_getElem?.mp hc
    exact hvars (i :: p) v (by simp [at?, hi, hv])
  · intro r _ _ _
    exact .nil
  · intro s ss r hs hss hnone hmem hvars
    obtain ⟨hvar, hvars⟩ := List.forall_mem_cons.mp hvars
    rw [regroupList_cons] at hnone hmem
    have hadvances := regroupList_advances location ss (s.regroup location r).2
    refine .cons (hs ?_ ?_ hvar) (hss hnone hmem hvars)
    · exact problem_none_of_regroupList hnone
    · exact fun e he => hmem e (hadvances.grows.mem_entries he)

end Restoring

namespace Scalar

theorem mem_listVariables (hc : c ∈ ss) (hv : v ∈ c.mentioned) : v ∈ listVariables ss := by
  induction ss with
  | nil => cases hc
  | cons s ss ih =>
    rcases List.mem_cons.mp hc with rfl | hc
    · exact List.mem_append_left _ hv
    · exact List.mem_append_right _ (ih hc)

theorem mem_pairVariables {ps : List (Scalar × Scalar)} (hc : c ∈ flatPairs ps) (hv : v ∈ c.mentioned) :
    v ∈ pairVariables ps := by
  induction ps with
  | nil => cases hc
  | cons p ps ih =>
    obtain ⟨x, y⟩ := p
    simp only [flatPairs, List.flatMap_cons, List.cons_append, List.nil_append, List.mem_cons] at hc
    simp only [pairVariables, List.mem_append]
    rcases hc with rfl | rfl | hc
    · exact .inl (.inl hv)
    · exact .inl (.inr hv)
    · exact .inr (ih hc)

theorem mem_declaratorVariables {ds : List (Variable × Scalar)} (hc : c ∈ ds.map (·.2)) (hv : v ∈ c.mentioned) :
    v ∈ declaratorVariables ds := by
  induction ds with
  | nil => cases hc
  | cons d ds ih =>
    obtain ⟨w, s⟩ := d
    rcases List.mem_cons.mp hc with rfl | hc
    · exact List.mem_append_left _ hv
    · exact List.mem_append_right _ (ih hc)

theorem mem_mentioned_of_child (hc : c ∈ s.children) (hv : v ∈ c.mentioned) : v ∈ s.mentioned := by
  cases s with
  | conditional ps o =>
    rw [children_conditional, List.mem_append] at hc
    rw [mentioned, List.mem_append]
    rcases hc with hc | hc
    · exact .inl (mem_pairVariables hc hv)
    · obtain rfl := Option.mem_toList.mp hc
      exact .inr hv
  | letIn ds b =>
    simp only [children, List.mem_append, List.mem_singleton] at hc
    simp only [mentioned, List.mem_append]
    rcases hc with hc | rfl
    · exact .inl (.inr (mem_declaratorVariables hc hv))
    · exact .inr hv
  | call f ss | aggregate f ss => exact mem_listVariables hc hv
  | immediate _ _ => cases hc
  | var _ => cases hc
  | _ =>
    simp only [children, List.mem_cons, List.not_mem_nil, or_false] at hc
    simp only [mentioned, List.mem_append]
    grind

theorem mem_mentioned_of_at? (h : s.at? p = some (.var v)) : v ∈ s.mentioned := by
  induction p generalizing s with
  | nil =>
    obtain rfl := Option.some.inj h
    exact List.mem_singleton_self v
  | cons i p ih =>
    obtain ⟨c, hc, h⟩ := Option.bind_eq_some_iff.mp h
    exact mem_mentioned_of_child (List.mem_of_getElem? hc) (ih h)

/-- An expression is the same as itself unless a constant in it is not a number. -/
theorem same_self_iff : s.same s = true ↔ ∀ p v t, s.at? p = some (.immediate v t) → v.isNaN = false := by
  induction s using childInduction with
  | node s ih =>
    rw [same_iff, List.forall₂_same]
    constructor
    · rintro ⟨⟨-, hvalue⟩, hchildren⟩ p v t h
      cases p with
      | nil =>
        obtain rfl := Option.some.inj h
        cases hvalue with
        | some h => exact Value.same_self_iff.mp h
      | cons i p =>
        obtain ⟨c, hc, h⟩ := Option.bind_eq_some_iff.mp h
        have hmem := List.mem_of_getElem? hc
        exact (ih c hmem).mp (hchildren c hmem) p v t h
    · intro h
      refine ⟨⟨rfl, ?_⟩, fun c hc => (ih c hc).mpr fun p v t hp => ?_⟩
      · cases s with
        | immediate v t => exact .some (Value.same_self_iff.mpr (h [] v t rfl))
        | _ => exact .none
      · obtain ⟨i, hi⟩ := List.mem_iff_getElem?.mp hc
        exact h (i :: p) v t (by simp [at?, hi, hp])

end Scalar

namespace Aggregation

open Scalar

/-- No column of the entries after a regrouping is a variable of the expression, if those before were
none and the expression has been made of variables minted before. -/
theorem regroup_unused {a : Aggregation} {n : Nat} {location : Option Span} (hknown : ∀ v ∈ s.mentioned, v.id ≤ n)
    (hunused : ∀ e ∈ a.entries, e.destination.isIn s.mentioned = false) (hv : s.at? p = some (.var v)) :
    ∀ e ∈ (s.regroup location ⟨a, n, none⟩).2.aggregation.entries, e.destination.same v = false := by
  have hmem := mem_mentioned_of_at? hv
  have hgrows := (s.regroup_advances location ⟨a, n, none⟩).grows
  obtain ⟨more, hentries, hfresh, -⟩ := hgrows.entries
  intro e he
  rw [hentries, List.mem_append] at he
  rcases he with he | he
  · have hnot := List.any_eq_false.mp (hunused e he) v hmem
    simpa using hnot
  · have hstream := hfresh.stream _ (List.mem_map_of_mem he)
    have habove := hfresh.above _ (List.mem_map_of_mem he)
    by_contra hsame
    have hid := Variable.id_eq_of_same hstream (Variable.same_symm (by simpa using hsame))
    exact absurd (hknown v hmem) (by rw [hid]; exact Nat.not_le.mpr habove)

end Aggregation

namespace Sample

def x : Variable := ⟨1, .stream (some "x")⟩

def k : Variable := ⟨2, .stream (some "k")⟩

def aggregateOf (name : String) (argument : Scalar) : Scalar :=
  .aggregate { id := 1, name, parameters := [.int4], result := .int4 } [argument]

/-- The rows of `x` and `k`, grouped by `k`, with a column for `max(x)`. -/
def groupedByK : Aggregation where
  locals := [x, k]
  keys := [k]
  entries := [⟨{ id := 1, name := "max", parameters := [.int4], result := .int4 }, [.var x],
    ⟨3, .stream (some "max")⟩⟩]
  active := true

/-- `CASE WHEN k = max(x) THEN sum(x) ELSE sum(x) + k END` -/
def sumUnlessMax : Scalar :=
  .conditional [(.compare .equal (.var k) (aggregateOf "max" (.var x)), aggregateOf "sum" (.var x))]
    (some (.binary .add (aggregateOf "sum" (.var x)) (.var k)))

theorem groupedByK_wellFormed : groupedByK.WellFormed 3 where
  different := List.pairwise_singleton _ _
  columns := ⟨by decide, by decide, by decide, List.pairwise_singleton _ _⟩

end Sample

end SqlPlan
