import Mathlib.Data.List.Chain
import Mathlib.Logic.Relation
import SqlPlan.Analysis.Scope
import SqlPlan.Proofs.Wiring

namespace SqlPlan

/-- The walk from a number along links. It ends where there is no further link. -/
inductive Follows (next? : Nat → Option Nat) : Nat → List Nat → Prop where
  | last {i : Nat} : next? i = none → Follows next? i [i]
  | step {i j : Nat} {path : List Nat} : next? i = some j → Follows next? j path → Follows next? i (i :: path)

namespace Follows

variable {next? : Nat → Option Nat} {i : Nat} {path : List Nat}

theorem head?_eq (h : Follows next? i path) : path.head? = some i := by
  cases h with
  | last => rfl
  | step => rfl

theorem isChain (h : Follows next? i path) : path.IsChain fun a b => next? a = some b := by
  induction h with
  | last => exact .singleton _
  | step hj h ih =>
    refine List.isChain_cons.mpr ⟨fun k hk => ?_, ih⟩
    cases h.head?_eq.symm.trans hk
    exact hj

theorem exists_last (h : Follows next? i path) : ∃ root, path.getLast? = some root ∧ next? root = none := by
  induction h with
  | last hi => exact ⟨_, rfl, hi⟩
  | step _ h ih =>
    obtain ⟨root, hroot, hnone⟩ := ih
    exact ⟨root, by simp [List.getLast?_cons, hroot], hnone⟩

theorem mem_iff (h : Follows next? i path) {j : Nat} :
    j ∈ path ↔ Relation.ReflTransGen (fun a b => next? a = some b) i j := by
  induction h with
  | last hi =>
    rw [List.mem_singleton, Relation.ReflTransGen.cases_head_iff]
    simp [hi, eq_comm]
  | step hj _ ih =>
    rw [List.mem_cons, ih]
    constructor
    · rintro (rfl | hreach)
      · exact .refl
      · exact .head hj hreach
    · intro hreach
      rcases hreach.cases_head with rfl | ⟨k, hk, hreach⟩
      · exact .inl rfl
      · cases hj.symm.trans hk
        exact .inr hreach

/-- Along links that go down the walk does. -/
theorem pairwise_gt (h : Follows next? i path) (hdown : ∀ a b, next? a = some b → b < a) : path.Pairwise (· > ·) :=
  List.isChain_iff_pairwise.mp (h.isChain.imp fun a b hab => hdown a b hab)

theorem mem_le (h : Follows next? i path) (hdown : ∀ a b, next? a = some b → b < a) {j : Nat} (hj : j ∈ path) :
    j ≤ i := by
  induction h with
  | last => exact Nat.le_of_eq (List.mem_singleton.mp hj)
  | step hnext _ ih =>
    rcases List.mem_cons.mp hj with rfl | hj
    · exact Nat.le_refl _
    · exact Nat.le_of_lt (Nat.lt_of_le_of_lt (ih hj) (hdown _ _ hnext))

end Follows

namespace ScopeArena

variable {a : ScopeArena}

def parent? (a : ScopeArena) (id : Nat) : Option Nat := a.slots[id]?.bind (·.1)

/-- The arenas that arise from opening scopes within open ones, filling them and closing them. -/
inductive Reached : ScopeArena → Prop where
  | empty : Reached {}
  | opened {a : ScopeArena} {parent : Option Nat} (scope : Scope) : Reached a → (∀ p ∈ parent, p < a.size) →
      Reached (a.push parent scope).2
  | closed {a : ScopeArena} (id : Nat) : Reached a → Reached (a.pop id)
  | filled {a : ScopeArena} (id : Nat) (f : Scope → Scope) : Reached a → Reached (a.update id f)

theorem lt_of_parent? {id parent : Nat} (h : a.parent? id = some parent) : id < a.size := by
  obtain ⟨slot, hslot, -⟩ := Option.bind_eq_some_iff.mp h
  exact (List.getElem?_eq_some_iff.mp hslot).1

/-- A scope is opened after the one that encloses it, also where a number is used again. -/
theorem Reached.parent_lt (h : a.Reached) : ∀ id parent, a.parent? id = some parent → parent < id := by
  induction h with
  | empty => simp [parent?]
  | @opened a p scope _ hp ih =>
    intro id parent hparent
    rcases Nat.lt_trichotomy id a.size with hid | rfl | hid
    · refine ih id parent ?_
      rwa [parent?, push, List.getElem?_append_left hid] at hparent
    · simp only [parent?, push, size, List.getElem?_concat_length, Option.bind_some] at hparent
      exact hp parent hparent
    · have hbound := lt_of_parent? hparent
      simp only [push, size, List.length_append, List.length_singleton] at hbound hid
      omega
  | closed id _ ih =>
    intro i parent hparent
    refine ih i parent ?_
    simp only [parent?, pop, List.getElem?_take] at hparent ⊢
    split at hparent
    · exact hparent
    · cases hparent
  | @filled a id f _ ih =>
    intro i parent hparent
    refine ih i parent ?_
    simp only [parent?, update, List.getElem?_modify] at hparent ⊢
    cases hslot : a.slots[i]? with
    | none => simp [hslot] at hparent
    | some slot => by_cases hi : id = i <;> simpa [hslot, hi] using hparent

theorem climb_follows (hdown : ∀ id parent, a.parent? id = some parent → parent < id) {steps id : Nat}
    (hsteps : id ≤ steps) : Follows a.parent? id (a.climb steps id) := by
  induction steps generalizing id with
  | zero =>
    obtain rfl := Nat.le_zero.mp hsteps
    refine .last (Option.eq_none_iff_forall_ne_some.mpr fun parent hparent => ?_)
    exact Nat.not_lt_zero _ (hdown 0 parent hparent)
  | succ steps ih =>
    rw [climb]
    split
    · rename_i parent scope hslot
      have hparent : a.parent? id = some parent := by simp [parent?, hslot]
      rw [if_pos (hdown id parent hparent)]
      exact .step hparent (ih (Nat.le_of_lt_succ (Nat.lt_of_lt_of_le (hdown id parent hparent) hsteps)))
    · rename_i hnone
      refine .last (Option.eq_none_iff_forall_ne_some.mpr fun parent hparent => ?_)
      obtain ⟨⟨_, scope⟩, hslot, rfl⟩ := Option.bind_eq_some_iff.mp hparent
      exact hnone parent scope hslot

end ScopeArena

namespace Graph

variable {g : Graph}

/-- The graphs that arise from adding operators that read outputs of the graph. -/
inductive Built : Graph → Prop where
  | empty : Built empty
  | add {g : Graph} (operator : Operator) {inputs : List Socket} : Built g → (∀ s ∈ inputs, (g.outputAt s).isSome) →
      Built (g.add operator inputs).2
  | addSink {g : Graph} (operator : Operator) {input : Socket} : Built g → (g.outputAt input).isSome →
      Built (g.addSink operator input).2

theorem Built.wired (h : g.Built) :
    (∀ s, g.inputAt s ≠ some none) ∧ ∀ a b, g.inputAt b = some (some a) → a.node < b.node := by
  have hnode : ∀ {g : Graph} {s : Socket}, (g.outputAt s).isSome → s.node < g.size := by
    intro g s hs
    obtain ⟨o, ho⟩ := Option.isSome_iff_exists.mp hs
    exact node_lt_of_outputAt ho
  induction h with
  | empty => exact ⟨connected_empty.complete, connected_empty.ordered⟩
  | add _ _ hinputs ih => exact ⟨complete_insert ih.1, ordered_insert ih.2 fun s hs => hnode (hinputs s hs)⟩
  | addSink _ _ hinput ih =>
    exact ⟨complete_insert ih.1, ordered_insert ih.2 (List.forall_mem_singleton.mpr (hnode hinput))⟩

theorem feeder?_eq_some {node index up : Nat} :
    g.feeder? node index = some up ↔ ∃ s, g.inputAt ⟨node, index⟩ = some (some s) ∧ s.node = up := by
  simp only [feeder?, inputAt, Option.bind_eq_bind, Option.bind_eq_some_iff, Option.map_eq_some_iff]
  constructor
  · rintro ⟨n, hn, _, hi, s, rfl, rfl⟩
    exact ⟨s, ⟨n, hn, hi⟩, rfl⟩
  · rintro ⟨s, ⟨n, hn, hi⟩, rfl⟩
    exact ⟨n, hn, some s, hi, s, rfl, rfl⟩

theorem Built.feeder_lt (h : g.Built) : ∀ node up, g.feeder? node 0 = some up → up < node := by
  intro node up hup
  obtain ⟨s, hs, rfl⟩ := feeder?_eq_some.mp hup
  exact h.wired.2 s ⟨node, 0⟩ hs

theorem climb_follows (hdown : ∀ node up, g.feeder? node 0 = some up → up < node) {steps node : Nat}
    (hsteps : node ≤ steps) : Follows (g.feeder? · 0) node (g.climb steps node).reverse := by
  induction steps generalizing node with
  | zero =>
    obtain rfl := Nat.le_zero.mp hsteps
    refine .last (Option.eq_none_iff_forall_ne_some.mpr fun up hup => ?_)
    exact Nat.not_lt_zero _ (hdown 0 up hup)
  | succ steps ih =>
    rw [climb]
    split
    · rename_i up hup
      rw [List.reverse_append, List.reverse_singleton]
      exact .step hup (ih (Nat.le_of_lt_succ (Nat.lt_of_lt_of_le (hdown node up hup) hsteps)))
    · rename_i hnone
      exact .last hnone

theorem Built.inputs_eq_nil (h : g.Built) {node : Nat} (hnode : node < g.size) (hnone : g.feeder? node 0 = none) :
    ∃ n, g.nodes[node]? = some n ∧ n.inputs = [] := by
  refine ⟨g.nodes[node], List.getElem?_eq_getElem hnode, List.eq_nil_iff_forall_not_mem.mpr fun o ho => ?_⟩
  obtain ⟨first, rest, hinputs⟩ := List.exists_cons_of_ne_nil (List.ne_nil_of_mem ho)
  have hfirst : g.inputAt ⟨node, 0⟩ = some first := by
    rw [inputAt, List.getElem?_eq_getElem hnode, Option.bind_some, hinputs]
    rfl
  cases first with
  | none => exact h.wired.1 _ hfirst
  | some s => cases hnone.symm.trans (feeder?_eq_some.mpr ⟨s, hfirst, rfl⟩)

end Graph

/-- Walks over arenas end. The chain of an open scope is the walk along the scopes around it: these are open and have
smaller numbers, the last one has none around it, and all scopes that enclose the first one are there. The chain to a
node is the walk along first inputs, backwards: the numbers go up to that of the node, and the first node has no
inputs. -/
theorem chains_end {a : ScopeArena} {g : Graph} (ha : a.Reached) (hg : g.Built) :
    (∀ id < a.size, (∀ parent, a.parent? id = some parent → parent < id ∧ parent < a.size) ∧
      Follows a.parent? id (a.chain id) ∧ (a.chain id).Pairwise (· > ·) ∧
      (∃ root, (a.chain id).getLast? = some root ∧ root < a.size ∧ a.parent? root = none) ∧
      ∀ j, j ∈ a.chain id ↔ Relation.ReflTransGen (fun i parent => a.parent? i = some parent) id j) ∧
    ∀ node < g.size, Follows (g.feeder? · 0) node (g.chainTo node).reverse ∧
      (g.chainTo node).Pairwise (· < ·) ∧ (g.chainTo node).getLast? = some node ∧
      (∃ first n, (g.chainTo node).head? = some first ∧ g.nodes[first]? = some n ∧ n.inputs = []) ∧
      (g.chainTo node).IsChain fun up down => g.feeder? down 0 = some up := by
  constructor
  · intro id hid
    have hwalk : Follows a.parent? id (a.chain id) := ScopeArena.climb_follows ha.parent_lt (Nat.le_refl id)
    obtain ⟨root, hroot, hnone⟩ := hwalk.exists_last
    have hbound := hwalk.mem_le ha.parent_lt (List.mem_of_getLast? hroot)
    refine ⟨fun parent hparent => ?_, hwalk, hwalk.pairwise_gt ha.parent_lt,
      ⟨root, hroot, Nat.lt_of_le_of_lt hbound hid, hnone⟩, fun j => hwalk.mem_iff⟩
    exact ⟨ha.parent_lt id parent hparent, Nat.lt_trans (ha.parent_lt id parent hparent) hid⟩
  · intro node hnode
    have hwalk : Follows (g.feeder? · 0) node (g.chainTo node).reverse :=
      Graph.climb_follows hg.feeder_lt (Nat.le_refl node)
    obtain ⟨first, hfirst, hnone⟩ := hwalk.exists_last
    have hbound := hwalk.mem_le hg.feeder_lt (List.mem_of_getLast? hfirst)
    obtain ⟨n, hn, hinputs⟩ := hg.inputs_eq_nil (Nat.lt_of_le_of_lt hbound hnode) hnone
    have hdown := hwalk.pairwise_gt hg.feeder_lt
    have hlast := hwalk.head?_eq
    have hlinked := hwalk.isChain
    rw [List.getLast?_reverse] at hfirst
    rw [List.pairwise_reverse] at hdown
    rw [List.head?_reverse] at hlast
    rw [List.isChain_reverse] at hlinked
    exact ⟨hwalk, hdown, hlast, ⟨first, n, hfirst, hn, hinputs⟩, hlinked⟩

namespace Sample

def reusedScopes : ScopeArena :=
  let two := (((({} : ScopeArena).push none).2.push (some 0)).2.push (some 1)).2
  ((two.pop 1).push (some 0)).2

/-- A join of two rows that reads the second one first. -/
def swappedJoin : Graph :=
  let rows := ((Graph.empty.add (.values [] [[]]) []).2.add (.values [] [[]]) []).2
  ((rows.add (.join .leftOuter none) [⟨1, 0⟩, ⟨0, 0⟩]).2.addSink (.emit []) ⟨2, 0⟩).2

end Sample

theorem chains_end_swapped : Follows Sample.reusedScopes.parent? 1 [1, 0] ∧
    Follows (Sample.swappedJoin.feeder? · 0) 3 [3, 2, 1] := by
  have hscopes : Sample.reusedScopes.Reached := by
    refine .opened {} (.closed 1 (.opened {} (.opened {} (.opened {} .empty ?_) ?_) ?_)) ?_ <;> decide
  have hgraph : Sample.swappedJoin.Built := by
    refine .addSink _ (.add _ (.add _ (.add _ .empty ?_) ?_) ?_) ?_ <;> decide
  obtain ⟨harena, hnodes⟩ := chains_end hscopes hgraph
  exact ⟨(harena 1 (by decide)).2.1, (hnodes 3 (by decide)).1⟩

end SqlPlan
