import SqlPlan.Proofs.Renumbering
import SqlPlan.Proofs.Wiring

namespace SqlPlan

def Socket.relocate (k : Nat) (s : Socket) : Socket := ⟨s.node + k, s.index⟩

def Node.relocate (k : Nat) (n : Node) : Node :=
  ⟨n.operator, n.inputs.map (Option.map (Socket.relocate k)), n.outputs.map (Option.map (Socket.relocate k))⟩

theorem modify_append_right {α : Type} (xs ys : List α) (n : Nat) (f : α → α) :
    (xs ++ ys).modify (n + xs.length) f = xs ++ ys.modify n f := by
  induction xs with
  | nil => rfl
  | cons x xs ih =>
    rw [List.length_cons, ← Nat.add_assoc, List.cons_append, List.modify_succ_cons, ih, List.cons_append]

namespace Graph

variable (g h : Graph)

def onto : Graph := ⟨g.nodes ++ h.nodes.map (Node.relocate g.size)⟩

theorem onto_empty : g.onto empty = g := by
  cases g
  simp [onto, empty]

theorem empty_onto : empty.onto h = h := by
  have hrelocate : Node.relocate 0 = id := by
    funext n
    cases n
    simp [Node.relocate, show Socket.relocate 0 = id from rfl]
  cases h
  simp [onto, empty, size, hrelocate]

theorem operators_onto : (g.onto h).operators = g.operators ++ h.operators := by
  rw [operators, onto, List.map_append, List.map_map]
  rfl

theorem size_onto : (g.onto h).size = h.size + g.size := by
  simp [onto, size, Nat.add_comm]

theorem connect_onto (output input : Socket) :
    (g.onto h).connect (output.relocate g.size) (input.relocate g.size) = g.onto (h.connect output input) := by
  refine congrArg Graph.mk ((modify_append_right g.nodes _ output.node _).trans ?_)
  refine congrArg (g.nodes ++ ·) (modify_map (Node.relocate g.size) (fun n => ?_) _ _)
  simp [Node.relocate, Socket.relocate, List.map_set]

theorem connectAll_onto (n : Nat) (inputs : List Socket) (k : Nat) :
    (g.onto h).connectAll (n + g.size) (inputs.map (Socket.relocate g.size)) k = g.onto (h.connectAll n inputs k) := by
  induction inputs generalizing h k with
  | nil => rfl
  | cons input inputs ih =>
    have hconnect := g.connect_onto h input ⟨n, k⟩
    have hrest := ih (h.connect input ⟨n, k⟩) (k + 1)
    rw [← hconnect] at hrest
    exact hrest

theorem insert_onto (operator : Operator) (inputs : List Socket) (k : Nat) :
    (g.onto h).insert operator (inputs.map (Socket.relocate g.size)) k = g.onto (h.insert operator inputs k) := by
  have hnodes : ((g.onto h).insert operator (inputs.map (Socket.relocate g.size)) k).nodes =
      g.nodes ++ (h.insert operator inputs k).nodes.map (Node.relocate g.size) := by
    rw [insert_nodes, insert_nodes, size_onto, connectAll_onto]
    simp [onto, Node.relocate]
  exact congrArg Graph.mk hnodes

end Graph

def Draft.onto (g : Graph) (d : Draft) : Draft := ⟨d.minted, g.onto d.graph⟩

def Planned.relocate (k : Nat) (p : Planned) : Planned := ⟨p.output.relocate k, p.relation⟩

end SqlPlan
