import SqlPlan.Plan.Graph

namespace SqlPlan

/-- A node without its outputs, which change as later nodes read them. -/
def Node.content (n : Node) : Operator × List (Option Socket) := (n.operator, n.inputs)

namespace Graph

def inputAt (g : Graph) (s : Socket) : Option (Option Socket) := g.nodes[s.node]?.bind (·.inputs[s.index]?)

def outputAt (g : Graph) (s : Socket) : Option (Option Socket) := g.nodes[s.node]?.bind (·.outputs[s.index]?)

/-- All inputs are connected, each edge is recorded at both ends, and it leads to a later node. -/
structure Connected (g : Graph) : Prop where
  complete : ∀ s, g.inputAt s ≠ some none
  symmetric : ∀ a b, g.inputAt b = some (some a) ↔ g.outputAt a = some (some b)
  ordered : ∀ a b, g.inputAt b = some (some a) → a.node < b.node

theorem mem_frontier {g : Graph} {s : Socket} : s ∈ g.frontier ↔ g.outputAt s = some none := by
  obtain ⟨i, j⟩ := s
  simp only [frontier, outputAt, List.mem_flatMap, List.mem_map, List.mem_filter, Prod.exists,
    List.mem_zipIdx_iff_getElem?, Option.bind_eq_some_iff, Socket.mk.injEq]
  constructor
  · rintro ⟨n, i', hn, o, j', ⟨ho, hnone⟩, rfl, rfl⟩
    rw [Option.isNone_iff_eq_none.mp hnone] at ho
    exact ⟨n, hn, ho⟩
  · rintro ⟨n, hn, ho⟩
    exact ⟨n, i, hn, none, j, ⟨ho, rfl⟩, rfl, rfl⟩

theorem node_lt_of_outputAt {g : Graph} {s : Socket} {o : Option Socket} (h : g.outputAt s = some o) :
    s.node < g.size := by
  obtain ⟨n, hn, -⟩ := Option.bind_eq_some_iff.mp h
  exact (List.getElem?_eq_some_iff.mp hn).1

section Connect

variable (g : Graph) (a b s : Socket)

@[simp] theorem size_connect : (g.connect a b).size = g.size := by simp [connect, size]

theorem content_connect : (g.connect a b).nodes.map Node.content = g.nodes.map Node.content := by
  apply List.ext_getElem?
  intro i
  simp only [connect, List.getElem?_map, List.getElem?_modify]
  cases g.nodes[i]? with
  | none => rfl
  | some n => by_cases h : a.node = i <;> simp [h, Node.content]

theorem inputAt_connect : (g.connect a b).inputAt s = g.inputAt s := by
  simp only [inputAt, connect, List.getElem?_modify]
  cases g.nodes[s.node]? with
  | none => rfl
  | some n => by_cases h : a.node = s.node <;> simp [h]

theorem outputAt_connect_self : (g.connect a b).outputAt a = (g.outputAt a).map fun _ => some b := by
  simp only [outputAt, connect, List.getElem?_modify]
  cases g.nodes[a.node]? with
  | none => rfl
  | some n =>
    simp only [if_true, Option.map_eq_map, Option.map_some, Option.bind_some, List.getElem?_set_self']
    rfl

theorem outputAt_connect_of_ne (h : s ≠ a) : (g.connect a b).outputAt s = g.outputAt s := by
  simp only [outputAt, connect, List.getElem?_modify]
  cases g.nodes[s.node]? with
  | none => rfl
  | some n =>
    by_cases hn : a.node = s.node
    · have hi : a.index ≠ s.index := by
        intro hi
        exact h (by cases s; cases a; simp_all)
      simp [hn, List.getElem?_set_ne hi]
    · simp [hn]

end Connect

def connectAll (g : Graph) (n : Nat) (inputs : List Socket) (k : Nat) : Graph :=
  (inputs.zipIdx k).foldl (fun h (socket, i) => h.connect socket ⟨n, i⟩) g

theorem insert_nodes (g : Graph) (operator : Operator) (inputs : List Socket) (k : Nat) :
    (g.insert operator inputs k).nodes = (g.connectAll g.size inputs 0).nodes ++
      [⟨operator, inputs.map some, List.replicate k none⟩] := rfl

section ConnectAll

variable (g : Graph) (n : Nat) (inputs : List Socket) (k : Nat)

@[simp] theorem size_connectAll : (g.connectAll n inputs k).size = g.size := by
  induction inputs generalizing g k with
  | nil => rfl
  | cons a inputs ih => exact (ih _ _).trans (size_connect g a _)

theorem content_connectAll :
    (g.connectAll n inputs k).nodes.map Node.content = g.nodes.map Node.content := by
  induction inputs generalizing g k with
  | nil => rfl
  | cons a inputs ih => exact (ih _ _).trans (content_connect g a _)

theorem inputAt_connectAll (s : Socket) : (g.connectAll n inputs k).inputAt s = g.inputAt s := by
  induction inputs generalizing g k with
  | nil => rfl
  | cons a inputs ih => exact (ih _ _).trans (inputAt_connect g a _ s)

theorem outputAt_connectAll_of_not_mem {s : Socket} (h : s ∉ inputs) :
    (g.connectAll n inputs k).outputAt s = g.outputAt s := by
  induction inputs generalizing g k with
  | nil => rfl
  | cons a inputs ih =>
    simp only [List.mem_cons, not_or] at h
    exact (ih _ _ h.2).trans (outputAt_connect_of_ne g a _ s h.1)

theorem outputAt_connectAll_getElem {s : Socket} {i : Nat} (hd : inputs.Nodup) (hi : inputs[i]? = some s) :
    (g.connectAll n inputs k).outputAt s = (g.outputAt s).map fun _ => some ⟨n, k + i⟩ := by
  induction inputs generalizing g k i with
  | nil => simp at hi
  | cons a inputs ih =>
    obtain ⟨ha, hd⟩ := List.nodup_cons.mp hd
    change (connectAll (g.connect a ⟨n, k⟩) n inputs (k + 1)).outputAt s = _
    cases i with
    | zero =>
      simp only [List.getElem?_cons_zero, Option.some.injEq] at hi
      subst hi
      rw [outputAt_connectAll_of_not_mem _ _ _ _ ha, outputAt_connect_self]
      rfl
    | succ i =>
      rw [List.getElem?_cons_succ] at hi
      have hne : s ≠ a := by
        rintro rfl
        exact ha (List.mem_of_getElem? hi)
      rw [ih _ _ hd hi, outputAt_connect_of_ne g a _ s hne]
      simp [Nat.add_assoc, Nat.add_comm 1 i]

end ConnectAll

section Insert

variable {g : Graph} {operator : Operator} {inputs : List Socket} {k : Nat}

@[simp] theorem size_insert : (g.insert operator inputs k).size = g.size + 1 := by
  have h := size_connectAll g g.size inputs 0
  simp only [size] at h
  simp [size, insert_nodes, h]

theorem content_insert : (g.insert operator inputs k).nodes.map Node.content =
    g.nodes.map Node.content ++ [(operator, inputs.map some)] := by
  rw [insert_nodes, List.map_append, content_connectAll]
  rfl

def operators (g : Graph) : List Operator := g.nodes.map (·.operator)

theorem length_operators (g : Graph) : g.operators.length = g.size := by simp [operators, size]

theorem operators_insert : (g.insert operator inputs k).operators = g.operators ++ [operator] := by
  have h : ∀ g : Graph, g.operators = (g.nodes.map Node.content).map (·.1) := by
    intro g
    simp [operators, Node.content]
  rw [h, h, content_insert, List.map_append]
  rfl

theorem getElem?_insert_old {i : Nat} (h : i < g.size) :
    (g.insert operator inputs k).nodes[i]? = (g.connectAll g.size inputs 0).nodes[i]? := by
  rw [insert_nodes, List.getElem?_append_left]
  rwa [← size_connectAll g g.size inputs 0] at h

theorem getElem?_insert_new : (g.insert operator inputs k).nodes[g.size]? =
    some ⟨operator, inputs.map some, List.replicate k none⟩ := by
  have hsize : (g.connectAll g.size inputs 0).nodes.length = g.size := size_connectAll g g.size inputs 0
  rw [insert_nodes, List.getElem?_append_right (by omega), hsize, Nat.sub_self]
  rfl

theorem getElem?_insert_beyond {i : Nat} (h : g.size < i) :
    (g.insert operator inputs k).nodes[i]? = none := by
  refine List.getElem?_eq_none ?_
  have hsize : (g.insert operator inputs k).size = g.size + 1 := size_insert
  simp only [size] at hsize h ⊢
  omega

theorem inputAt_insert_old {s : Socket} (h : s.node < g.size) :
    (g.insert operator inputs k).inputAt s = g.inputAt s := by
  rw [inputAt, getElem?_insert_old h]
  exact inputAt_connectAll g g.size inputs 0 s

theorem inputAt_insert_new {i : Nat} :
    (g.insert operator inputs k).inputAt ⟨g.size, i⟩ = inputs[i]?.map some := by
  simp [inputAt, getElem?_insert_new]

theorem outputAt_insert_new {i : Nat} :
    (g.insert operator inputs k).outputAt ⟨g.size, i⟩ = if i < k then some none else none := by
  simp [outputAt, getElem?_insert_new, List.getElem?_replicate]

theorem outputAt_insert_old {s : Socket} (h : s.node < g.size) (hs : s ∉ inputs) :
    (g.insert operator inputs k).outputAt s = g.outputAt s := by
  rw [outputAt, getElem?_insert_old h]
  exact outputAt_connectAll_of_not_mem g g.size inputs 0 hs

theorem outputAt_insert_read {s : Socket} {i : Nat} (hd : inputs.Nodup) (hs : s ∈ g.frontier)
    (hi : inputs[i]? = some s) : (g.insert operator inputs k).outputAt s = some (some ⟨g.size, i⟩) := by
  have hs := mem_frontier.mp hs
  rw [outputAt, getElem?_insert_old (node_lt_of_outputAt hs)]
  refine (outputAt_connectAll_getElem g g.size inputs 0 hd hi).trans ?_
  simp [hs]

theorem mem_frontier_insert (hd : inputs.Nodup) (hf : ∀ s ∈ inputs, s ∈ g.frontier) {s : Socket} :
    s ∈ (g.insert operator inputs k).frontier ↔
      (s ∈ g.frontier ∧ s ∉ inputs) ∨ (s.node = g.size ∧ s.index < k) := by
  rw [mem_frontier, mem_frontier]
  obtain ⟨n, i⟩ := s
  rcases Nat.lt_trichotomy n g.size with hn | rfl | hn
  · by_cases hs : (⟨n, i⟩ : Socket) ∈ inputs
    · obtain ⟨j, hj⟩ := List.getElem?_of_mem hs
      simp [outputAt_insert_read hd (hf _ hs) hj, hs, Nat.ne_of_lt hn]
    · simp [outputAt_insert_old (s := ⟨n, i⟩) hn hs, hs, Nat.ne_of_lt hn]
  · have hold : g.outputAt ⟨g.size, i⟩ ≠ some none := fun h =>
      Nat.lt_irrefl _ (node_lt_of_outputAt h)
    simp [outputAt_insert_new, hold]
  · have hold : g.outputAt ⟨n, i⟩ ≠ some none := fun h =>
      Nat.lt_asymm hn (node_lt_of_outputAt h)
    simp [outputAt, getElem?_insert_beyond hn, Nat.ne_of_gt hn] at hold ⊢
    exact fun h => absurd h hold

theorem connected_empty : Connected empty where
  complete := nofun
  symmetric := by simp [inputAt, outputAt, empty]
  ordered := nofun

theorem inputAt_insert_iff {a b : Socket} : (g.insert operator inputs k).inputAt b = some (some a) ↔
    g.inputAt b = some (some a) ∨ (b.node = g.size ∧ inputs[b.index]? = some a) := by
  obtain ⟨n, i⟩ := b
  rcases Nat.lt_trichotomy n g.size with hn | rfl | hn
  · simp [inputAt_insert_old (s := ⟨n, i⟩) hn, Nat.ne_of_lt hn]
  · have hnone : g.inputAt ⟨g.size, i⟩ = none := by simp [inputAt, size]
    simp [inputAt_insert_new, hnone]
  · have hnone : g.nodes[n]? = none := List.getElem?_eq_none (Nat.le_of_lt hn)
    simp [inputAt, getElem?_insert_beyond hn, hnone, Nat.ne_of_gt hn]

theorem outputAt_insert_iff (hd : inputs.Nodup) (hf : ∀ s ∈ inputs, s ∈ g.frontier) {a b : Socket} :
    (g.insert operator inputs k).outputAt a = some (some b) ↔
      g.outputAt a = some (some b) ∨ (b.node = g.size ∧ inputs[b.index]? = some a) := by
  by_cases ha : a ∈ inputs
  · obtain ⟨i, hi⟩ := List.getElem?_of_mem ha
    rw [outputAt_insert_read hd (hf a ha) hi, mem_frontier.mp (hf a ha)]
    simp only [Option.some.injEq, reduceCtorEq, false_or]
    constructor
    · rintro rfl
      exact ⟨rfl, hi⟩
    · rintro ⟨hn, hb⟩
      have hindex : i = b.index :=
        (List.getElem?_inj (List.getElem?_eq_some_iff.mp hi).1 hd).mp (hi.trans hb.symm)
      cases b
      simp_all
  · have hnew : inputs[b.index]? ≠ some a := fun h => ha (List.mem_of_getElem? h)
    simp only [hnew, and_false, or_false]
    obtain ⟨n, i⟩ := a
    rcases Nat.lt_trichotomy n g.size with hn | rfl | hn
    · rw [outputAt_insert_old (s := ⟨n, i⟩) hn ha]
    · have hnone : g.outputAt ⟨g.size, i⟩ = none := by simp [outputAt, size]
      rw [outputAt_insert_new, hnone]
      split <;> simp
    · have hnone : g.nodes[n]? = none := List.getElem?_eq_none (Nat.le_of_lt hn)
      simp [outputAt, getElem?_insert_beyond hn, hnone]

theorem complete_insert (h : ∀ s, g.inputAt s ≠ some none) (s : Socket) :
    (g.insert operator inputs k).inputAt s ≠ some none := by
  obtain ⟨n, i⟩ := s
  rcases Nat.lt_trichotomy n g.size with hn | rfl | hn
  · rw [inputAt_insert_old (s := ⟨n, i⟩) hn]
    exact h _
  · simp [inputAt_insert_new]
  · simp [inputAt, getElem?_insert_beyond hn]

theorem ordered_insert (h : ∀ a b, g.inputAt b = some (some a) → a.node < b.node)
    (hinputs : ∀ s ∈ inputs, s.node < g.size) (a b : Socket)
    (hb : (g.insert operator inputs k).inputAt b = some (some a)) : a.node < b.node := by
  rcases inputAt_insert_iff.mp hb with hb | ⟨hn, hi⟩
  · exact h a b hb
  · rw [hn]
    exact hinputs a (List.mem_of_getElem? hi)

theorem Connected.insert (h : g.Connected) (hd : inputs.Nodup) (hf : ∀ s ∈ inputs, s ∈ g.frontier) :
    (g.insert operator inputs k).Connected where
  complete := complete_insert h.complete
  symmetric a b := by rw [inputAt_insert_iff, outputAt_insert_iff hd hf, h.symmetric]
  ordered := ordered_insert h.ordered fun s hs => node_lt_of_outputAt (mem_frontier.mp (hf s hs))

end Insert

end Graph

mutual

/-- The graphs that an operator runs, those inside of them included, each with its output. -/
def Operator.subqueries : Operator → List (Graph × Socket)
  | .subquery graph output _ => (graph, output) :: graph.subqueries
  | _ => []

def Node.subqueriesOf : List Node → List (Graph × Socket)
  | [] => []
  | ⟨operator, _, _⟩ :: rest => operator.subqueries ++ Node.subqueriesOf rest

/-- The graphs inside of a graph at any depth, each with its output. -/
def Graph.subqueries : Graph → List (Graph × Socket)
  | ⟨nodes⟩ => Node.subqueriesOf nodes

end

namespace Graph

theorem subqueries_eq (g : Graph) :
    g.subqueries = (g.nodes.map Node.content).flatMap fun c => c.1.subqueries := by
  obtain ⟨nodes⟩ := g
  rw [subqueries]
  induction nodes with
  | nil => rfl
  | cons n nodes ih =>
    obtain ⟨operator, inputs, outputs⟩ := n
    rw [Node.subqueriesOf, ih]
    rfl

theorem subqueries_insert (g : Graph) (operator : Operator) (inputs : List Socket) (k : Nat) :
    (g.insert operator inputs k).subqueries = g.subqueries ++ operator.subqueries := by
  rw [subqueries_eq, subqueries_eq, content_insert, List.flatMap_append]
  simp

end Graph

end SqlPlan
