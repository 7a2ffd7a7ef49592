import Mathlib.Logic.Embedding.Basic
import SqlPlan.Analysis.Session

namespace SqlPlan

variable {ν : Nat ↪ Nat}

/-- Numbers moved up by `k`. -/
def raise (k : Nat) : Nat ↪ Nat := ⟨fun i => i + k, fun _ _ h => Nat.add_right_cancel h⟩

theorem modify_map {α β : Type} {f : α → α} {g : β → β} (h : α → β) (hf : ∀ x, g (h x) = h (f x)) :
    ∀ (xs : List α) (i : Nat), (xs.map h).modify i g = (xs.modify i f).map h
  | [], i => by simp
  | x :: xs, 0 => by simp [hf]
  | x :: xs, i + 1 => by simp [modify_map h hf xs i]

theorem map_fst_map {α α' β β' : Type} (f : α → α') (g : β → β') (ps : List (α × β)) :
    (ps.map fun p => (f p.1, g p.2)).map (·.1) = (ps.map (·.1)).map f := by
  rw [List.map_map, List.map_map]
  rfl

theorem map_snd_map {α α' β β' : Type} (f : α → α') (g : β → β') (ps : List (α × β)) :
    (ps.map fun p => (f p.1, g p.2)).map (·.2) = (ps.map (·.2)).map g := by
  rw [List.map_map, List.map_map]
  rfl

namespace Variable

def renumber (ν : Nat ↪ Nat) (v : Variable) : Variable := ⟨ν v.id, v.kind⟩

@[simp] theorem isStream_renumber (v : Variable) : (v.renumber ν).isStream = v.isStream := rfl

@[simp] theorem same_renumber (v w : Variable) : (v.renumber ν).same (w.renumber ν) = v.same w := by
  have hid : (ν v.id == ν w.id) = (v.id == w.id) := by
    rw [Bool.eq_iff_iff, beq_iff_eq, beq_iff_eq, ν.injective.eq_iff]
  simp only [same, isMinted, renumber, hid]

@[simp] theorem isIn_renumber (v : Variable) (vs : List Variable) :
    (v.renumber ν).isIn (vs.map (renumber ν)) = v.isIn vs := by
  simp [isIn, List.any_map, Function.comp_def]

end Variable

namespace Scalar

mutual

def renumber (ν : Nat ↪ Nat) : Scalar → Scalar
  | immediate value type => immediate value type
  | var v => var (v.renumber ν)
  | unary op s => unary op (s.renumber ν)
  | binary op l r => binary op (l.renumber ν) (r.renumber ν)
  | compare op l r => compare op (l.renumber ν) (r.renumber ν)
  | pattern op i p e => pattern op (i.renumber ν) (p.renumber ν) (e.renumber ν)
  | conditional alternatives default => conditional (renumberPairs ν alternatives) (renumberOption ν default)
  | letIn declarators body => letIn (renumberDeclarators ν declarators) (body.renumber ν)
  | cast policy target s => cast policy target (s.renumber ν)
  | call function arguments => call function (renumberList ν arguments)
  | aggregate function arguments => aggregate function (renumberList ν arguments)

def renumberPairs (ν : Nat ↪ Nat) : List (Scalar × Scalar) → List (Scalar × Scalar)
  | [] => []
  | (a, b) :: rest => (a.renumber ν, b.renumber ν) :: renumberPairs ν rest

def renumberOption (ν : Nat ↪ Nat) : Option Scalar → Option Scalar
  | none => none
  | some s => some (s.renumber ν)

def renumberDeclarators (ν : Nat ↪ Nat) : List (Variable × Scalar) → List (Variable × Scalar)
  | [] => []
  | (v, s) :: rest => (v.renumber ν, s.renumber ν) :: renumberDeclarators ν rest

def renumberList (ν : Nat ↪ Nat) : List Scalar → List Scalar
  | [] => []
  | s :: rest => s.renumber ν :: renumberList ν rest

end

@[simp] theorem renumberPairs_eq (ps : List (Scalar × Scalar)) :
    renumberPairs ν ps = ps.map fun p => (p.1.renumber ν, p.2.renumber ν) := by
  induction ps with
  | nil => rfl
  | cons p ps ih => rw [renumberPairs, ih, List.map_cons]

@[simp] theorem renumberOption_eq (o : Option Scalar) : renumberOption ν o = o.map (renumber ν) := by
  cases o <;> rfl

@[simp] theorem renumberDeclarators_eq (ds : List (Variable × Scalar)) :
    renumberDeclarators ν ds = ds.map fun d => (d.1.renumber ν, d.2.renumber ν) := by
  induction ds with
  | nil => rfl
  | cons d ds ih => rw [renumberDeclarators, ih, List.map_cons]

@[simp] theorem renumberList_eq (ss : List Scalar) : renumberList ν ss = ss.map (renumber ν) := by
  induction ss with
  | nil => rfl
  | cons s ss ih => rw [renumberList, ih, List.map_cons]

@[simp] theorem asVariable?_renumber (s : Scalar) :
    (s.renumber ν).asVariable? = s.asVariable?.map (Variable.renumber ν) := by
  cases s <;> rfl

@[simp] theorem constant?_renumber : ∀ s : Scalar, (s.renumber ν).constant? = s.constant?
  | cast _ _ s => constant?_renumber s
  | immediate _ _ | var _ | unary _ _ | binary _ _ _ | compare _ _ _ | pattern _ _ _ _ | conditional _ _
  | letIn _ _ | call _ _ | aggregate _ _ => rfl

@[simp] theorem foldInteger_renumber : ∀ s : Scalar, (s.renumber ν).foldInteger = s.foldInteger
  | cast _ _ s | unary _ s => by rw [renumber, foldInteger, foldInteger, foldInteger_renumber s]
  | binary _ l r => by rw [renumber, foldInteger, foldInteger, foldInteger_renumber l, foldInteger_renumber r]
  | immediate _ _ | var _ | compare _ _ _ | pattern _ _ _ _ | conditional _ _ | letIn _ _ | call _ _
  | aggregate _ _ => rfl

mutual

theorem renumber_refl : ∀ s : Scalar, s.renumber (.refl Nat) = s
  | immediate _ _ | var _ => rfl
  | unary _ s | cast _ _ s => by rw [renumber, renumber_refl s]
  | binary _ l r | compare _ l r => by rw [renumber, renumber_refl l, renumber_refl r]
  | pattern _ i p e => by rw [renumber, renumber_refl i, renumber_refl p, renumber_refl e]
  | conditional ps o => by rw [renumber, renumberPairs_refl ps, renumberOption_refl o]
  | letIn ds b => by rw [renumber, renumberDeclarators_refl ds, renumber_refl b]
  | call _ ss | aggregate _ ss => by rw [renumber, renumberList_refl ss]

theorem renumberPairs_refl : ∀ ps, renumberPairs (.refl Nat) ps = ps
  | [] => rfl
  | (a, b) :: ps => by rw [renumberPairs, renumber_refl a, renumber_refl b, renumberPairs_refl ps]

theorem renumberOption_refl : ∀ o, renumberOption (.refl Nat) o = o
  | none => rfl
  | some s => by rw [renumberOption, renumber_refl s]

theorem renumberDeclarators_refl : ∀ ds, renumberDeclarators (.refl Nat) ds = ds
  | [] => rfl
  | (v, s) :: ds => by
    rw [renumberDeclarators, renumber_refl s, renumberDeclarators_refl ds]
    rfl

theorem renumberList_refl : ∀ ss, renumberList (.refl Nat) ss = ss
  | [] => rfl
  | s :: ss => by rw [renumberList, renumber_refl s, renumberList_refl ss]

end

end Scalar

def AggregateColumn.renumber (ν : Nat ↪ Nat) (c : AggregateColumn) : AggregateColumn :=
  ⟨c.function, c.arguments.map (Variable.renumber ν), c.destination.renumber ν⟩

def UnionMapping.renumber (ν : Nat ↪ Nat) (m : UnionMapping) : UnionMapping :=
  ⟨m.left.map (Variable.renumber ν), m.right.map (Variable.renumber ν), m.destination.renumber ν⟩

def SortKey.renumber (ν : Nat ↪ Nat) (s : SortKey) : SortKey := ⟨s.column.renumber ν, s.order⟩

def Variable.renumberPair (ν : Nat ↪ Nat) (p : Variable × Variable) : Variable × Variable :=
  (p.1.renumber ν, p.2.renumber ν)

def Scalar.renumberDefinition (ν : Nat ↪ Nat) (d : Variable × Scalar) : Variable × Scalar :=
  (d.1.renumber ν, d.2.renumber ν)

mutual

def Operator.renumber (ν : Nat ↪ Nat) : Operator → Operator
  | .scan source columns => .scan source (columns.map (Variable.renumberPair ν))
  | .values columns rows => .values (columns.map (Variable.renumber ν)) (rows.map (·.map (Scalar.renumber ν)))
  | .filter condition => .filter (condition.renumber ν)
  | .project columns => .project (columns.map (Scalar.renumberDefinition ν))
  | .join kind condition => .join kind (condition.map (Scalar.renumber ν))
  | .aggregate keys columns => .aggregate (keys.map (Variable.renumber ν)) (columns.map (AggregateColumn.renumber ν))
  | .union quantifier mappings => .union quantifier (mappings.map (UnionMapping.renumber ν))
  | .intersection quantifier keys => .intersection quantifier (keys.map (Variable.renumberPair ν))
  | .difference quantifier keys => .difference quantifier (keys.map (Variable.renumberPair ν))
  | .distinct keys => .distinct (keys.map (Variable.renumber ν))
  | .limit count sortKeys => .limit count (sortKeys.map (SortKey.renumber ν))
  | .apply kind function arguments columns =>
    .apply kind function (arguments.map (Scalar.renumber ν)) (columns.map fun c => (c.1, c.2.renumber ν))
  | .write kind destination keys columns =>
    .write kind destination (keys.map (Variable.renumberPair ν)) (columns.map (Variable.renumberPair ν))
  | .emit columns => .emit (columns.map fun c => (c.1.renumber ν, c.2))
  | .subquery graph output mappings => .subquery (graph.renumber ν) output (mappings.map (Variable.renumberPair ν))

def Node.renumber (ν : Nat ↪ Nat) : Node → Node
  | ⟨operator, inputs, outputs⟩ => ⟨operator.renumber ν, inputs, outputs⟩

def Node.renumberAll (ν : Nat ↪ Nat) : List Node → List Node
  | [] => []
  | node :: rest => node.renumber ν :: Node.renumberAll ν rest

def Graph.renumber (ν : Nat ↪ Nat) : Graph → Graph
  | ⟨nodes⟩ => ⟨Node.renumberAll ν nodes⟩

end

theorem Variable.renumber_refl : Variable.renumber (.refl Nat) = fun v => v := rfl

theorem Variable.renumberPair_refl : Variable.renumberPair (.refl Nat) = fun p => p := rfl

theorem Scalar.renumberDefinition_refl : renumberDefinition (.refl Nat) = fun d => d :=
  funext fun d => congrArg (Prod.mk d.1) d.2.renumber_refl

theorem SortKey.renumber_refl : SortKey.renumber (.refl Nat) = fun s => s := rfl

theorem AggregateColumn.renumber_refl : AggregateColumn.renumber (.refl Nat) = fun c => c := by
  funext c
  rw [renumber, Variable.renumber_refl, List.map_id']

theorem UnionMapping.renumber_refl : UnionMapping.renumber (.refl Nat) = fun m => m := by
  funext m
  simp [renumber, Variable.renumber_refl]

mutual

theorem Operator.renumber_refl : ∀ o : Operator, o.renumber (.refl Nat) = o
  | .subquery graph _ _ => by
    rw [Operator.renumber, Graph.renumber_refl graph, Variable.renumberPair_refl, List.map_id']
  | .scan _ _ | .values _ _ | .filter _ | .project _ | .join _ _ | .aggregate _ _ | .union _ _ | .intersection _ _
  | .difference _ _ | .distinct _ | .limit _ _ | .apply _ _ _ _ | .write _ _ _ _ | .emit _ => by
    simp [Operator.renumber, Variable.renumber_refl, Variable.renumberPair_refl, SortKey.renumber_refl,
      AggregateColumn.renumber_refl, UnionMapping.renumber_refl, Scalar.renumberDefinition_refl, Scalar.renumber_refl,
      show Scalar.renumber (.refl Nat) = fun s => s from funext Scalar.renumber_refl]

theorem Node.renumber_refl : ∀ n : Node, n.renumber (.refl Nat) = n
  | ⟨operator, _, _⟩ => by rw [Node.renumber, Operator.renumber_refl operator]

theorem Node.renumberAll_refl : ∀ ns : List Node, Node.renumberAll (.refl Nat) ns = ns
  | [] => rfl
  | n :: ns => by rw [Node.renumberAll, Node.renumber_refl n, Node.renumberAll_refl ns]

theorem Graph.renumber_refl : ∀ g : Graph, g.renumber (.refl Nat) = g
  | ⟨nodes⟩ => by rw [Graph.renumber, Node.renumberAll_refl nodes]

end

namespace Graph

theorem nodes_renumber (g : Graph) : (g.renumber ν).nodes = g.nodes.map (Node.renumber ν) := by
  obtain ⟨nodes⟩ := g
  rw [renumber]
  induction nodes with
  | nil => rfl
  | cons node nodes ih => rw [Node.renumberAll, List.map_cons, ← ih]

@[simp] theorem size_renumber (g : Graph) : (g.renumber ν).size = g.size := by
  rw [size, nodes_renumber, List.length_map, size]

theorem eq_renumber_of_nodes {g g' : Graph} (h : g'.nodes = g.nodes.map (Node.renumber ν)) : g' = g.renumber ν := by
  rw [← nodes_renumber] at h
  cases g'
  cases hg : g.renumber ν
  rw [hg] at h
  exact congrArg Graph.mk h

theorem connect_renumber (g : Graph) (output input : Socket) :
    (g.renumber ν).connect output input = (g.connect output input).renumber ν := by
  refine eq_renumber_of_nodes ?_
  rw [connect, nodes_renumber, connect]
  refine modify_map (Node.renumber ν) (fun node => ?_) _ _
  cases node
  rfl

theorem connectAll_renumber (targets : List (Socket × Nat)) (n : Nat) (g : Graph) :
    targets.foldl (fun h (socket, i) => h.connect socket ⟨n, i⟩) (g.renumber ν) =
      (targets.foldl (fun h (socket, i) => h.connect socket ⟨n, i⟩) g).renumber ν := by
  induction targets generalizing g with
  | nil => rfl
  | cons target targets ih => simp only [List.foldl_cons, connect_renumber, ih]

theorem insert_renumber (g : Graph) (operator : Operator) (inputs : List Socket) (n : Nat) :
    (g.renumber ν).insert (operator.renumber ν) inputs n = (g.insert operator inputs n).renumber ν := by
  refine eq_renumber_of_nodes ?_
  simp only [insert, size_renumber, connectAll_renumber, nodes_renumber, List.map_append, List.map_cons, List.map_nil]
  rfl

end Graph

end SqlPlan
