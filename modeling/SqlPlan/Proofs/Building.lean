import SqlPlan.Analysis.Step
import SqlPlan.Proofs.PlanColumns

namespace SqlPlan

namespace Graph

/-- A graph in progress: connected, with an output at every node, and with stream columns at each. -/
structure Sound (g : Graph) : Prop where
  connected : g.Connected
  flowing : ∀ n < g.size, g.outputAt ⟨n, 0⟩ ≠ none
  typed : none ∉ g.columns .both
  streams : ∀ s Γ, g.columnsAt .both s = some Γ → ∀ v ∈ Γ.carriers, v.isStream = true

/-- A sound graph in which only the given output is left open. -/
structure EndsIn (g : Graph) (output : Socket) : Prop where
  sound : g.Sound
  frontier : ∀ s, s ∈ g.frontier ↔ s = output

theorem sound_empty : Sound empty where
  connected := connected_empty
  flowing := by simp [empty, size]
  typed := by simp [empty, columns, Node.columnsOf]
  streams := by simp [empty, columnsAt, columns, Node.columnsOf]

theorem node_lt_of_columnsAt {meet : Meet} {g : Graph} {s : Socket} {Γ : Columns}
    (h : g.columnsAt meet s = some Γ) : s.node < g.size := by
  obtain ⟨_, hs, -⟩ := Option.bind_eq_some_iff.mp h
  have hlt := (List.getElem?_eq_some_iff.mp hs).1
  rwa [length_columns] at hlt

theorem node_lt_of_mem_frontier {g : Graph} {s : Socket} (h : s ∈ g.frontier) : s.node < g.size :=
  node_lt_of_outputAt (mem_frontier.mp h)

variable {g : Graph} {operator : Operator} {inputs : List Socket} {k : Nat}

theorem typed_insert (hg : none ∉ g.columns .both) {Γ : Columns}
    (h : (inputs.mapM (g.columnsAt .both)).bind (operator.columns .both) = some Γ) :
    none ∉ (g.insert operator inputs k).columns .both := by
  rw [columns_insert, h]
  simp [hg]

theorem flowing_insert (hg : ∀ n < g.size, g.outputAt ⟨n, 0⟩ ≠ none) (hd : inputs.Nodup)
    (hf : ∀ s ∈ inputs, s ∈ g.frontier) :
    ∀ n < g.size, (g.insert operator inputs k).outputAt ⟨n, 0⟩ ≠ none := by
  intro n hn
  by_cases hs : (⟨n, 0⟩ : Socket) ∈ inputs
  · obtain ⟨i, hi⟩ := List.getElem?_of_mem hs
    rw [outputAt_insert_read hd (hf _ hs) hi]
    simp
  · rw [outputAt_insert_old (s := ⟨n, 0⟩) hn hs]
    exact hg n hn

theorem streams_insert
    (hg : ∀ s Γ, g.columnsAt .both s = some Γ → ∀ v ∈ Γ.carriers, v.isStream = true) {Γ : Columns}
    (h : (inputs.mapM (g.columnsAt .both)).bind (operator.columns .both) = some Γ)
    (hΓ : ∀ v ∈ Γ.carriers, v.isStream = true) :
    ∀ s Γ', (g.insert operator inputs k).columnsAt .both s = some Γ' →
      ∀ v ∈ Γ'.carriers, v.isStream = true := by
  intro s Γ' hs
  have hlt := node_lt_of_columnsAt hs
  rw [size_insert] at hlt
  rcases Nat.lt_succ_iff_lt_or_eq.mp hlt with hlt | heq
  · rw [columnsAt_insert_old hlt] at hs
    exact hg s Γ' hs
  · obtain ⟨n, i⟩ := s
    obtain rfl : n = g.size := heq
    rw [columnsAt_insert_new, h] at hs
    cases hs
    exact hΓ

theorem Sound.insert (hg : g.Sound) (hd : inputs.Nodup) (hf : ∀ s ∈ inputs, s ∈ g.frontier) {Γ : Columns}
    (h : (inputs.mapM (g.columnsAt .both)).bind (operator.columns .both) = some Γ)
    (hΓ : ∀ v ∈ Γ.carriers, v.isStream = true) : (g.insert operator inputs 1).Sound where
  connected := hg.connected.insert hd hf
  flowing := by
    intro n hn
    rw [size_insert] at hn
    rcases Nat.lt_succ_iff_lt_or_eq.mp hn with hn | rfl
    · exact flowing_insert hg.flowing hd hf n hn
    · simp [outputAt_insert_new]
  typed := typed_insert hg.typed h
  streams := streams_insert hg.streams h hΓ

end Graph

/-- Planning from the first draft to the second has opened the given outputs, which carry columns minted
on the way, and has changed nothing else. -/
structure Builds (d : Draft) (outs : List (Socket × Columns)) (d' : Draft) : Prop where
  minted_le : d.minted ≤ d'.minted
  size_le : d.graph.size ≤ d'.graph.size
  within : ∀ o ∈ outs, o.2.Within d.minted d'.minted
  new : ∀ o ∈ outs, d.graph.size ≤ o.1.node
  columns : ∀ o ∈ outs, d'.graph.columnsAt .both o.1 = some o.2
  kept : ∀ s : Socket, s.node < d.graph.size → d'.graph.columnsAt .both s = d.graph.columnsAt .both s
  nodup : (outs.map (·.1)).Nodup
  frontier : ∀ s, s ∈ d'.graph.frontier ↔ s ∈ d.graph.frontier ∨ s ∈ outs.map (·.1)
  sound : d.graph.Sound → d'.graph.Sound
  subqueries : ∀ p ∈ d'.graph.subqueries, p ∈ d.graph.subqueries ∨ p.1.EndsIn p.2

namespace Builds

variable {d d' d'' : Draft} {outs outs' : List (Socket × Columns)}

theorem refl (d : Draft) : Builds d [] d where
  minted_le := Nat.le_refl _
  size_le := Nat.le_refl _
  within := by simp
  new := by simp
  columns := by simp
  kept _ _ := rfl
  nodup := by simp
  frontier := by simp
  sound := id
  subqueries _ hp := .inl hp

theorem node_lt (h : Builds d outs d') {o : Socket × Columns} (ho : o ∈ outs) : o.1.node < d'.graph.size :=
  Graph.node_lt_of_columnsAt (h.columns o ho)

theorem trans (h : Builds d outs d') (h' : Builds d' outs' d'') : Builds d (outs ++ outs') d'' where
  minted_le := Nat.le_trans h.minted_le h'.minted_le
  size_le := Nat.le_trans h.size_le h'.size_le
  within := List.forall_mem_append.mpr
    ⟨fun o ho => (h.within o ho).mono (Nat.le_refl _) h'.minted_le,
      fun o ho => (h'.within o ho).mono h.minted_le (Nat.le_refl _)⟩
  new := List.forall_mem_append.mpr ⟨h.new, fun o ho => Nat.le_trans h.size_le (h'.new o ho)⟩
  columns := by
    refine List.forall_mem_append.mpr ⟨fun o ho => ?_, h'.columns⟩
    rw [h'.kept o.1 (h.node_lt ho)]
    exact h.columns o ho
  kept s hs := by rw [h'.kept s (Nat.lt_of_lt_of_le hs h.size_le), h.kept s hs]
  nodup := by
    rw [List.map_append]
    refine List.nodup_append.mpr ⟨h.nodup, h'.nodup, ?_⟩
    intro a ha b hb hab
    obtain ⟨o, ho, rfl⟩ := List.mem_map.mp ha
    obtain ⟨o', ho', rfl⟩ := List.mem_map.mp hb
    have hlt := h.node_lt ho
    have hle := h'.new o' ho'
    rw [hab] at hlt
    omega
  frontier s := by
    rw [h'.frontier, h.frontier, List.map_append, List.mem_append]
    exact or_assoc
  sound := h'.sound ∘ h.sound
  subqueries p hp := by
    rcases h'.subqueries p hp with hp | hp
    · exact h.subqueries p hp
    · exact .inr hp

theorem swap {o o' : Socket × Columns} (h : Builds d [o, o'] d') : Builds d [o', o] d' where
  minted_le := h.minted_le
  size_le := h.size_le
  within p hp := h.within p (by simpa [or_comm] using hp)
  new p hp := h.new p (by simpa [or_comm] using hp)
  columns p hp := h.columns p (by simpa [or_comm] using hp)
  kept := h.kept
  nodup := by
    have hd := h.nodup
    simp only [List.map_cons, List.map_nil, List.nodup_cons, List.mem_singleton] at hd ⊢
    exact ⟨Ne.symm hd.1, by simp⟩
  frontier s := by
    rw [h.frontier]
    simp [or_comm]
  sound := h.sound
  subqueries := h.subqueries

theorem mint (h : Builds d outs d') (hk : d'.minted ≤ d''.minted) (hg : d''.graph = d'.graph) :
    Builds d outs d'' := by
  obtain ⟨k, g⟩ := d''
  obtain rfl : g = d'.graph := hg
  exact ⟨Nat.le_trans h.minted_le hk, h.size_le, fun o ho => (h.within o ho).mono (Nat.le_refl _) hk,
    h.new, h.columns, h.kept, h.nodup, h.frontier, h.sound, h.subqueries⟩

section

variable {ins rest : List (Socket × Columns)} {operator : Operator}

theorem frontier_of_mem (h : Builds d outs d') {s : Socket} (hs : s ∈ outs.map (·.1)) :
    s ∈ d'.graph.frontier :=
  (h.frontier s).mpr (.inr hs)

theorem columns_read (h : Builds d (ins ++ rest) d') :
    (ins.map (·.1)).mapM (d'.graph.columnsAt .both) = some (ins.map (·.2)) := by
  rw [mapM_eq_some_iff, List.forall₂_map_left_iff, List.forall₂_map_right_iff, List.forall₂_same]
  exact fun o ho => h.columns o (List.mem_append_left _ ho)

theorem mem_frontier_insert (h : Builds d (ins ++ rest) d') (s : Socket) :
    s ∈ (d'.graph.insert operator (ins.map (·.1)) 1).frontier ↔
      s ∈ d.graph.frontier ∨ s = ⟨d'.graph.size, 0⟩ ∨ s ∈ rest.map (·.1) := by
  have hd := h.nodup
  rw [List.map_append] at hd
  obtain ⟨hins, -, hdisjoint⟩ := List.nodup_append.mp hd
  rw [Graph.mem_frontier_insert hins fun s hs => h.frontier_of_mem (by simp [hs]), h.frontier,
    List.map_append, List.mem_append]
  constructor
  · rintro (⟨hs | hs | hs, hni⟩ | ⟨hn, hi⟩)
    · exact .inl hs
    · exact absurd hs hni
    · exact .inr (.inr hs)
    · exact .inr (.inl (by cases s; simp_all))
  · rintro (hs | rfl | hs)
    · refine .inl ⟨.inl hs, fun hmem => ?_⟩
      -- What was open before is older than all outputs opened since.
      obtain ⟨o, ho, rfl⟩ := List.mem_map.mp hmem
      have hlt := Graph.node_lt_of_mem_frontier hs
      have hle := h.new o (List.mem_append_left _ ho)
      omega
    · exact .inr ⟨rfl, Nat.zero_lt_one⟩
    · exact .inl ⟨.inr (.inr hs), fun hmem => hdisjoint s hmem s hs rfl⟩

theorem insert {Γ : Columns} (h : Builds d (ins ++ rest) d') (hk : d'.minted ≤ d''.minted)
    (hg : d''.graph = d'.graph.insert operator (ins.map (·.1)) 1)
    (hc : operator.columns .both (ins.map (·.2)) = some Γ) (hw : Γ.Within d.minted d''.minted)
    (hs : ∀ p ∈ operator.subqueries, p.1.EndsIn p.2) :
    Builds d ((⟨d'.graph.size, 0⟩, Γ) :: rest) d'' := by
  obtain ⟨k, g⟩ := d''
  obtain rfl : g = d'.graph.insert operator (ins.map (·.1)) 1 := hg
  have hd := h.nodup
  rw [List.map_append] at hd
  obtain ⟨hins, hrest, -⟩ := List.nodup_append.mp hd
  have hnew : ((ins.map (·.1)).mapM (d'.graph.columnsAt .both)).bind (operator.columns .both) = some Γ := by
    rw [h.columns_read]
    exact hc
  have hmem : ∀ o ∈ rest, o ∈ ins ++ rest := fun o ho => List.mem_append_right _ ho
  refine ⟨Nat.le_trans h.minted_le hk, ?_, ?_, ?_, ?_, ?_, ?_, ?_, ?_, ?_⟩
  · rw [Graph.size_insert]
    exact Nat.le_succ_of_le h.size_le
  · refine List.forall_mem_cons.mpr ⟨hw, fun o ho => ?_⟩
    exact (h.within o (hmem o ho)).mono (Nat.le_refl _) hk
  · exact List.forall_mem_cons.mpr ⟨h.size_le, fun o ho => h.new o (hmem o ho)⟩
  · refine List.forall_mem_cons.mpr ⟨?_, fun o ho => ?_⟩
    · rw [Graph.columnsAt_insert_new, hnew]
    · rw [Graph.columnsAt_insert_old (h.node_lt (hmem o ho))]
      exact h.columns o (hmem o ho)
  · intro s hs
    rw [Graph.columnsAt_insert_old (Nat.lt_of_lt_of_le hs h.size_le)]
    exact h.kept s hs
  · rw [List.map_cons]
    refine List.nodup_cons.mpr ⟨fun hold => ?_, hrest⟩
    obtain ⟨o, ho, heq⟩ := List.mem_map.mp hold
    have hlt := h.node_lt (hmem o ho)
    rw [heq] at hlt
    exact Nat.lt_irrefl _ hlt
  · intro s
    rw [h.mem_frontier_insert, List.map_cons, List.mem_cons]
  · refine fun hsound => (h.sound hsound).insert hins (fun s hs => h.frontier_of_mem (by simp [hs])) hnew ?_
    intro v hv
    obtain ⟨p, hp, rfl⟩ := List.mem_map.mp hv
    exact (hw p hp).1
  · intro p hp
    rw [Graph.subqueries_insert] at hp
    rcases List.mem_append.mp hp with hp | hp
    · exact h.subqueries p hp
    · exact .inr (hs p hp)

end

section

variable {operator : Operator} {o o' : Socket} {Γ Γ' Γ₂ : Columns}

theorem source (hk : d.minted ≤ d'.minted) (hg : d'.graph = d.graph.insert operator [] 1)
    (hc : operator.columns .both [] = some Γ) (hw : Γ.Within d.minted d'.minted)
    (hs : ∀ p ∈ operator.subqueries, p.1.EndsIn p.2) : Builds d [(⟨d.graph.size, 0⟩, Γ)] d' := by
  have h : Builds d ([] ++ []) d := refl d
  exact h.insert hk hg hc hw hs

theorem unary (h : Builds d [(o, Γ)] d') (hk : d'.minted ≤ d''.minted)
    (hg : d''.graph = d'.graph.insert operator [o] 1) (hc : operator.columns .both [Γ] = some Γ')
    (hw : Γ'.Within d.minted d''.minted) (hs : operator.subqueries = []) :
    Builds d [(⟨d'.graph.size, 0⟩, Γ')] d'' := by
  have h : Builds d ([(o, Γ)] ++ []) d' := h
  exact h.insert hk hg hc hw (by simp [hs])

theorem binary (h : Builds d [(o, Γ), (o', Γ')] d') (hk : d'.minted ≤ d''.minted)
    (hg : d''.graph = d'.graph.insert operator [o, o'] 1)
    (hc : operator.columns .both [Γ, Γ'] = some Γ₂) (hw : Γ₂.Within d.minted d''.minted)
    (hs : operator.subqueries = []) : Builds d [(⟨d'.graph.size, 0⟩, Γ₂)] d'' := by
  have h : Builds d ([(o, Γ), (o', Γ')] ++ []) d' := h
  exact h.insert hk hg hc hw (by simp [hs])

end

end Builds

end SqlPlan
