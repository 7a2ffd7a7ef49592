import Mathlib.Data.List.Induction
import SqlPlan.Proofs.PlanSoundness

namespace SqlPlan

variable {α : Type} {xs : List α} {g : Graph} {keys : List (Variable × Variable)} {Γ₁ Γ₂ : Columns}
  {operator : Operator} {Γs : List Columns} {inputs : List (Option Socket)} {n : Node}

open List (Forall₂)

variable {Q : Type} {meet : Meet}

/-- The columns that an operator makes available, over inputs that make the given ones available. -/
def Operator.provides (operator : Operator) (inputs : List (List Variable)) : List Variable :=
  match operator with
  | .scan _ columns => columns.map (·.2)
  | .values columns _ => columns
  | .filter _ => inputs.flatten
  | .project columns => inputs.flatten ++ columns.map (·.1)
  | .join _ _ => inputs.flatten
  | .aggregate keys columns => keys ++ columns.map (·.destination)
  | .union _ mappings => mappings.map (·.destination)
  | .intersection _ keys => keys.map (·.1)
  | .difference _ keys => keys.map (·.1)
  | .distinct keys => keys
  | .limit _ _ => inputs.flatten
  | .apply _ _ _ columns => inputs.flatten ++ columns.map (·.2)
  | .write _ _ _ _ => []
  | .emit _ => []
  | .subquery _ _ mappings => mappings.map (·.2)

def availableFrom (done : List (List Variable)) (input : Option Socket) : List Variable :=
  (input.bind fun s => done[s.node]?).getD []

def Graph.available (g : Graph) : List (List Variable) :=
  g.nodes.foldl (fun done n => done ++ [n.operator.provides (n.inputs.map (availableFrom done))]) []

/-- The stream columns among the second variables are stream columns among the first. -/
def Available (vs rs : List Variable) : Prop :=
  ∀ v ∈ rs, v.isStream = true → ∃ w ∈ vs, w.isStream = true ∧ v.same w = true

/-- The operator finds the stream columns that it reads. A projection reads its input and none of its own
columns, a set operation reads each operand's columns at its own input, and a subquery reads the output of
the graph inside. -/
def Operator.Fed (operator : Operator) (inputs : List (List Variable)) : Prop :=
  match operator with
  | .scan _ _ => True
  | .values _ rows => Available [] (rows.flatMap Scalar.listVariables)
  | .filter condition => Available inputs.flatten condition.mentioned
  | .project columns => Available inputs.flatten (columns.flatMap (·.2.mentioned))
  | .join _ condition => Available inputs.flatten (Scalar.optionVariables condition)
  | .aggregate keys columns => Available inputs.flatten (keys ++ columns.flatMap (·.arguments))
  | .union _ mappings =>
    Available (inputs[0]?.getD []) (mappings.filterMap (·.left)) ∧
      Available (inputs[1]?.getD []) (mappings.filterMap (·.right))
  | .intersection _ keys =>
    Available (inputs[0]?.getD []) (keys.map (·.1)) ∧ Available (inputs[1]?.getD []) (keys.map (·.2))
  | .difference _ keys =>
    Available (inputs[0]?.getD []) (keys.map (·.1)) ∧ Available (inputs[1]?.getD []) (keys.map (·.2))
  | .distinct keys => Available inputs.flatten keys
  | .limit _ sortKeys => Available inputs.flatten (sortKeys.map (·.column))
  | .apply _ _ arguments _ => Available inputs.flatten (Scalar.listVariables arguments)
  | .write _ _ keys columns => Available inputs.flatten ((keys ++ columns).map (·.1))
  | .emit columns => Available inputs.flatten (columns.map (·.1))
  | .subquery graph output mappings =>
    Available (availableFrom graph.available (some output)) (mappings.map (·.1))

def Graph.Fed (g : Graph) : Prop :=
  ∀ n ∈ g.nodes, n.operator.Fed (n.inputs.map (availableFrom g.available))

section Available

variable {Γ Γ' : Columns} {vs rs rs' : List Variable}

theorem Available.of_covered (hΓ : ∀ v ∈ Γ.carriers, v.isStream = true) (h : Scalar.Covered Γ.type? rs) :
    Available Γ.carriers rs := by
  intro v hv hs
  have hin := h v hv hs
  rw [Columns.isSome_type?] at hin
  obtain ⟨w, hw, hsame⟩ := Variable.isIn_iff.mp hin
  exact ⟨w, hw, hΓ w hw, hsame⟩

theorem Available.append (h : Available vs rs) (h' : Available vs rs') : Available vs (rs ++ rs') := by
  intro v hv
  rcases List.mem_append.mp hv with hv | hv
  · exact h v hv
  · exact h' v hv

theorem Available.flatMap {f : α → List Variable} (h : ∀ x ∈ xs, Available vs (f x)) :
    Available vs (xs.flatMap f) := by
  intro v hv
  obtain ⟨x, hx, hv⟩ := List.mem_flatMap.mp hv
  exact h x hx v hv

theorem Columns.covered_of_select (h : Γ.select vs = some Γ') : Scalar.Covered Γ.type? vs := by
  intro v hv _
  obtain ⟨p, hp⟩ := exists_of_mapM h hv
  obtain ⟨t, ht, -⟩ := Option.map_eq_some_iff.mp hp
  exact Option.isSome_of_eq_some ht

theorem Columns.carriers_of_mapM {f : α → Option (Variable × SqlType)} {g : α → Variable}
    (hf : ∀ x p, f x = some p → p.1 = g x) (h : xs.mapM f = some Γ) : Γ.carriers = xs.map g :=
  map_eq_of_forall₂ ((mapM_eq_some_iff.mp h).imp hf)

theorem fst_of_map_eq_some {o : Option α} {v : Variable} {f : α → SqlType} {p : Variable × SqlType}
    (h : o.map (fun a => (v, f a)) = some p) : p.1 = v := by
  obtain ⟨a, -, rfl⟩ := Option.map_eq_some_iff.mp h
  rfl

theorem Columns.carriers_of_select (h : Γ.select vs = some Γ') : Γ'.carriers = vs := by
  have hcarriers := Columns.carriers_of_mapM (g := id) (fun v _ hp => fst_of_map_eq_some hp) h
  rwa [List.map_id] at hcarriers

end Available

theorem carriers_keptColumns {Γ : Columns} (h : keptColumns meet keys Γ₁ Γ₂ = some Γ) :
    Γ.carriers = keys.map (·.1) := by
  refine Columns.carriers_of_mapM (fun k p hp => ?_) h
  simp only [Option.bind_eq_bind, Option.bind_eq_some_iff, Option.pure_def, Option.some.injEq] at hp
  obtain ⟨_, -, _, -, _, -, rfl⟩ := hp
  rfl

theorem Operator.carriers_of_columns {Γ : Columns} (h : operator.columns meet Γs = some Γ) :
    Γ.carriers = operator.provides (Γs.map Columns.carriers) := by
  have happend : ∀ Γ₁ Γ₂ : Columns, Columns.carriers (Γ₁ ++ Γ₂) = Γ₁.carriers ++ Γ₂.carriers :=
    fun Γ₁ Γ₂ => List.map_append
  rw [Operator.columns.eq_def] at h
  split at h
  case h_1 => exact Columns.carriers_of_mapM (fun _ _ hp => fst_of_map_eq_some hp) h
  case h_2 columns rows =>
    obtain ⟨types, -, h⟩ := Option.bind_eq_some_iff.mp h
    have hcarriers := Columns.carriers_of_mapM (g := Prod.fst) (fun _ _ hp => fst_of_map_eq_some hp) h
    rwa [List.zipIdx_map_fst] at hcarriers
  case h_3 condition Γ₁ =>
    obtain ⟨_, -, rfl⟩ := Option.map_eq_some_iff.mp h
    simp [provides]
  case h_4 columns Γ₁ =>
    simp only [Option.bind_eq_bind, Option.bind_eq_some_iff, Option.pure_def, Option.some.injEq] at h
    obtain ⟨computed, hcomputed, rfl⟩ := h
    have hcarriers := Columns.carriers_of_mapM (g := Prod.fst) (fun _ _ hp => fst_of_map_eq_some hp) hcomputed
    simp [provides, happend, hcarriers]
  case h_5 kind Γ₁ Γ₂ =>
    cases h
    simp [provides, happend]
  case h_6 kind condition Γ₁ Γ₂ =>
    obtain ⟨_, -, rfl⟩ := Option.map_eq_some_iff.mp h
    simp [provides, happend]
  case h_7 keys columns Γ₁ =>
    simp only [Option.bind_eq_bind, Option.bind_eq_some_iff, Option.pure_def, Option.some.injEq] at h
    obtain ⟨grouped, hgrouped, computed, hcomputed, rfl⟩ := h
    have hcarriers := Columns.carriers_of_mapM (g := AggregateColumn.destination)
      (fun _ _ hp => fst_of_map_eq_some hp) hcomputed
    rw [happend, Columns.carriers_of_select hgrouped, hcarriers]
    rfl
  case h_8 quantifier mappings Γ₁ Γ₂ =>
    exact Columns.carriers_of_mapM (fun _ _ hp => fst_of_map_eq_some hp) h
  case h_9 quantifier keys Γ₁ Γ₂ => exact carriers_keptColumns h
  case h_10 quantifier keys Γ₁ Γ₂ => exact carriers_keptColumns h
  case h_11 keys Γ₁ => exact Columns.carriers_of_select h
  case h_12 count sortKeys Γ₁ =>
    obtain ⟨_, -, rfl⟩ := Option.map_eq_some_iff.mp h
    simp [provides]
  case h_13 kind function arguments columns Γ₁ =>
    simp only [Option.bind_eq_bind, Option.bind_eq_some_iff, Option.pure_def, Option.some.injEq] at h
    obtain ⟨_, -, computed, hcomputed, rfl⟩ := h
    have hcarriers := Columns.carriers_of_mapM (g := Prod.snd) (fun _ _ hp => fst_of_map_eq_some hp) hcomputed
    simp [provides, happend, hcarriers]
  case h_14 kind destination keys columns Γ₁ =>
    obtain ⟨_, -, rfl⟩ := Option.map_eq_some_iff.mp h
    rfl
  case h_15 columns Γ₁ =>
    obtain ⟨_, -, rfl⟩ := Option.map_eq_some_iff.mp h
    rfl
  case h_16 graph output mappings =>
    obtain ⟨Γ₁, -, h⟩ := Option.bind_eq_some_iff.mp h
    exact Columns.carriers_of_mapM (fun _ _ hp => fst_of_map_eq_some hp) h
  case h_17 => cases h

namespace Graph

theorem columns_concat (nodes : List Node) (n : Node) : columns meet ⟨nodes ++ [n]⟩ =
    columns meet ⟨nodes⟩ ++ [n.operator.columnsFrom meet n.inputs (columns meet ⟨nodes⟩)] := by
  simp only [columns_eq, List.map_append, List.foldl_append, List.map_cons, List.map_nil, List.foldl_cons,
    List.foldl_nil]
  rfl

theorem available_concat (nodes : List Node) (n : Node) : available ⟨nodes ++ [n]⟩ =
    available ⟨nodes⟩ ++ [n.operator.provides (n.inputs.map (availableFrom (available ⟨nodes⟩)))] := by
  simp [available]

end Graph

theorem map_availableFrom {columns : List (Option Columns)} {done : List (List Variable)}
    (hdone : columns.map (Option.map Columns.carriers) = done.map some)
    (h : inputs.mapM (fun input => input.bind fun s => columns[s.node]?.join) = some Γs) :
    inputs.map (availableFrom done) = Γs.map Columns.carriers := by
  symm
  refine map_eq_of_forall₂ ((mapM_eq_some_iff.mp h).imp fun input Γ hinput => ?_)
  obtain ⟨s, rfl, hs⟩ := Option.bind_eq_some_iff.mp hinput
  have hget := congrArg (·[s.node]?) hdone
  simp only [List.getElem?_map, Option.join_eq_some_iff.mp hs, Option.map_some] at hget
  obtain ⟨vs, hvs, heq⟩ := Option.map_eq_some_iff.mp hget.symm
  cases heq
  simp [availableFrom, hvs]

theorem Graph.map_carriers_columns (h : none ∉ g.columns meet) :
    (g.columns meet).map (Option.map Columns.carriers) = g.available.map some := by
  obtain ⟨nodes⟩ := g
  induction nodes using List.reverseRecOn with
  | nil => rfl
  | append_singleton nodes n ih =>
    rw [columns_concat, List.mem_append, not_or, List.mem_singleton] at h
    obtain ⟨hold, hnew⟩ := h
    obtain ⟨Γ, hΓ⟩ := Option.ne_none_iff_exists'.mp (Ne.symm hnew)
    obtain ⟨Γs, hΓs, hcolumns⟩ := Option.bind_eq_some_iff.mp hΓ
    rw [columns_concat, available_concat, List.map_append, List.map_append, ih hold, hΓ,
      map_availableFrom (ih hold) hΓs, ← Operator.carriers_of_columns hcolumns]
    rfl

theorem Available.of_keptColumns {Γ : Columns} (hΓ₁ : ∀ v ∈ Γ₁.carriers, v.isStream = true)
    (hΓ₂ : ∀ v ∈ Γ₂.carriers, v.isStream = true) (h : keptColumns meet keys Γ₁ Γ₂ = some Γ) :
    Available Γ₁.carriers (keys.map (·.1)) ∧ Available Γ₂.carriers (keys.map (·.2)) := by
  have hkeys : ∀ k ∈ keys, (Γ₁.type? k.1).isSome = true ∧ (Γ₂.type? k.2).isSome = true := by
    intro k hk
    obtain ⟨p, hp⟩ := exists_of_mapM h hk
    simp only [Option.bind_eq_bind, Option.bind_eq_some_iff] at hp
    obtain ⟨t, ht, u, hu, -⟩ := hp
    exact ⟨Option.isSome_of_eq_some ht, Option.isSome_of_eq_some hu⟩
  constructor
  · refine .of_covered hΓ₁ fun v hv _ => ?_
    obtain ⟨k, hk, rfl⟩ := List.mem_map.mp hv
    exact (hkeys k hk).1
  · refine .of_covered hΓ₂ fun v hv _ => ?_
    obtain ⟨k, hk, rfl⟩ := List.mem_map.mp hv
    exact (hkeys k hk).2

theorem UnionMapping.covered {m : UnionMapping} {t : SqlType} (h : m.type? Γ₁ Γ₂ = some t) :
    Scalar.Covered Γ₁.type? m.left.toList ∧ Scalar.Covered Γ₂.type? m.right.toList := by
  obtain ⟨left, right, destination⟩ := m
  unfold type? at h
  rcases left with _ | l <;> rcases right with _ | r <;> simp only at h
  · cases h
  · exact ⟨.nil, by simp [Scalar.Covered, h]⟩
  · exact ⟨by simp [Scalar.Covered, h], .nil⟩
  · simp only [Option.bind_eq_bind, Option.bind_eq_some_iff] at h
    obtain ⟨_, hl, _, hr, -⟩ := h
    exact ⟨by simp [Scalar.Covered, hl], by simp [Scalar.Covered, hr]⟩

theorem Scalar.listVariables_map_var (vs : List Variable) : listVariables (vs.map .var) = vs := by
  induction vs with
  | nil => rfl
  | cons v vs ih =>
    rw [List.map_cons, listVariables, ih]
    rfl

theorem Graph.availableFrom_of_columnsAt (h : none ∉ g.columns meet) {s : Socket} {Γ : Columns}
    (hs : g.columnsAt meet s = some Γ) : availableFrom g.available (some s) = Γ.carriers := by
  have hread : [some s].mapM (fun input => input.bind fun s => (g.columns meet)[s.node]?.join) = some [Γ] := by
    have hs : (g.columns meet)[s.node]?.join = some Γ := hs
    simp [hs]
  have hmap := map_availableFrom (map_carriers_columns h) hread
  simpa using hmap

theorem Operator.fed_of_columns {Γ : Columns} (hΓs : ∀ Γ ∈ Γs, ∀ v ∈ Γ.carriers, v.isStream = true)
    (hinside : ∀ q ∈ operator.subqueries, q.1.EndsIn q.2) (h : operator.columns .both Γs = some Γ) :
    operator.Fed (Γs.map Columns.carriers) := by
  have hone : ∀ {Γ₁ : Columns} {rs : List Variable}, Γs = [Γ₁] → Scalar.Covered Γ₁.type? rs →
      Available (([Γ₁].map Columns.carriers).flatten) rs := by
    rintro Γ₁ rs rfl hcovered
    have havailable := Available.of_covered (hΓs Γ₁ (by simp)) hcovered
    simpa using havailable
  rw [Operator.columns.eq_def] at h
  split at h
  case h_1 => trivial
  case h_2 columns rows =>
    obtain ⟨types, htypes, -⟩ := Option.bind_eq_some_iff.mp h
    refine Available.flatMap fun row hrow v hv hs => ?_
    obtain ⟨ts, hts⟩ := exists_of_mapM htypes hrow
    cases Scalar.list_covered row hts v hv hs
  case h_3 condition Γ₁ =>
    obtain ⟨_, ht, -⟩ := Option.map_eq_some_iff.mp h
    exact hone rfl (Scalar.covered_of_typeIn condition ht)
  case h_4 columns Γ₁ =>
    obtain ⟨computed, hcomputed, -⟩ := Option.bind_eq_some_iff.mp h
    refine Available.flatMap fun c hc => ?_
    obtain ⟨p, hp⟩ := exists_of_mapM hcomputed hc
    obtain ⟨_, ht, -⟩ := Option.map_eq_some_iff.mp hp
    exact hone rfl (Scalar.covered_of_typeIn c.2 ht)
  case h_5 kind Γ₁ Γ₂ => exact fun v hv => absurd hv List.not_mem_nil
  case h_6 kind condition Γ₁ Γ₂ =>
    obtain ⟨_, ht, -⟩ := Option.map_eq_some_iff.mp h
    have hstreams : ∀ v ∈ Columns.carriers (Γ₁ ++ Γ₂), v.isStream = true := by
      intro v hv
      rw [Columns.carriers, List.map_append] at hv
      rcases List.mem_append.mp hv with hv | hv
      · exact hΓs Γ₁ (by simp) v hv
      · exact hΓs Γ₂ (by simp) v hv
    have havailable := Available.of_covered hstreams (Scalar.covered_of_typeIn condition ht)
    simpa [Fed, Columns.carriers, Scalar.optionVariables] using havailable
  case h_7 keys columns Γ₁ =>
    simp only [Option.bind_eq_bind, Option.bind_eq_some_iff] at h
    obtain ⟨grouped, hgrouped, computed, hcomputed, -⟩ := h
    refine (hone rfl (Columns.covered_of_select hgrouped)).append (.flatMap fun c hc => ?_)
    obtain ⟨p, hp⟩ := exists_of_mapM hcomputed hc
    obtain ⟨_, hts, -⟩ := Option.map_eq_some_iff.mp hp
    have hcovered := Scalar.list_covered _ hts
    rw [Scalar.listVariables_map_var] at hcovered
    exact hone rfl hcovered
  case h_8 quantifier mappings Γ₁ Γ₂ =>
    have hcovered : ∀ m ∈ mappings,
        Scalar.Covered Γ₁.type? m.left.toList ∧ Scalar.Covered Γ₂.type? m.right.toList := by
      intro m hm
      obtain ⟨p, hp⟩ := exists_of_mapM h hm
      obtain ⟨t, ht, -⟩ := Option.map_eq_some_iff.mp hp
      exact UnionMapping.covered ht
    simp only [Fed, List.filterMap_eq_flatMap_toList]
    exact ⟨.flatMap fun m hm => .of_covered (hΓs Γ₁ (by simp)) (hcovered m hm).1,
      .flatMap fun m hm => .of_covered (hΓs Γ₂ (by simp)) (hcovered m hm).2⟩
  case h_9 quantifier keys Γ₁ Γ₂ =>
    exact Available.of_keptColumns (hΓs Γ₁ (by simp)) (hΓs Γ₂ (by simp)) h
  case h_10 quantifier keys Γ₁ Γ₂ =>
    exact Available.of_keptColumns (hΓs Γ₁ (by simp)) (hΓs Γ₂ (by simp)) h
  case h_11 keys Γ₁ => exact hone rfl (Columns.covered_of_select h)
  case h_12 count sortKeys Γ₁ =>
    obtain ⟨_, hselect, -⟩ := Option.map_eq_some_iff.mp h
    exact hone rfl (Columns.covered_of_select hselect)
  case h_13 kind function arguments columns Γ₁ =>
    obtain ⟨_, hts, -⟩ := Option.bind_eq_some_iff.mp h
    exact hone rfl (Scalar.list_covered arguments hts)
  case h_14 kind destination keys columns Γ₁ =>
    obtain ⟨_, hselect, -⟩ := Option.map_eq_some_iff.mp h
    exact hone rfl (Columns.covered_of_select hselect)
  case h_15 columns Γ₁ =>
    obtain ⟨_, hselect, -⟩ := Option.map_eq_some_iff.mp h
    exact hone rfl (Columns.covered_of_select hselect)
  case h_16 graph output mappings =>
    obtain ⟨Γ₁, hΓ₁, h⟩ := Option.bind_eq_some_iff.mp h
    have hsound := (hinside (graph, output) (by simp [subqueries])).sound
    have hat : graph.columnsAt .both output = some Γ₁ := hΓ₁
    rw [Fed, Graph.availableFrom_of_columnsAt hsound.typed hat]
    refine .of_covered (hsound.streams output Γ₁ hat) fun v hv _ => ?_
    obtain ⟨m, hm, rfl⟩ := List.mem_map.mp hv
    obtain ⟨p, hp⟩ := exists_of_mapM h hm
    obtain ⟨t, ht, -⟩ := Option.map_eq_some_iff.mp hp
    exact Option.isSome_of_eq_some ht
  case h_17 => cases h

theorem Operator.columnsFrom_append {done : List (Option Columns)} {Γ : Columns}
    (h : operator.columnsFrom meet inputs done = some Γ) (rest : List (Option Columns)) :
    operator.columnsFrom meet inputs (done ++ rest) = some Γ := by
  obtain ⟨Γs, hΓs, hcolumns⟩ := Option.bind_eq_some_iff.mp h
  refine Option.bind_eq_some_iff.mpr ⟨Γs, ?_, hcolumns⟩
  refine mapM_eq_some_iff.mpr ((mapM_eq_some_iff.mp hΓs).imp fun input Γ hinput => ?_)
  obtain ⟨s, rfl, hs⟩ := Option.bind_eq_some_iff.mp hinput
  have hget := Option.join_eq_some_iff.mp hs
  have hlt := (List.getElem?_eq_some_iff.mp hget).1
  simp [List.getElem?_append_left hlt, hget]

namespace Graph

theorem exists_columnsFrom (h : none ∉ g.columns meet) (hn : n ∈ g.nodes) :
    ∃ Γ, n.operator.columnsFrom meet n.inputs (g.columns meet) = some Γ := by
  obtain ⟨nodes⟩ := g
  induction nodes using List.reverseRecOn with
  | nil => cases hn
  | append_singleton nodes last ih =>
    rw [columns_concat, List.mem_append, not_or, List.mem_singleton] at h
    obtain ⟨hold, hnew⟩ := h
    rw [columns_concat]
    -- The columns before a node stay as they are when more nodes follow.
    rcases List.mem_append.mp hn with hn | hn
    · obtain ⟨Γ, hΓ⟩ := ih hold hn
      exact ⟨Γ, Operator.columnsFrom_append hΓ _⟩
    · obtain rfl := List.mem_singleton.mp hn
      obtain ⟨Γ, hΓ⟩ := Option.ne_none_iff_exists'.mp (Ne.symm hnew)
      exact ⟨Γ, Operator.columnsFrom_append hΓ _⟩

theorem mem_subqueries (hn : n ∈ g.nodes) {q : Graph × Socket} (hq : q ∈ n.operator.subqueries) :
    q ∈ g.subqueries := by
  rw [subqueries_eq, List.mem_flatMap]
  exact ⟨n.content, List.mem_map_of_mem hn, hq⟩

theorem fed_of_typed (htyped : none ∉ g.columns .both)
    (hstreams : ∀ s Γ, g.columnsAt .both s = some Γ → ∀ v ∈ Γ.carriers, v.isStream = true)
    (hinside : ∀ q ∈ g.subqueries, q.1.EndsIn q.2) : g.Fed := by
  intro n hn
  obtain ⟨Γ, hΓ⟩ := exists_columnsFrom htyped hn
  obtain ⟨Γs, hΓs, hcolumns⟩ := Option.bind_eq_some_iff.mp hΓ
  rw [map_availableFrom (map_carriers_columns htyped) hΓs]
  refine Operator.fed_of_columns (fun Γ' hΓ' => ?_) (fun q hq => hinside q (mem_subqueries hn hq)) hcolumns
  obtain ⟨input, -, hinput⟩ := exists_of_forall₂ (mapM_eq_some_iff.mp hΓs) Γ' hΓ'
  obtain ⟨s, -, hs⟩ := Option.bind_eq_some_iff.mp hinput
  exact hstreams s Γ' hs

end Graph

mutual

theorem Operator.subqueries_subset : ∀ (operator : Operator), ∀ q ∈ operator.subqueries,
    ∀ r ∈ q.1.subqueries, r ∈ operator.subqueries
  | .subquery graph output _, q, hq, r, hr => by
    rw [Operator.subqueries] at hq ⊢
    rcases List.mem_cons.mp hq with rfl | hq
    · exact List.mem_cons_of_mem _ hr
    · exact List.mem_cons_of_mem _ (Graph.subqueries_subset graph q hq r hr)

theorem Node.subqueries_subset : ∀ (nodes : List Node), ∀ q ∈ Node.subqueriesOf nodes,
    ∀ r ∈ q.1.subqueries, r ∈ Node.subqueriesOf nodes
  | ⟨operator, _, _⟩ :: rest, q, hq, r, hr => by
    rw [Node.subqueriesOf] at hq ⊢
    rcases List.mem_append.mp hq with hq | hq
    · exact List.mem_append_left _ (Operator.subqueries_subset operator q hq r hr)
    · exact List.mem_append_right _ (Node.subqueries_subset rest q hq r hr)

theorem Graph.subqueries_subset : ∀ (g : Graph), ∀ q ∈ g.subqueries, ∀ r ∈ q.1.subqueries, r ∈ g.subqueries
  | ⟨nodes⟩, q, hq, r, hr => Node.subqueries_subset nodes q hq r hr

end

/-- In every plan, and in every graph inside of one, the operators find the stream columns that they
read. -/
theorem Session.plan_fed {s s' : Session} {statement : Statement (Expr Q)} {p : ExecutionPlan}
    (h : s.resolveStatement statement = (.ok (.plan p), s')) :
    p.graph.Fed ∧ ∀ q ∈ p.graph.subqueries, q.1.Fed := by
  have hsound := plan_sound h
  refine ⟨Graph.fed_of_typed hsound.typed hsound.streams hsound.subqueries, fun q hq => ?_⟩
  have hends := (hsound.subqueries q hq).sound
  refine Graph.fed_of_typed hends.typed hends.streams fun r hr => ?_
  exact hsound.subqueries r (p.graph.subqueries_subset q hq r hr)

theorem Session.plan_fed_countMatches : ∃ p s',
    Sample.tables.resolveStatement Sample.countMatches = (.ok (.plan p), s') ∧
      p.graph.subqueries.length = 2 ∧ p.graph.Fed ∧ ∀ q ∈ p.graph.subqueries, q.1.Fed := by
  have hplan : Sample.tables.planMeets Sample.countMatches (·.graph.subqueries.length == 2) = true := by
    decide +kernel
  obtain ⟨p, s', h, hlength⟩ := exists_plan _ hplan
  exact ⟨p, s', h, beq_iff_eq.mp hlength, plan_fed h⟩

end SqlPlan
