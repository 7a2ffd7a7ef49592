import Mathlib.Data.List.Nodup
import SqlPlan.Catalog.Builtin

namespace SqlPlan

namespace Entries

variable {α : Type} {m : Entries α} {key k : String} {default v : α} {f : α → α} {p : String × α}
  {N : String → α → Prop}

theorem lookup_upsert : (m.upsert key default f).lookup k =
    if k = key then some (f ((m.lookup key).getD default)) else m.lookup k := by
  induction m with
  | nil =>
    by_cases hk : k = key
    · simp [upsert, hk]
    · simp [upsert, hk, List.lookup_cons, beq_eq_false_iff_ne.mpr hk]
  | cons p m ih =>
    obtain ⟨l, w⟩ := p
    by_cases hl : l = key
    · subst hl
      by_cases hk : k = l
      · simp [upsert, hk]
      · simp [upsert, hk, List.lookup_cons, beq_eq_false_iff_ne.mpr hk]
    · by_cases hk : k = l
      · subst hk
        simp [upsert, hl]
      · have hkey : (key == l) = false := beq_eq_false_iff_ne.mpr (Ne.symm hl)
        simp [upsert, hl, List.lookup_cons, beq_eq_false_iff_ne.mpr hk, hkey, ih]

theorem mem_upsert (h : p ∈ m.upsert key default f) :
    p ∈ m ∨ p = (key, f ((m.lookup key).getD default)) := by
  induction m with
  | nil => exact .inr (List.mem_singleton.mp h)
  | cons q m ih =>
    obtain ⟨l, w⟩ := q
    unfold upsert at h
    split at h
    · next hl =>
      subst hl
      rcases List.mem_cons.mp h with rfl | h
      · exact .inr (by simp)
      · exact .inl (List.mem_cons_of_mem _ h)
    · next hl =>
      have hkey : (key == l) = false := beq_eq_false_iff_ne.mpr (Ne.symm hl)
      rw [List.lookup_cons, hkey]
      rcases List.mem_cons.mp h with rfl | h
      · exact .inl List.mem_cons_self
      · exact (ih h).imp_left (List.mem_cons_of_mem _)

theorem insert_eq (h : m.lookup key = none) : m.insert key v = m ++ [(key, v)] := by
  unfold insert
  induction m with
  | nil => rfl
  | cons q m ih =>
    obtain ⟨l, w⟩ := q
    rw [List.lookup_cons] at h
    split at h
    · cases h
    · next hl =>
      rw [upsert, if_neg fun heq => beq_eq_false_iff_ne.mp hl heq.symm, ih h, List.cons_append]

theorem nodup_upsert (key : String) (default : α) (f : α → α) (h : (m.map (·.1)).Nodup) :
    ((m.upsert key default f).map (·.1)).Nodup := by
  induction m with
  | nil => exact List.nodup_singleton key
  | cons q m ih =>
    obtain ⟨l, w⟩ := q
    obtain ⟨hl, hm⟩ := List.nodup_cons.mp h
    unfold upsert
    split
    · exact List.nodup_cons.mpr ⟨hl, hm⟩
    · next hne =>
      refine List.nodup_cons.mpr ⟨fun hmem => ?_, ih hm⟩
      obtain ⟨p, hp, rfl⟩ := List.mem_map.mp hmem
      rcases mem_upsert hp with hp | rfl
      · exact hl (List.mem_map.mpr ⟨p, hp, rfl⟩)
      · exact hne rfl

/-- No key stands twice in the map, and each is a name of what is stored under it. -/
structure Keyed (m : Entries α) (N : String → α → Prop) : Prop where
  nodup : (m.map (·.1)).Nodup
  named : ∀ p ∈ m, N p.1 p.2

namespace Keyed

theorem nil : Keyed ([] : Entries α) N := ⟨List.nodup_nil, by simp⟩

theorem upsert (h : m.Keyed N) (hnew : N key (f ((m.lookup key).getD default))) :
    (m.upsert key default f).Keyed N := by
  refine ⟨nodup_upsert key default f h.nodup, fun p hp => ?_⟩
  rcases mem_upsert hp with hp | rfl
  · exact h.named p hp
  · exact hnew

theorem lookup_iff (h : m.Keyed N) : m.lookup k = some v ↔ (k, v) ∈ m := by
  obtain ⟨hnodup, -⟩ := h
  induction m with
  | nil => simp
  | cons q m ih =>
    obtain ⟨l, w⟩ := q
    obtain ⟨hl, hnodup⟩ := List.nodup_cons.mp hnodup
    rw [List.lookup_cons, List.mem_cons, Prod.mk.injEq]
    by_cases hk : k = l
    · subst hk
      have hnot : (k, v) ∉ m := fun hmem => hl (List.mem_map.mpr ⟨_, hmem, rfl⟩)
      simp [hnot, eq_comm]
    · rw [beq_eq_false_iff_ne.mpr hk, ih hnodup]
      simp [hk]

theorem of_lookup (h : m.Keyed N) (hv : m.lookup k = some v) : N k v := h.named _ (h.lookup_iff.mp hv)

end Keyed

/-- An entry for a key changes nothing where a missing one stands for no values. -/
theorem lookup_touch {m : Entries (List α)} :
    ((m.upsert key [] fun vs => vs).lookup k).getD [] = (m.lookup k).getD [] := by
  rw [lookup_upsert]
  split
  · next h => rw [h, Option.getD_some]
  · rfl

/-- Values of one name, no two of which are alike. -/
def Overloads (name : α → String) (Alike : α → α → Prop) (key : String) (vs : List α) : Prop :=
  (∀ v ∈ vs, name v = key) ∧ vs.Pairwise fun v w => ¬Alike v w

section Overloads

variable {m : Entries (List α)} {name : α → String} {Alike : α → α → Prop}

theorem Keyed.getD (h : m.Keyed (Overloads name Alike)) (key : String) :
    Overloads name Alike key ((m.lookup key).getD []) := by
  cases hvs : m.lookup key with
  | none => exact ⟨by simp, .nil⟩
  | some vs => exact h.of_lookup hvs

theorem Keyed.touch (h : m.Keyed (Overloads name Alike)) (key : String) :
    (m.upsert key [] fun vs => vs).Keyed (Overloads name Alike) := h.upsert (h.getD key)

theorem Keyed.push (h : m.Keyed (Overloads name Alike)) (hname : name v = key)
    (hnew : ∀ w ∈ (m.lookup key).getD [], ¬Alike w v) :
    (m.upsert key [] (· ++ [v])).Keyed (Overloads name Alike) := by
  obtain ⟨hnames, hpairwise⟩ := h.getD key
  refine h.upsert ⟨fun w hw => ?_, List.pairwise_append.mpr ⟨hpairwise, List.pairwise_singleton _ v, ?_⟩⟩
  · rcases List.mem_append.mp hw with hw | hw
    · exact hnames w hw
    · rw [List.mem_singleton.mp hw, hname]
  · intro w hw w' hw'
    rw [List.mem_singleton.mp hw']
    exact hnew w hw

end Overloads

end Entries

namespace Schema

/-- A call that adds to a schema. -/
inductive Addition where
  | table (decl : TableDecl)
  | index (decl : IndexDecl)
  | primaryKey (table : TableDecl) (columns : List String)
  | function (decl : FunctionDecl)
  | aggregate (decl : AggregateDecl)
  | external (decl : VariableDecl)
  | builtins

/-- Why an addition was refused, if it was. -/
def refusal? {α : Type} : Except CatalogError α × Schema → Option CatalogError × Schema
  | (.ok _, s) => (none, s)
  | (.error e, s) => (some e, s)

def perform (s : Schema) : Addition → Option CatalogError × Schema
  | .table t => refusal? (s.addTable t)
  | .index i => refusal? (s.addIndex i)
  | .primaryKey t columns => refusal? (s.addPrimaryKey t columns)
  | .function f => refusal? (s.addFunction f)
  | .aggregate f => refusal? (s.addAggregate f)
  | .external v => refusal? (s.addVariable v)
  | .builtins => refusal? (Builtin.install s)

/-- The schema after additions in turn, some of which may be refused. -/
def run : Schema → List Addition → Schema
  | s, [] => s
  | s, a :: rest => run (s.perform a).2 rest

/-- A schema of the given name in order. Every key of a map is the name of what is stored under it, and an
index holds the very table that is stored under the name of its table. The last two fields are about the ids
of tables: they are numbered in turn, so a table of another schema or another table of this one is never the
same object. -/
structure WellFormed (s : Schema) (name : String) : Prop where
  name_eq : s.name = name
  tables : s.tableMap.Keyed fun key t => t.name = key ∧ t.schema = name
  indexes : s.indexMap.Keyed fun key i => i.name = key
  externals : s.externalMap.Keyed fun key v => v.name = key
  functions : s.functionMap.Keyed (Entries.Overloads FunctionDecl.name fun f g => f.parameters = g.parameters)
  aggregates : s.aggregateMap.Keyed (Entries.Overloads AggregateDecl.name fun f g =>
    f.parameters = g.parameters ∧ f.asterisk = g.asterisk)
  owned : ∀ i ∈ s.indexes, s.table? i.table.name = some i.table
  keys : ∀ i ∈ s.indexes, ∀ k ∈ i.keys, k.position < i.table.columns.length
  primary : ∀ i ∈ s.indexes, ∀ j ∈ s.indexes, i.primary = true → j.primary = true → i.table = j.table → i = j
  numbered : ∀ t ∈ s.tables, t.oid.home = s.id ∧ 0 < t.oid.number ∧ t.oid.number ≤ s.stored
  distinct : s.tables.Pairwise fun t u => t.oid ≠ u.oid

/-- What can be looked up in the second schema is what can be looked up in the first. -/
structure SameLookups (s s' : Schema) : Prop where
  name : s'.name = s.name
  tables : s'.tables = s.tables
  table? : ∀ name, s'.table? name = s.table? name
  index? : ∀ name, s'.index? name = s.index? name
  primaryIndex? : ∀ t, s'.primaryIndex? t = s.primaryIndex? t
  functionsNamed : ∀ name, s'.functionsNamed name = s.functionsNamed name
  aggregatesNamed : ∀ name, s'.aggregatesNamed name = s.aggregatesNamed name
  findVariable? : ∀ name, s'.findVariable? name = s.findVariable? name

theorem SameLookups.refl (s : Schema) : s.SameLookups s :=
  ⟨rfl, rfl, fun _ => rfl, fun _ => rfl, fun _ => rfl, fun _ => rfl, fun _ => rfl, fun _ => rfl⟩

variable {s : Schema} {name : String} {i : IndexDecl} {e : CatalogError}

theorem addTable_cases (s : Schema) (t : TableDecl) :
    (∃ e, s.addTable t = (.error e, s)) ∨
      s.table? t.name = none ∧ ∃ t', t' = { t with oid := s.nextId, schema := s.name } ∧
        s.addTable t = (.ok t', { s with tableMap := s.tableMap.insert t.name t', stored := s.stored + 1 }) := by
  unfold addTable
  cases h : s.table? t.name with
  | some _ => exact .inl ⟨_, rfl⟩
  | none => exact .inr ⟨rfl, _, rfl, rfl⟩

/-- What is asked of an index that is added. -/
structure Accepts (s : Schema) (index : IndexDecl) : Prop where
  new : s.index? index.name = none
  owned : s.table? index.table.name = some index.table
  keys : ∀ k ∈ index.keys, k.position < index.table.columns.length
  primary : index.primary = true → s.primaryIndex? index.table = none

theorem addIndex_cases (s : Schema) (i : IndexDecl) :
    (∃ e, s.addIndex i = (.error e, s)) ∨
      s.Accepts i ∧ s.addIndex i = (.ok i, { s with indexMap := s.indexMap.insert i.name i }) := by
  unfold addIndex
  split
  · exact .inl ⟨_, rfl⟩
  · next hnew =>
    split
    · exact .inl ⟨_, rfl⟩
    · next howned =>
      split
      · exact .inl ⟨_, rfl⟩
      · next hkeys =>
        split
        · exact .inl ⟨_, rfl⟩
        · next hprimary =>
          refine .inr ⟨⟨by simpa using hnew, ?_, ?_, ?_⟩, rfl⟩
          · cases ht : s.table? i.table.name with
            | none => simp [ht] at howned
            | some t => simpa [ht, TableDecl.sameObject] using howned
          · intro k hk
            simpa using List.find?_eq_none.mp hkeys k hk
          · intro hp
            simpa [hp] using hprimary

theorem addIndex_accepted (h : s.Accepts i) :
    s.addIndex i = (.ok i, { s with indexMap := s.indexMap.insert i.name i }) := by
  have hkeys : i.keys.find? (fun k => decide (i.table.columns.length ≤ k.position)) = none :=
    List.find?_eq_none.mpr fun k hk => by simpa using h.keys k hk
  have hprimary : (i.primary && (s.primaryIndex? i.table).isSome) = false := by
    cases hp : i.primary with
    | false => rfl
    | true => rw [h.primary hp]; rfl
  simp [addIndex, h.new, h.owned, TableDecl.sameObject, hkeys, hprimary]

theorem addPrimaryKey_cases (s : Schema) (t : TableDecl) (columns : List String) :
    (∃ e, s.addPrimaryKey t columns = (.error e, s)) ∨
      ∃ positions, s.addPrimaryKey t columns = s.addIndex (.primaryOf (primaryIndexName t.name) t positions) := by
  unfold addPrimaryKey
  dsimp only
  split
  · exact .inl ⟨_, rfl⟩
  · next positions _ => exact .inr ⟨positions, rfl⟩

theorem addVariable_cases (s : Schema) (v : VariableDecl) :
    (∃ e, s.addVariable v = (.error e, s)) ∨
      s.findVariable? v.name = none ∧ ∃ v', v' = { v with oid := s.nextId } ∧ s.addVariable v =
        (.ok v', { s with externalMap := s.externalMap.insert v.name v', stored := s.stored + 1 }) := by
  unfold addVariable
  cases h : s.findVariable? v.name with
  | some _ => exact .inl ⟨_, rfl⟩
  | none => exact .inr ⟨rfl, _, rfl, rfl⟩

theorem addFunction_cases (s : Schema) (f : FunctionDecl) :
    ∃ s₁, s₁ = { s with functionMap := s.functionMap.upsert f.name [] fun fs => fs } ∧
      ((∃ e, s.addFunction f = (.error e, s₁)) ∨
        (∀ g ∈ s₁.functionsNamed f.name, g.parameters ≠ f.parameters) ∧ ∃ f', f' = { f with oid := s₁.nextId } ∧
          s.addFunction f = (.ok f', { s₁ with
            functionMap := s₁.functionMap.upsert f.name [] (· ++ [f']), stored := s₁.stored + 1 })) := by
  refine ⟨_, rfl, ?_⟩
  unfold addFunction
  dsimp only
  split
  · exact .inl ⟨_, rfl⟩
  · next hnew =>
    refine .inr ⟨fun g hg hparameters => hnew ?_, _, rfl, rfl⟩
    exact List.any_eq_true.mpr ⟨g, hg, beq_iff_eq.mpr hparameters⟩

theorem addAggregate_cases (s : Schema) (f : AggregateDecl) :
    ∃ s₁, s₁ = { s with aggregateMap := s.aggregateMap.upsert f.name [] fun fs => fs } ∧
      ((∃ e, s.addAggregate f = (.error e, s₁)) ∨
        (∀ g ∈ s₁.aggregatesNamed f.name, ¬(g.parameters = f.parameters ∧ g.asterisk = f.asterisk)) ∧
          ∃ f', f' = { f with oid := s₁.nextId } ∧ s.addAggregate f = (.ok f', { s₁ with
            aggregateMap := s₁.aggregateMap.upsert f.name [] (· ++ [f']), stored := s₁.stored + 1 })) := by
  refine ⟨_, rfl, ?_⟩
  unfold addAggregate
  dsimp only
  split
  · exact .inl ⟨_, rfl⟩
  · next hnew =>
    refine .inr ⟨?_, _, rfl, rfl⟩
    rintro g hg ⟨hparameters, hasterisk⟩
    refine hnew (List.any_eq_true.mpr ⟨g, hg, ?_⟩)
    rw [hparameters, hasterisk, beq_self_eq_true, beq_self_eq_true, Bool.and_self]

namespace WellFormed

theorem fresh (name : String) (id : Nat) : WellFormed { name, id } name where
  name_eq := rfl
  tables := .nil
  indexes := .nil
  externals := .nil
  functions := .nil
  aggregates := .nil
  owned := by simp [Schema.indexes, Entries.values]
  keys := by simp [Schema.indexes, Entries.values]
  primary := by simp [Schema.indexes, Entries.values]
  numbered := by simp [Schema.tables, Entries.values]
  distinct := .nil

/-- The ids of the tables remain in order when a further number is given. -/
theorem numbered_succ (h : s.WellFormed name) :
    ∀ t ∈ s.tables, t.oid.home = s.id ∧ 0 < t.oid.number ∧ t.oid.number ≤ s.stored + 1 := by
  intro t ht
  obtain ⟨hhome, hpos, hle⟩ := h.numbered t ht
  exact ⟨hhome, hpos, Nat.le_succ_of_le hle⟩

theorem addTable (h : s.WellFormed name) (t : TableDecl) : (s.addTable t).2.WellFormed name := by
  rcases addTable_cases s t with ⟨e, he⟩ | ⟨hnew, t', ht', hadd⟩
  · rwa [he]
  rw [hadd]
  have htables : Schema.tables { s with tableMap := s.tableMap.insert t.name t', stored := s.stored + 1 } =
      s.tables ++ [t'] := by
    unfold Schema.tables
    rw [Entries.insert_eq hnew]
    exact List.map_append
  refine ⟨h.name_eq, h.tables.upsert ⟨by rw [ht'], by rw [ht']; exact h.name_eq⟩, h.indexes, h.externals,
    h.functions, h.aggregates, ?_, h.keys, h.primary, ?_, ?_⟩
  · intro i hi
    have htable := h.owned i hi
    have hne : i.table.name ≠ t.name := by
      intro heq
      rw [heq, hnew] at htable
      cases htable
    exact (Entries.lookup_upsert.trans (if_neg hne)).trans htable
  · rw [htables]
    intro u hu
    rcases List.mem_append.mp hu with hu | hu
    · exact h.numbered_succ u hu
    · rw [List.mem_singleton.mp hu, ht']
      exact ⟨rfl, Nat.succ_pos _, Nat.le_refl _⟩
  · rw [htables]
    refine List.pairwise_append.mpr ⟨h.distinct, List.pairwise_singleton _ _, fun u hu w hw hoid => ?_⟩
    rw [List.mem_singleton.mp hw] at hoid
    have hle := (h.numbered u hu).2.2
    rw [hoid, ht'] at hle
    exact absurd hle (Nat.not_succ_le_self _)

theorem addIndex (h : s.WellFormed name) (i : IndexDecl) : (s.addIndex i).2.WellFormed name := by
  rcases addIndex_cases s i with ⟨e, he⟩ | ⟨⟨hnew, howned, hkeys, hprimary⟩, hadd⟩
  · rwa [he]
  rw [hadd]
  have hindexes : Schema.indexes { s with indexMap := s.indexMap.insert i.name i } = s.indexes ++ [i] := by
    unfold Schema.indexes
    rw [Entries.insert_eq hnew]
    exact List.map_append
  have hcases : ∀ {P : IndexDecl → Prop}, (∀ j ∈ s.indexes, P j) → P i → ∀ j ∈ s.indexes ++ [i], P j := by
    intro P hs hi j hj
    rcases List.mem_append.mp hj with hj | hj
    · exact hs j hj
    · rw [List.mem_singleton.mp hj]
      exact hi
  refine ⟨h.name_eq, h.tables, h.indexes.upsert rfl, h.externals, h.functions, h.aggregates, ?_, ?_, ?_,
    h.numbered, h.distinct⟩
  · rw [hindexes]
    exact hcases h.owned howned
  · rw [hindexes]
    exact hcases h.keys hkeys
  · -- the new index is the only primary one of its table, since none was found
    have honly : ∀ j ∈ s.indexes, j.primary = true → i.primary = true → j.table ≠ i.table := by
      intro j hj hp hp' heq
      have hnone := List.find?_eq_none.mp (hprimary hp') j hj
      simp [hp, TableDecl.sameObject, heq] at hnone
    rw [hindexes]
    refine hcases (fun j hj => hcases (h.primary j hj) ?_) (hcases ?_ fun _ _ _ => rfl)
    · exact fun hp hp' heq => absurd heq (honly j hj hp hp')
    · exact fun j hj hp hp' heq => absurd heq.symm (honly j hj hp' hp)

theorem addPrimaryKey (h : s.WellFormed name) (t : TableDecl) (columns : List String) :
    (s.addPrimaryKey t columns).2.WellFormed name := by
  rcases addPrimaryKey_cases s t columns with ⟨e, he⟩ | ⟨positions, hadd⟩
  · rwa [he]
  · rw [hadd]
    exact h.addIndex _

theorem addFunction (h : s.WellFormed name) (f : FunctionDecl) : (s.addFunction f).2.WellFormed name := by
  obtain ⟨s₁, hs₁, hcases⟩ := addFunction_cases s f
  have hopen : s₁.WellFormed name := hs₁ ▸ { h with functions := h.functions.touch f.name }
  rcases hcases with ⟨e, he⟩ | ⟨hnew, f', hf', hadd⟩
  · rwa [he]
  · rw [hadd]
    have hpushed : (s₁.functionMap.upsert f.name [] (· ++ [f'])).Keyed _ :=
      hopen.functions.push (by rw [hf']) (by rw [hf']; exact hnew)
    exact { hopen with functions := hpushed, numbered := hopen.numbered_succ }

theorem addAggregate (h : s.WellFormed name) (f : AggregateDecl) : (s.addAggregate f).2.WellFormed name := by
  obtain ⟨s₁, hs₁, hcases⟩ := addAggregate_cases s f
  have hopen : s₁.WellFormed name := hs₁ ▸ { h with aggregates := h.aggregates.touch f.name }
  rcases hcases with ⟨e, he⟩ | ⟨hnew, f', hf', hadd⟩
  · rwa [he]
  · rw [hadd]
    have hpushed : (s₁.aggregateMap.upsert f.name [] (· ++ [f'])).Keyed _ :=
      hopen.aggregates.push (by rw [hf']) (by rw [hf']; exact hnew)
    exact { hopen with aggregates := hpushed, numbered := hopen.numbered_succ }

theorem addVariable (h : s.WellFormed name) (v : VariableDecl) : (s.addVariable v).2.WellFormed name := by
  rcases addVariable_cases s v with ⟨e, he⟩ | ⟨-, v', hv', hadd⟩
  · rwa [he]
  · rw [hadd]
    exact { h with externals := h.externals.upsert (by rw [hv']), numbered := h.numbered_succ }

theorem addAll {α : Type} {add : Schema → α → Except CatalogError α × Schema}
    (hadd : ∀ {s : Schema} (a : α), s.WellFormed name → (add s a).2.WellFormed name) (decls : List α)
    (h : s.WellFormed name) : (Builtin.addAll add s decls).2.WellFormed name := by
  induction decls generalizing s with
  | nil => exact h
  | cons decl rest ih =>
    have hstep := hadd decl h
    unfold Builtin.addAll
    rcases hr : add s decl with ⟨_ | a, s'⟩ <;> rw [hr] at hstep
    · exact hstep
    · exact ih hstep

theorem install (h : s.WellFormed name) : (Builtin.install s).2.WellFormed name := by
  have hfunctions := h.addAll (fun f h => h.addFunction f) Builtin.functions
  unfold Builtin.install
  rcases hr : Builtin.addAll Schema.addFunction s Builtin.functions with ⟨_ | a, s'⟩ <;> rw [hr] at hfunctions
  · exact hfunctions
  · exact hfunctions.addAll (fun f h => h.addAggregate f) Builtin.aggregates

end WellFormed

theorem refusal?_snd {α : Type} (r : Except CatalogError α × Schema) : (refusal? r).2 = r.2 := by
  obtain ⟨_ | _, s⟩ := r <;> rfl

/-- An addition keeps the schema in order, also if it is refused. -/
theorem WellFormed.perform (h : s.WellFormed name) (a : Addition) : (s.perform a).2.WellFormed name := by
  cases a with
  | table t => exact refusal?_snd (s.addTable t) ▸ h.addTable t
  | index i => exact refusal?_snd (s.addIndex i) ▸ h.addIndex i
  | primaryKey t columns => exact refusal?_snd (s.addPrimaryKey t columns) ▸ h.addPrimaryKey t columns
  | function f => exact refusal?_snd (s.addFunction f) ▸ h.addFunction f
  | aggregate f => exact refusal?_snd (s.addAggregate f) ▸ h.addAggregate f
  | external v => exact refusal?_snd (s.addVariable v) ▸ h.addVariable v
  | builtins => exact refusal?_snd (Builtin.install s) ▸ h.install

theorem WellFormed.run (h : s.WellFormed name) (additions : List Addition) :
    (s.run additions).WellFormed name := by
  induction additions generalizing s with
  | nil => exact h
  | cons a rest ih => exact ih (h.perform a)

def Addition.isSingle : Addition → Bool
  | .builtins => false
  | _ => true

theorem addIndex_refused (h : (refusal? (s.addIndex i)).1 = some e) :
    s.SameLookups (refusal? (s.addIndex i)).2 := by
  rcases addIndex_cases s i with ⟨e', he⟩ | ⟨-, hadd⟩
  · rw [he]
    exact .refl s
  · rw [hadd] at h
    cases h

/-- One declaration that is refused changes nothing that can be looked up. -/
theorem perform_refused {a : Addition} (ha : a.isSingle = true) (h : (s.perform a).1 = some e) :
    s.SameLookups (s.perform a).2 := by
  cases a with
  | table t =>
    rcases addTable_cases s t with ⟨e', he⟩ | ⟨-, t', -, hadd⟩
    · rw [perform, he]
      exact .refl s
    · rw [perform, hadd] at h
      cases h
  | index i => exact addIndex_refused h
  | primaryKey t columns =>
    rw [perform] at h ⊢
    rcases addPrimaryKey_cases s t columns with ⟨e', he⟩ | ⟨positions, hadd⟩
    · rw [he]
      exact .refl s
    · rw [hadd] at h ⊢
      exact addIndex_refused h
  | function f =>
    obtain ⟨s₁, rfl, ⟨e', he⟩ | ⟨-, f', -, hadd⟩⟩ := addFunction_cases s f
    · rw [perform, he]
      exact { SameLookups.refl s with functionsNamed := fun _ => Entries.lookup_touch }
    · rw [perform, hadd] at h
      cases h
  | aggregate f =>
    obtain ⟨s₁, rfl, ⟨e', he⟩ | ⟨-, f', -, hadd⟩⟩ := addAggregate_cases s f
    · rw [perform, he]
      exact { SameLookups.refl s with aggregatesNamed := fun _ => Entries.lookup_touch }
    · rw [perform, hadd] at h
      cases h
  | external v =>
    rcases addVariable_cases s v with ⟨e', he⟩ | ⟨-, v', -, hadd⟩
    · rw [perform, he]
      exact .refl s
    · rw [perform, hadd] at h
      cases h
  | builtins => cases ha

/-- Any run of additions to a new schema leaves it in order, and one declaration that is refused leaves all
lookups as they were. -/
theorem run_wellFormed (name : String) (id : Nat) (additions : List Addition) :
    (run { name, id } additions).WellFormed name ∧
      ∀ a e, a.isSingle = true → ((run { name, id } additions).perform a).1 = some e →
        (run { name, id } additions).SameLookups ((run { name, id } additions).perform a).2 :=
  ⟨(WellFormed.fresh name id).run additions, fun _ _ ha he => perform_refused ha he⟩

-- A second table of the name, an index over a table that another schema of the name stores and a second primary
-- key are refused, and a function that is refused twice leaves an entry.
example :
    let a : TableDecl := { name := "a", columns := [{ name := "x", type := .int4 }] }
    let stored : TableDecl := { a with oid := ⟨1, 1⟩, schema := "s" }
    let foreign : TableDecl := { a with oid := ⟨2, 1⟩, schema := "s" }
    let additions : List Addition := [.table a, .table a, .index (.primaryOf "i" foreign [0]),
      .primaryKey stored ["x"], .index (.primaryOf "j" stored [0])]
    (run { name := "s", id := 1 } additions).indexMap = [("a_pk", .primaryOf "a_pk" stored [0])] := by
  decide +kernel

end Schema

end SqlPlan
