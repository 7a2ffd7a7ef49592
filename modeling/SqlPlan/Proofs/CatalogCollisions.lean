import SqlPlan.Proofs.InsertedCells
import SqlPlan.Proofs.SchemaInvariant
import SqlPlan.Proofs.StatementTransfer
import SqlPlan.Proofs.StoredExpressions

namespace SqlPlan

variable {table : TableDecl} {name : String} {position n n' : Nat} {σ : Type} {s s' : σ} {schema : Schema}
  {primary : Option IndexDecl}

open List (Forall₂)

variable {Q : Type} {env : Environment}

namespace TableDecl

theorem column?_eq_some {c : ColumnDecl} (h : table.column? name = some (position, c)) :
    table.columns[position]? = some c ∧ c.name = name := by
  unfold column? at h
  obtain ⟨⟨c', i⟩, hfind, hp⟩ := Option.map_eq_some_iff.mp h
  cases hp
  refine ⟨List.mem_zipIdx_iff_getElem?.mp (List.mem_of_find?_eq_some hfind), ?_⟩
  simpa using List.find?_some hfind

/-- The column at the position has the name that the identifier stands for. -/
def NamedAt (env : Environment) (columns : List ColumnDecl) (identifier : Identifier) (position : Nat) : Prop :=
  (columns[position]?).map (·.name) = some (env.options.key identifier)

theorem Names.namedAt {identifier : Identifier} (h : table.Names env identifier position) :
    NamedAt env table.columns identifier position := by
  obtain ⟨c, hc, -⟩ := h
  obtain ⟨hat, hname⟩ := column?_eq_some hc
  rw [NamedAt, hat, Option.map_some, hname]

theorem lt_of_namedAt {columns : List ColumnDecl} {identifiers : List Identifier} {positions : List Nat}
    (h : Forall₂ (NamedAt env columns) identifiers positions) : ∀ p ∈ positions, p < columns.length := by
  intro p hp
  obtain ⟨identifier, -, hname⟩ := exists_of_forall₂ h p hp
  obtain ⟨c, hc, -⟩ := Option.map_eq_some_iff.mp hname
  exact (List.getElem?_eq_some_iff.mp hc).1

end TableDecl

/-- Every schema that is searched is in order, as all are that additions build. -/
def Environment.InOrder (env : Environment) : Prop :=
  ∀ schema, env.Reaches schema → schema.WellFormed schema.name

theorem Name.resolveTable_stored {name : Name} (henv : env.InOrder)
    (h : (name.resolveTable : Step σ _) env s = (.ok (schema, table), s')) :
    schema.table? table.name = some table := by
  obtain ⟨-, hreaches, key, htable⟩ := name.resolveTable_ensures (I := fun _ => True) s _ s' trivial h
  have hname : table.name = key := ((henv schema hreaches).tables.of_lookup htable).1
  rwa [hname]

namespace CreateIndex

/-- What is known of an index that is to be created: its name is not taken in the schema `target` where the
statement creates, so the schema `owner` of the table can add it unless the name is taken there. -/
structure Checked (c : CreateIndex) (env : Environment) (index : IndexDecl) (target owner : Schema) : Prop where
  target_eq : ∀ n, (c.name.targetSchema : Analysis Schema) env n = (.ok target, n)
  owner_eq : ∀ n, (c.table.resolveTable : Analysis (Schema × TableDecl)) env n = (.ok (owner, index.table), n)
  new : target.index? index.name = none
  added : (∃ s', owner.addIndex index = (.ok index, s')) ↔ owner.index? index.name = none

theorem resolve_ok {c : CreateIndex} {index : IndexDecl} (henv : env.InOrder)
    (h : c.resolve env n = (.ok (.createIndex index), n')) :
    ∃ target owner, c.Checked env index target owner := by
  simp only [resolve, Step.bind_ok, Step.ite_ok, Step.pure_ok, Step.fail_ok, and_false, or_false, reduceCtorEq,
    false_and, false_or, Prod.exists, CatalogChange.createIndex.injEq] at h
  obtain ⟨target, _, htarget, name, _, hname, hnew, owner, table, _, htable, positions, _, hpositions, rfl, -⟩ := h
  refine ⟨target, owner, (c.name.targetSchema_reads.ok_iff htarget).2, (c.table.resolveTable_reads.ok_iff htable).2,
    by simpa using hnew, ?_⟩
  have hstored := Name.resolveTable_stored henv htable
  obtain ⟨⟨hnames, -⟩, -⟩ := TableDecl.resolveColumns_ok.mp hpositions
  have hlt := TableDecl.lt_of_namedAt (hnames.imp fun _ _ => TableDecl.Names.namedAt)
  constructor
  · rintro ⟨s', hadd⟩
    rcases Schema.addIndex_cases owner _ with ⟨e, he⟩ | ⟨haccepts, -⟩
    · cases hadd.symm.trans he
    · exact haccepts.new
  · intro hfree
    refine ⟨_, Schema.addIndex_accepted ⟨hfree, hstored, fun k hk => ?_, fun hprimary => ?_⟩⟩
    · obtain ⟨p, hp, rfl⟩ := List.mem_map.mp hk
      exact hlt p.1 (List.of_mem_zip hp).1
    · cases hprimary

end CreateIndex

namespace CreateTable

/-- What is known of a table that is to be created: its name is not taken by a table of the schema `target` where
the statement creates, and its primary index has the same name. -/
structure Checked (c : CreateTable (Expr Q)) (env : Environment) (schema : String) (table : TableDecl)
    (primary : Option IndexDecl) (target : Schema) : Prop where
  target_eq : ∀ n, (c.name.targetSchema : Analysis Schema) env n = (.ok target, n)
  schema_eq : schema = target.name
  new : target.table? table.name = none
  primary_eq : ∀ index ∈ primary, ∃ positions, index = .primaryOf table.name table positions ∧
    ∀ p ∈ positions, p < table.columns.length

theorem length_requireValues (positions : List Nat) (columns : List ColumnDecl) :
    (requireValues positions columns).length = columns.length := by
  simp [requireValues]

/-- How a table is declared: its columns, and those at the positions that the primary key names take no NULL. -/
theorem resolve_cases {c : CreateTable (Expr Q)} {schema : String}
    (h : c.resolve env n = (.ok (.createTable schema table primary), n')) :
    ∃ target columns positions k k', (∀ n, (c.name.targetSchema : Analysis Schema) env n = (.ok target, n)) ∧
      schema = target.name ∧ target.table? table.name = none ∧
      resolveColumns [] c.columns env k = (.ok columns, k') ∧ c.keyLists.length ≤ 1 ∧
      Forall₂ (TableDecl.NamedAt env columns) c.keyLists.flatten positions ∧ positions.Nodup ∧
      table.columns = requireValues positions columns ∧
      primary = if positions.isEmpty then none else some (.primaryOf table.name table positions) := by
  obtain ⟨place, k, hplace, h⟩ := Step.bind_ok.mp h
  rcases place with _ | ⟨_, _⟩
  · cases (Step.pure_ok.mp h).1
  simp only [CreateTable.place, Step.bind_ok, Step.ite_ok, Step.pure_ok, Step.fail_ok, and_false, or_false,
    reduceCtorEq, false_and, false_or, Option.some.injEq, Prod.mk.injEq] at hplace
  obtain ⟨target, _, htarget, name, _, -, hnew, ⟨rfl, rfl⟩, rfl⟩ := hplace
  simp only [build, Step.bind_ok, Step.ite_ok, Step.fail_ok, and_false, false_or] at h
  obtain ⟨columns, k, hcolumns, hone, h⟩ := h
  have htargets := (c.name.targetSchema_reads.ok_iff htarget).2
  have hnew : target.table? name = none := by simpa using hnew
  have hone : c.keyLists.length ≤ 1 := Nat.not_lt.mp hone
  rcases hkeys : c.keyLists with _ | ⟨key, _ | ⟨_, _⟩⟩
  · simp only [hkeys, Step.bind_ok, Step.pure_ok, CatalogChange.createTable.injEq] at h
    obtain ⟨_, _, ⟨rfl, -⟩, ⟨rfl, rfl, rfl⟩, -⟩ := h
    exact ⟨target, columns, [], _, _, htargets, rfl, hnew, hcolumns, by simp, .nil, .nil, rfl, rfl⟩
  · simp only [hkeys, Step.bind_ok, Step.pure_ok, CatalogChange.createTable.injEq, TableDecl.resolveColumns_ok] at h
    obtain ⟨positions, _, ⟨⟨hnames, hnodup, -⟩, -⟩, ⟨rfl, rfl, rfl⟩, -⟩ := h
    refine ⟨target, columns, positions, _, _, htargets, rfl, hnew, hcolumns, by simp, ?_, hnodup, rfl, rfl⟩
    rw [List.flatten_singleton]
    exact hnames.imp fun _ _ => TableDecl.Names.namedAt
  · simp [hkeys] at hone

theorem resolve_ok {c : CreateTable (Expr Q)} {schema : String}
    (h : c.resolve env n = (.ok (.createTable schema table primary), n')) :
    ∃ target, c.Checked env schema table primary target := by
  obtain ⟨target, columns, positions, _, _, htarget, hschema, hnew, -, -, hnamed, -, htable, hprimary⟩ :=
    resolve_cases h
  refine ⟨target, htarget, hschema, hnew, fun index hindex => ?_⟩
  rw [hprimary] at hindex
  split at hindex
  · cases hindex
  · cases hindex
    refine ⟨positions, rfl, ?_⟩
    rw [htable, length_requireValues]
    exact TableDecl.lt_of_namedAt hnamed

end CreateTable

namespace Session

/-- The statement is resolved to a change of the catalog that passes the given test. -/
def changeMeets (s : Session) (statement : Statement (Expr Q)) (test : CatalogChange → Bool) : Bool :=
  match (s.resolveStatement statement).1 with
  | .ok (.change c) => test c
  | _ => false

theorem exists_change {s : Session} {statement : Statement (Expr Q)} (test : CatalogChange → Bool)
    (h : s.changeMeets statement test = true) :
    ∃ c s', s.resolveStatement statement = (.ok (.change c), s') ∧ test c = true := by
  unfold changeMeets at h
  rcases hr : s.resolveStatement statement with ⟨_ | _ | c, s₁⟩
  · simp [hr] at h
  · simp [hr] at h
  · rw [hr] at h
    exact ⟨c, s₁, rfl, h⟩

theorem ofChange_ok {m : Analysis CatalogChange} {c : CatalogChange}
    (h : Resolution.ofChange m env n = (.ok (.change c), n')) : m env n = (.ok c, n') := by
  simp only [Resolution.ofChange, Step.bind_ok, Step.pure_ok, Resolution.change.injEq] at h
  obtain ⟨_, _, hm, rfl, rfl⟩ := h
  exact hm

/-- What is known of the objects that accepted CREATE statements create. An index can be added to the schema of
its table unless its name is taken there, which is not where the statement looked unless it creates in that
schema; a table can take its name, which its primary index takes too without a look at the indexes. -/
theorem create_checked (s : Session) (henv : s.environment.InOrder) :
    (∀ c index s', s.resolveStatement (.createIndex c : Statement (Expr Q)) = (.ok (.change (.createIndex index)), s') →
      ∃ target owner, c.Checked s.environment index target owner) ∧
    ∀ (c : CreateTable (Expr Q)) schema table primary s',
      s.resolveStatement (.createTable c) = (.ok (.change (.createTable schema table primary)), s') →
        ∃ target, c.Checked s.environment schema table primary target := by
  constructor
  · intro c index s' h
    obtain ⟨m, hm⟩ := resolveStatement_ok h
    exact CreateIndex.resolve_ok henv (ofChange_ok hm)
  · intro c schema table primary s' h
    obtain ⟨m, hm⟩ := resolveStatement_ok h
    exact CreateTable.resolve_ok (ofChange_ok hm)

end Session

namespace Sample

/-- A schema of one table with a column `x` and an index over it. -/
def indexed (id : Nat) (schema table index : String) : Schema :=
  let decl : TableDecl := { name := table, columns := [{ name := "x", type := .int4 }] }
  let stored : TableDecl := { decl with oid := ⟨id, 1⟩, schema }
  Schema.run { name := schema, id }
    [.table decl, .index { name := index, table := stored, keys := [⟨0, .ascending⟩] }]

/-- Two schemas, of which the first is the default. -/
def twoSchemas : Session where
  environment.catalog := { name := "db", schemas := [indexed 1 "s" "a" "i", indexed 2 "r" "b" "j"] }

theorem twoSchemas_inOrder : twoSchemas.environment.InOrder := by
  have hindexed : ∀ id schema table index, (indexed id schema table index).WellFormed
      (indexed id schema table index).name := by
    intro id schema table index
    have hrun : (indexed id schema table index).WellFormed schema := (Schema.WellFormed.fresh schema id).run _
    rwa [hrun.name_eq]
  -- the search path is all the schemas of the catalog
  have hmem : ∀ schema ∈ [indexed 1 "s" "a" "i", indexed 2 "r" "b" "j"], schema.WellFormed schema.name :=
    List.forall_mem_cons.mpr ⟨hindexed 1 "s" "a" "i", List.forall_mem_singleton.mpr (hindexed 2 "r" "b" "j")⟩
  exact fun schema hschema => hschema.elim (hmem schema) (hmem schema)

/-- `CREATE INDEX j ON b (x)` -/
def createIndex : CreateIndex :=
  { name := ⟨[.quoted "j"]⟩, table := ⟨[.quoted "b"]⟩, keys := [{ column := .quoted "x" }] }

/-- `CREATE TABLE i (k BOOLEAN PRIMARY KEY)` -/
def createTable : CreateTable (Expr Unit) where
  name := ⟨[.quoted "i"]⟩
  columns := [{ name := .quoted "k", dataType := .boolean, primaryKey := true }]

def refusesIndex (schema : Schema) : CatalogChange → Bool
  | .createIndex index => decide ((schema.addIndex index).1 = .error (.duplicateIndex schema.name index.name))
  | _ => false

def hasPrimaryName (schema : Schema) : CatalogChange → Bool
  | .createTable name _ (some index) => decide (name = schema.name ∧ schema.index? index.name ≠ none)
  | _ => false

theorem createIndex_refused : ∃ index s',
    twoSchemas.resolveStatement (.createIndex createIndex : Statement (Expr Unit)) =
      (.ok (.change (.createIndex index)), s') ∧
    ((indexed 2 "r" "b" "j").addIndex index).1 = .error (.duplicateIndex "r" index.name) := by
  have hrefused : twoSchemas.changeMeets (.createIndex createIndex : Statement (Expr Unit))
      (refusesIndex (indexed 2 "r" "b" "j")) = true := by decide +kernel
  obtain ⟨change, s', h, htest⟩ := Session.exists_change _ hrefused
  cases change with
  | createIndex index => exact ⟨index, s', h, of_decide_eq_true htest⟩
  | _ => cases htest

theorem createTable_taken : ∃ table index s', twoSchemas.resolveStatement (.createTable createTable) =
      (.ok (.change (.createTable "s" table (some index))), s') ∧
    (indexed 1 "s" "a" "i").index? index.name ≠ none := by
  have htaken : twoSchemas.changeMeets (.createTable createTable)
      (hasPrimaryName (indexed 1 "s" "a" "i")) = true := by decide +kernel
  obtain ⟨change, s', h, htest⟩ := Session.exists_change _ htaken
  cases change with
  | createTable name table primary =>
    cases primary with
    | none => cases htest
    | some index =>
      obtain ⟨rfl, hname⟩ := of_decide_eq_true htest
      exact ⟨table, index, s', h, hname⟩
  | _ => cases htest

end Sample

/-- Statements that are accepted over two schemas in order, with what is then known of an index and a table. -/
theorem Session.create_checked_twoSchemas :
    Sample.twoSchemas.environment.InOrder ∧
    (∃ index target owner, Sample.createIndex.Checked Sample.twoSchemas.environment index target owner) ∧
    ∃ table index target, Sample.createTable.Checked Sample.twoSchemas.environment "s" table (some index) target := by
  obtain ⟨hindex, htable⟩ := create_checked (Q := Unit) Sample.twoSchemas Sample.twoSchemas_inOrder
  obtain ⟨index, s', h, -⟩ := Sample.createIndex_refused
  obtain ⟨table, primary, s'', h', -⟩ := Sample.createTable_taken
  exact ⟨Sample.twoSchemas_inOrder, ⟨index, hindex _ _ _ h⟩, table, primary, htable _ _ _ _ _ h'⟩

/-- The index is refused by the schema of its table, and the name of the primary index is taken. -/
theorem Session.create_checked_taken :
    (∃ index s', Sample.twoSchemas.resolveStatement (.createIndex Sample.createIndex : Statement (Expr Unit)) =
        (.ok (.change (.createIndex index)), s') ∧
      ((Sample.indexed 2 "r" "b" "j").addIndex index).1 = .error (.duplicateIndex "r" index.name)) ∧
    ∃ table index s', Sample.twoSchemas.resolveStatement (.createTable Sample.createTable) =
        (.ok (.change (.createTable "s" table (some index))), s') ∧
      (Sample.indexed 1 "s" "a" "i").index? index.name ≠ none :=
  ⟨Sample.createIndex_refused, Sample.createTable_taken⟩

end SqlPlan
