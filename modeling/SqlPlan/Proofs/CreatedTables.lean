import SqlPlan.Proofs.CatalogCollisions

namespace SqlPlan

variable {key : List Identifier} {n m i : Nat} {table : TableDecl}

open List (Forall₂)

variable {Q : Type} {env : Environment}

/-- A column declares what its definition says, other than whether it is nullable. -/
structure ColumnDefinition.Declares (env : Environment) (d : ColumnDefinition (Expr Q)) (c : ColumnDecl) :
    Prop where
  name : c.name = env.options.key d.name
  type : d.dataType.type env.options = .ok c.type
  default : Option.Rel (fun e v => ∃ n m, CreateTable.columnDefault c.name c.type e env n = (.ok v, m))
    d.default c.default

namespace CreateTable

def WritesKey (c : CreateTable (Expr Q)) (key : List Identifier) : Prop :=
  (∃ d ∈ c.columns, d.primaryKey = true ∧ key = [d.name]) ∨ key ∈ c.primaryKeys

theorem mem_keyLists {c : CreateTable (Expr Q)} : key ∈ c.keyLists ↔ c.WritesKey key := by
  simp only [keyLists, WritesKey, List.mem_append, List.mem_map, List.mem_filter, and_assoc, eq_comm]

/-- What CREATE TABLE makes of its columns and its primary key. -/
structure WellFormed (env : Environment) (c : CreateTable (Expr Q)) (table : TableDecl)
    (primary : Option IndexDecl) : Prop where
  columns : Forall₂ (ColumnDefinition.Declares env) c.columns table.columns
  distinct : (table.columns.map (·.name)).Nodup
  oneKey : c.columns.countP (·.primaryKey) + c.primaryKeys.length ≤ 1
  present : primary.isSome ↔ ∃ key, c.WritesKey key ∧ key ≠ []
  index : ∀ index ∈ primary, index.table = table ∧ index.primary = true ∧ index.unique = true ∧
    (index.keys.map (·.position)).Nodup ∧ (∀ k ∈ index.keys, k.position < table.columns.length) ∧
    ∃ key, c.WritesKey key ∧ Forall₂ (TableDecl.NamedAt env table.columns) key (index.keys.map (·.position))
  nullable : Forall₂ (fun d column => column.nullable = false ↔ d.notNull = true ∨
    ∃ key, c.WritesKey key ∧ env.options.key d.name ∈ key.map env.options.key) c.columns table.columns

theorem column_ok {taken : List ColumnDecl} {d : ColumnDefinition (Expr Q)} {c : ColumnDecl}
    (h : column taken d env n = (.ok c, m)) :
    d.Declares env c ∧ c.name ∉ taken.map (·.name) ∧ c.nullable = (!d.notNull && !d.primaryKey) := by
  obtain ⟨_, _, hbare, h⟩ := Step.bind_ok.mp h
  simp only [bareColumn, DataType.resolve, Step.bind_ok, Step.options_ok, Step.ofExcept_ok, Step.ite_ok, Step.fail_ok,
    Step.pure_ok, and_false, false_or] at hbare
  obtain ⟨_, _, ⟨rfl, rfl⟩, hnew, type, _, ⟨_, _, ⟨rfl, rfl⟩, htype, rfl⟩, rfl, rfl⟩ := hbare
  have hnew : env.options.key d.name ∉ taken.map (·.name) := by simpa using hnew
  cases hdefault : d.default with
  | none =>
    simp only [hdefault, Step.pure_ok] at h
    obtain ⟨rfl, -⟩ := h
    exact ⟨⟨rfl, htype, hdefault ▸ .none⟩, hnew, rfl⟩
  | some e =>
    simp only [hdefault, Step.bind_ok, Step.pure_ok] at h
    obtain ⟨v, k, hv, rfl, -⟩ := h
    exact ⟨⟨rfl, htype, hdefault ▸ .some ⟨_, _, hv⟩⟩, hnew, rfl⟩

theorem resolveColumns_ok {defined columns : List ColumnDecl} {ds : List (ColumnDefinition (Expr Q))}
    (hdefined : (defined.map (·.name)).Nodup) (h : resolveColumns defined ds env n = (.ok columns, m)) :
    (columns.map (·.name)).Nodup ∧ ∃ new, columns = defined ++ new ∧
      Forall₂ (fun d c => d.Declares env c ∧ c.nullable = (!d.notNull && !d.primaryKey)) ds new := by
  induction ds generalizing defined n with
  | nil =>
    obtain ⟨rfl, -⟩ := Step.pure_ok.mp h
    exact ⟨hdefined, [], (List.append_nil _).symm, .nil⟩
  | cons d ds ih =>
    obtain ⟨c, k, hc, h⟩ := Step.bind_ok.mp h
    obtain ⟨hdeclares, hnew, hnullable⟩ := column_ok hc
    have hnodup : ((defined ++ [c]).map (·.name)).Nodup := by
      rw [List.map_append, List.map_singleton, List.nodup_append_comm]
      exact hdefined.cons hnew
    obtain ⟨hall, new, rfl, hnews⟩ := ih hnodup h
    exact ⟨hall, c :: new, List.append_assoc .., .cons ⟨hdeclares, hnullable⟩ hnews⟩

/-- If one key at most is written, it lists what all keys together list. -/
theorem flatten_mem_keyLists {c : CreateTable (Expr Q)} (h : c.keyLists.length ≤ 1) (hne : c.keyLists.flatten ≠ []) :
    c.keyLists.flatten ∈ c.keyLists := by
  rcases hkeys : c.keyLists with _ | ⟨key, _ | ⟨_, _⟩⟩
  · simp [hkeys] at hne
  · simp
  · simp [hkeys] at h

theorem getElem?_requireValues (positions : List Nat) (columns : List ColumnDecl) (i : Nat) :
    (requireValues positions columns)[i]? =
      (columns[i]?).map fun c => if i ∈ positions then { c with nullable := false } else c := by
  simp [requireValues, Function.comp_def]

theorem map_name_requireValues (positions : List Nat) (columns : List ColumnDecl) :
    (requireValues positions columns).map (·.name) = columns.map (·.name) := by
  refine List.ext_getElem? fun i => ?_
  rw [List.getElem?_map, List.getElem?_map, getElem?_requireValues, Option.map_map]
  congr 1
  funext c
  dsimp only [Function.comp_apply]
  split <;> rfl

theorem forall₂_requireValues {R S : ColumnDefinition (Expr Q) → ColumnDecl → Prop}
    {ds : List (ColumnDefinition (Expr Q))} {columns : List ColumnDecl} {positions : List Nat}
    (h : Forall₂ R ds columns) (hstep : ∀ (i : Nat) d c, d ∈ ds → columns[i]? = some c → R d c →
      S d (if i ∈ positions then { c with nullable := false } else c)) :
    Forall₂ S ds (requireValues positions columns) := by
  obtain ⟨hlen, hget⟩ := List.forall₂_iff_get.mp h
  refine List.forall₂_iff_get.mpr ⟨by rw [length_requireValues, hlen], fun i hi hi' => ?_⟩
  have hlt : i < columns.length := hlen ▸ hi
  have hat := getElem?_requireValues positions columns i
  rw [List.getElem?_eq_getElem hi', List.getElem?_eq_getElem hlt, Option.map_some, Option.some.injEq] at hat
  rw [List.get_eq_getElem, List.get_eq_getElem, hat]
  exact hstep i _ _ (List.getElem_mem hi) (List.getElem?_eq_getElem hlt) (hget i hi hlt)

theorem mem_positions_iff {columns : List ColumnDecl} {positions : List Nat}
    (hdistinct : (columns.map (·.name)).Nodup) (hfound : Forall₂ (TableDecl.NamedAt env columns) key positions)
    {c : ColumnDecl} (hc : columns[i]? = some c) : i ∈ positions ↔ c.name ∈ key.map env.options.key := by
  constructor
  · intro hi
    obtain ⟨identifier, hmem, hname⟩ := exists_of_forall₂ hfound i hi
    rw [TableDecl.NamedAt, hc, Option.map_some, Option.some.injEq] at hname
    exact List.mem_map.mpr ⟨identifier, hmem, hname.symm⟩
  · intro hname
    obtain ⟨identifier, hmem, hidentifier⟩ := List.mem_map.mp hname
    obtain ⟨p, hp, hat⟩ := exists_of_forall₂ hfound.flip identifier hmem
    have hlt : i < (columns.map (·.name)).length := by
      rw [List.length_map]
      exact (List.getElem?_eq_some_iff.mp hc).1
    have hsame : (columns.map (·.name))[i]? = (columns.map (·.name))[p]? := by
      rw [List.getElem?_map, List.getElem?_map, hc, hat, hidentifier, Option.map_some]
    rwa [(List.getElem?_inj hlt hdistinct).mp hsame]

theorem exists_writesKey_iff {c : CreateTable (Expr Q)} {o : Options} {name : String} :
    (∃ key, c.WritesKey key ∧ name ∈ key.map o.key) ↔ name ∈ c.keyLists.flatten.map o.key := by
  simp only [← mem_keyLists, List.mem_map, List.mem_flatten]
  constructor
  · rintro ⟨key, hkey, identifier, hmem, hname⟩
    exact ⟨identifier, ⟨key, hkey, hmem⟩, hname⟩
  · rintro ⟨identifier, ⟨key, hkey, hmem⟩, hname⟩
    exact ⟨key, hkey, identifier, hmem, hname⟩

section Key

variable {c : CreateTable (Expr Q)} {columns : List ColumnDecl} {positions : List Nat}

theorem primaryOf_keys (htable : table.columns = requireValues positions columns) (hone : c.keyLists.length ≤ 1)
    (hne : c.keyLists.flatten ≠ []) (hnodup : positions.Nodup)
    (hfound : Forall₂ (TableDecl.NamedAt env columns) c.keyLists.flatten positions) (name : String) :
    ((IndexDecl.primaryOf name table positions).keys.map (·.position)).Nodup ∧
      (∀ k ∈ (IndexDecl.primaryOf name table positions).keys, k.position < table.columns.length) ∧
      ∃ key, c.WritesKey key ∧ Forall₂ (TableDecl.NamedAt env table.columns) key
        ((IndexDecl.primaryOf name table positions).keys.map (·.position)) := by
  have hnamed : TableDecl.NamedAt env table.columns = TableDecl.NamedAt env columns := by
    funext identifier p
    rw [TableDecl.NamedAt, ← List.getElem?_map, htable, map_name_requireValues, List.getElem?_map, TableDecl.NamedAt]
  have hpositions : (IndexDecl.primaryOf name table positions).keys.map (·.position) = positions := by
    simp [IndexDecl.primaryOf, Function.comp_def]
  rw [hpositions, hnamed]
  refine ⟨hnodup, fun key hkey => ?_, c.keyLists.flatten, mem_keyLists.mp (flatten_mem_keyLists hone hne), hfound⟩
  rw [htable, length_requireValues]
  exact TableDecl.lt_of_namedAt hfound _ (hpositions ▸ List.mem_map_of_mem hkey)

theorem nullable_eq_false_iff (hdistinct : (columns.map (·.name)).Nodup)
    (hfound : Forall₂ (TableDecl.NamedAt env columns) c.keyLists.flatten positions) {d : ColumnDefinition (Expr Q)}
    (hd : d ∈ c.columns) {column : ColumnDecl} (hat : columns[i]? = some column) (hdeclares : d.Declares env column)
    (hnullable : column.nullable = (!d.notNull && !d.primaryKey)) :
    (if i ∈ positions then { column with nullable := false } else column).nullable = false ↔
      d.notNull = true ∨ ∃ key, c.WritesKey key ∧ env.options.key d.name ∈ key.map env.options.key := by
  have hmem := mem_positions_iff hdistinct hfound hat
  rw [hdeclares.name, ← exists_writesKey_iff] at hmem
  rw [← hmem]
  by_cases hi : i ∈ positions
  · simp [hi]
  · have hkey : d.primaryKey = false := by
      by_contra hkey
      exact hi (hmem.mpr ⟨[d.name], .inl ⟨d, hd, by simpa using hkey, rfl⟩, by simp⟩)
    simp [hi, hnullable, hkey]

end Key

theorem resolve_wellFormed {c : CreateTable (Expr Q)} {schema : String} {primary : Option IndexDecl} {n' : Nat}
    (h : c.resolve env n = (.ok (.createTable schema table primary), n')) : c.WellFormed env table primary := by
  obtain ⟨-, columns, positions, _, _, -, -, -, hcolumns, hone, hfound, hnodup, htable, hprimary⟩ := resolve_cases h
  obtain ⟨hdistinct, _, rfl, hdeclares⟩ := resolveColumns_ok (by simp) hcolumns
  have hempty : positions = [] ↔ c.keyLists.flatten = [] := by
    rw [← List.length_eq_zero_iff, ← hfound.length_eq, List.length_eq_zero_iff]
  refine ⟨?_, ?_, ?_, ?_, ?_, ?_⟩
  · rw [htable]
    refine forall₂_requireValues hdeclares fun i d column _ _ hd => ?_
    obtain ⟨⟨hname, htype, hdefault⟩, -⟩ := hd
    split
    · exact ⟨hname, htype, hdefault⟩
    · exact ⟨hname, htype, hdefault⟩
  · rwa [htable, map_name_requireValues]
  · simpa [keyLists, List.countP_eq_length_filter] using hone
  · have hsome : primary.isSome ↔ positions ≠ [] := by
      rw [hprimary]
      cases positions <;> simp
    simp only [hsome, ne_eq, hempty, List.flatten_eq_nil_iff, mem_keyLists, not_forall, exists_prop]
  · intro index hindex
    rw [hprimary] at hindex
    split at hindex
    · cases hindex
    · rename_i hne
      cases hindex
      exact ⟨rfl, rfl, rfl, primaryOf_keys htable hone (by simpa [hempty] using hne) hnodup hfound _⟩
  · rw [htable]
    exact forall₂_requireValues hdeclares fun i d column hd hat hcolumn =>
      nullable_eq_false_iff hdistinct hfound hd hat hcolumn.1 hcolumn.2

end CreateTable

/-- A table that is to be created is well formed, with its primary index. -/
theorem Session.createTable_wellFormed {s s' : Session} {c : CreateTable (Expr Q)} {schema : String}
    {table : TableDecl} {primary : Option IndexDecl}
    (h : s.resolveStatement (.createTable c) = (.ok (.change (.createTable schema table primary)), s')) :
    c.WellFormed s.environment table primary := by
  obtain ⟨m, hm⟩ := resolveStatement_ok h
  exact CreateTable.resolve_wellFormed (ofChange_ok hm)

namespace Sample

/-- `CREATE TABLE o (a INT NOT NULL, b INT, c INT, d INT, PRIMARY KEY (D, B))` -/
def orders : CreateTable (Expr Unit) where
  name := ⟨[.regular "o"]⟩
  columns := [{ name := .regular "a", dataType := .integer .w32, notNull := true },
    { name := .regular "b", dataType := .integer .w32 }, { name := .regular "c", dataType := .integer .w32 },
    { name := .regular "d", dataType := .integer .w32 }]
  primaryKeys := [[.regular "D", .regular "B"]]

def isOrders : CatalogChange → Bool
  | .createTable _ table (some index) =>
    index.keys.map (·.position) == [3, 1] && table.columns.map (·.nullable) == [false, false, true, false]
  | _ => false

end Sample

/-- The key is found by normalized names, in the order in which it is written. -/
theorem Session.createTable_wellFormed_orders :
    ∃ schema table index s', Sample.twoSchemas.resolveStatement (.createTable Sample.orders) =
        (.ok (.change (.createTable schema table (some index))), s') ∧
      index.keys.map (·.position) = [3, 1] ∧ table.columns.map (·.nullable) = [false, false, true, false] ∧
      Sample.orders.WellFormed Sample.twoSchemas.environment table (some index) := by
  have htest : Sample.twoSchemas.changeMeets (.createTable Sample.orders) Sample.isOrders = true := by decide +kernel
  obtain ⟨change, s', h, htest⟩ := exists_change _ htest
  cases change with
  | createTable schema table primary =>
    cases primary with
    | none => cases htest
    | some index =>
      obtain ⟨hkeys, hnullable⟩ : index.keys.map (·.position) = [3, 1] ∧
          table.columns.map (·.nullable) = [false, false, true, false] := by simpa [Sample.isOrders] using htest
      exact ⟨schema, table, index, s', h, hkeys, hnullable, createTable_wellFormed h⟩
  | _ => cases htest

end SqlPlan
