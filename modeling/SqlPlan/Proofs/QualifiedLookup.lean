import SqlPlan.Proofs.ColumnLookup

namespace SqlPlan

open List (Forall₂)

def RelationInfo.scans (r : RelationInfo) (table : TableDecl) : Bool :=
  r.table.any (·.sameObject table) && r.correlation == some table.name

def Scope.scansOf (s : Scope) (table : TableDecl) : List RelationInfo := s.relations.filter (·.scans table)

/-- The scans of a table in the innermost scope that has one. -/
def Scopes.scansOf (scopes : Scopes) (table : TableDecl) : List RelationInfo := scopes.nearest (·.scansOf table)

theorem RelationInfo.Rearranged.scans_eq {r r' : RelationInfo} (h : r.Rearranged r') (table : TableDecl) :
    r'.scans table = r.scans table := by
  obtain ⟨columns, -, rfl⟩ := h
  rfl

theorem Found.verdict_inj {found found' : Found ColumnInfo} (h : found.verdict = found'.verdict) : found = found' := by
  cases found <;> cases found' <;> simp_all [verdict]

namespace Scopes

variable {scopes scopes' : Scopes} {table : TableDecl} {r : RelationInfo}

theorem scanOf?_eq (scopes : Scopes) (table : TableDecl) : scopes.scanOf? table = (scopes.scansOf table).head? := by
  have hfirst : ∀ s : Scope, (s.relations.find? fun r => r.table.any (·.sameObject table) &&
      r.correlation == some table.name) = (s.scansOf table).head? := fun s => List.head?_filter.symm
  unfold scansOf scanOf?
  induction scopes with
  | nil => rfl
  | cons s outer ih =>
    rw [List.findSome?_cons, hfirst, ih, nearest]
    cases s.scansOf table <;> rfl

theorem scansOf_perm (h : scopes.Rearranged scopes') (table : TableDecl) (key : String) :
    ((scopes.scansOf table).map (·.column key)).Perm ((scopes'.scansOf table).map (·.column key)) := by
  unfold scansOf
  rw [nearest_map, nearest_map]
  exact nearest_perm (h.imp fun _ _ hs => hs.answers_perm (fun _ _ hr => hr.scans_eq table) key)

theorem exists_rearranged_head (h : r ∈ scopes.scansOf table) :
    ∃ scopes', scopes.Rearranged scopes' ∧ (scopes'.scansOf table).head? = some r := by
  unfold scansOf at *
  induction scopes with
  | nil => cases h
  | cons s outer ih =>
    by_cases hs : s.scansOf table = []
    · rw [nearest, hs] at h
      obtain ⟨outer', houter, hhead⟩ := ih h
      refine ⟨s :: outer', .cons (.of_perm (.refl _)) houter, ?_⟩
      rw [nearest, hs]
      exact hhead
    · rw [nearest_cons hs] at h
      obtain ⟨hmem, hscans⟩ := List.mem_filter.1 h
      refine ⟨{ s with relations := r :: s.relations.erase r } :: outer,
        .cons (.of_perm (List.perm_cons_erase hmem)) (Rearranged.refl outer), ?_⟩
      have hfirst : Scope.scansOf { s with relations := r :: s.relations.erase r } table =
          r :: (s.relations.erase r).filter (·.scans table) := List.filter_cons_of_pos hscans
      rw [nearest_cons (by rw [hfirst]; exact List.cons_ne_nil _ _), hfirst, List.head?_cons]

end Scopes

namespace Name

variable {env : Environment} {scopes scopes' : Scopes} {qualifier : List Identifier} {column : Identifier} {n : Nat}
  {schema : Schema} {table : TableDecl}

theorem resolveVariable_eq_inTable (hlength : qualifier.length = 2 ∨ qualifier.length = 3) :
    resolveVariable ⟨qualifier ++ [column]⟩ = resolveInTable ⟨qualifier ++ [column]⟩ := by
  funext scopes
  rcases qualifier with _ | ⟨a, _ | ⟨b, _ | ⟨c, _ | ⟨d, rest⟩⟩⟩⟩
  · simp at hlength
  · simp at hlength
  · rfl
  · rfl
  · simp at hlength

theorem objectKey_concat (qualifier : List Identifier) (column : Identifier) (n : Nat) :
    (objectKey ⟨qualifier ++ [column]⟩ : Analysis String) env n = (.ok (env.options.key column), n) := by
  rw [objectKey, Step.bind_eq_of_ok (m := Step.options) rfl, last?, List.getLast?_concat]
  rfl

theorem resolveInTable_error {report : Report} {m : Nat}
    (h : (resolveTable ⟨qualifier⟩ : Analysis _) env n = (.error report, m)) (scopes : Scopes) :
    (resolveInTable ⟨qualifier ++ [column]⟩ scopes : Analysis _) env n = (.error report, m) := by
  rw [resolveInTable, Name.qualifier, List.dropLast_concat, Step.bind_eq_of_error h]

theorem resolveInTable_verdict (h : (resolveTable ⟨qualifier⟩ : Analysis _) env n = (.ok (schema, table), n))
    (scopes : Scopes) :
    (resolveInTable ⟨qualifier ++ [column]⟩ scopes : Analysis _).verdict env n =
      match scopes.scansOf table with
      | [] => .error .relationNotFound
      | r :: _ => (r.column (env.options.key column)).verdict := by
  rw [Step.verdict, resolveInTable, Name.qualifier, List.dropLast_concat, Step.bind_eq_of_ok h]
  dsimp only
  rw [Step.bind_eq_of_ok (objectKey_concat qualifier column n), Scopes.scanOf?_eq]
  rcases scopes.scansOf table with _ | ⟨r, rest⟩
  · rfl
  · dsimp only [List.head?_cons]
    cases r.column (env.options.key column) <;> rfl

theorem resolveInTable_congr (h : (resolveTable ⟨qualifier⟩ : Analysis _) env n = (.ok (schema, table), n))
    (hsame : ((scopes'.scansOf table).map (·.column (env.options.key column))).head? =
      ((scopes.scansOf table).map (·.column (env.options.key column))).head?) :
    (resolveInTable ⟨qualifier ++ [column]⟩ scopes' : Analysis _) env n =
      resolveInTable ⟨qualifier ++ [column]⟩ scopes env n := by
  rw [resolveInTable, resolveInTable, Name.qualifier, List.dropLast_concat, Step.bind_eq_of_ok h,
    Step.bind_eq_of_ok h]
  dsimp only
  rw [Step.bind_eq_of_ok (objectKey_concat qualifier column n),
    Step.bind_eq_of_ok (objectKey_concat qualifier column n), Scopes.scanOf?_eq, Scopes.scanOf?_eq]
  generalize scopes.scansOf table = scans at *
  generalize scopes'.scansOf table = scans' at *
  rcases scans with _ | ⟨r, rest⟩ <;> rcases scans' with _ | ⟨r', rest'⟩
  · rfl
  · cases hsame
  · cases hsame
  · rw [List.map_cons, List.map_cons, List.head?_cons, List.head?_cons, Option.some.injEq] at hsame
    simp only [List.head?_cons, hsame]

/-- The order of the relations has no part in the answer exactly if all scans of the deciding scope answer alike. -/
theorem resolveInTable_rearranged_iff
    (h : (resolveTable ⟨qualifier⟩ : Analysis _) env n = (.ok (schema, table), n)) (scopes : Scopes) :
    (∀ scopes', scopes.Rearranged scopes' →
      (resolveInTable ⟨qualifier ++ [column]⟩ scopes' : Analysis _) env n =
        resolveInTable ⟨qualifier ++ [column]⟩ scopes env n) ↔
    ∀ r ∈ scopes.scansOf table, ∀ r' ∈ scopes.scansOf table,
      r.column (env.options.key column) = r'.column (env.options.key column) := by
  constructor
  · intro hsame
    -- Whichever scan comes first gives the answer that the scopes as they are give.
    have hanswer : ∀ r ∈ scopes.scansOf table, (r.column (env.options.key column)).verdict =
        (resolveInTable ⟨qualifier ++ [column]⟩ scopes : Analysis _).verdict env n := by
      intro r hr
      obtain ⟨scopes', hrearranged, hhead⟩ := Scopes.exists_rearranged_head hr
      obtain ⟨rest, hscans⟩ := List.head?_eq_some_iff.1 hhead
      have hverdict : (resolveInTable ⟨qualifier ++ [column]⟩ scopes' : Analysis _).verdict env n = _ :=
        resolveInTable_verdict h scopes'
      rw [hscans, Step.verdict, hsame scopes' hrearranged] at hverdict
      exact hverdict.symm
    exact fun r hr r' hr' => Found.verdict_inj ((hanswer r hr).trans (hanswer r' hr').symm)
  · intro halike scopes' hrearranged
    refine resolveInTable_congr h ?_
    have hperm := Scopes.scansOf_perm hrearranged table (env.options.key column)
    rcases hscans : scopes.scansOf table with _ | ⟨r, rest⟩
    · rw [hscans, List.map_nil, List.nil_perm] at hperm
      rw [hperm, List.map_nil]
    · -- All answers of the rearranged scans are answers of these ones, hence equal.
      rcases hscans' : (scopes'.scansOf table).map (·.column (env.options.key column)) with _ | ⟨found, rest'⟩
      · rw [hscans, hscans', List.perm_nil] at hperm
        cases hperm
      · have hmem : found ∈ (scopes.scansOf table).map (·.column (env.options.key column)) :=
          hperm.mem_iff.2 (hscans' ▸ List.mem_cons_self)
        obtain ⟨r', hr', rfl⟩ := List.mem_map.1 hmem
        rw [hscans', List.head?_cons, List.map_cons, List.head?_cons, halike r' hr' r (hscans ▸ List.mem_cons_self)]

/-- A name of three or four segments is answered by the first scan of its table in the nearest scope that has one. Of
several scans none is reported, so the answer is independent of the order of the relations exactly if the scans answer
alike, and it is the answer of the only scan exactly if there is no other. -/
theorem resolveVariable_firstScan {qualifier : List Identifier}
    (hlength : qualifier.length = 2 ∨ qualifier.length = 3) (column : Identifier) (env : Environment) (n : Nat) :
    (∀ report m, (resolveTable ⟨qualifier⟩ : Analysis _) env n = (.error report, m) → ∀ scopes,
      resolveVariable ⟨qualifier ++ [column]⟩ scopes env n = (.error report, m)) ∧
    (∀ schema table, (resolveTable ⟨qualifier⟩ : Analysis _) env n = (.ok (schema, table), n) → ∀ scopes : Scopes,
      (scopes.scansOf table = [] →
        (resolveVariable ⟨qualifier ++ [column]⟩ scopes).verdict env n = .error .relationNotFound) ∧
      (∀ r rest, scopes.scansOf table = r :: rest →
        (resolveVariable ⟨qualifier ++ [column]⟩ scopes).verdict env n =
          (r.column (env.options.key column)).verdict) ∧
      ((∀ scopes', scopes.Rearranged scopes' →
          resolveVariable ⟨qualifier ++ [column]⟩ scopes' env n =
            resolveVariable ⟨qualifier ++ [column]⟩ scopes env n) ↔
        ∀ r ∈ scopes.scansOf table, ∀ r' ∈ scopes.scansOf table,
          r.column (env.options.key column) = r'.column (env.options.key column)) ∧
      (((∀ c, (resolveVariable ⟨qualifier ++ [column]⟩ scopes).verdict env n = .ok (.column c) →
            (scopes.scansOf table).length = 1) ∧
          (2 ≤ (scopes.scansOf table).length →
            (resolveVariable ⟨qualifier ++ [column]⟩ scopes).verdict env n = .error .relationAmbiguous)) ↔
        (scopes.scansOf table).length ≤ 1)) := by
  rw [resolveVariable_eq_inTable hlength]
  refine ⟨fun report m h => resolveInTable_error h, fun schema table h scopes => ?_⟩
  have hverdict : (resolveInTable ⟨qualifier ++ [column]⟩ scopes : Analysis _).verdict env n = _ :=
    resolveInTable_verdict h scopes
  refine ⟨fun hnone => ?_, fun r rest hscans => ?_, resolveInTable_rearranged_iff h scopes, ?_⟩
  · rw [hverdict, hnone]
  · rw [hverdict, hscans]
  · rw [hverdict]
    rcases scopes.scansOf table with _ | ⟨r, _ | ⟨r', rest⟩⟩
    · simp
    · simp
    · -- The first of several scans gives a verdict on a column, never one on the relations.
      refine iff_of_false (fun hclaim => ?_) (by simp)
      have hambiguous := hclaim.2 (by simp)
      dsimp only at hambiguous
      cases hfound : r.column (env.options.key column) <;> rw [hfound] at hambiguous <;> cases hambiguous

end Name

namespace Sample

def stored : TableDecl where
  oid := ⟨0, 1⟩
  name := "a"
  schema := "s"
  columns := [{ name := "x", type := .int4 }]

def storing : Environment where
  catalog := { name := "db", schemas := [{ name := "s", stored := 1, tableMap := [("a", stored)] }] }

def scanX (number : Nat) : RelationInfo where
  columns := [columnX number true]
  table := some stored
  correlation := some "a"

end Sample

theorem Name.resolveVariable_firstScan_once :
    (resolveTable ⟨[.quoted "s", .quoted "a"]⟩ : Analysis _) Sample.storing 0 =
      (.ok ({ name := "s", stored := 1, tableMap := [("a", Sample.stored)] }, Sample.stored), 0) ∧
    ∀ relations, (Sample.scanX 1 :: Sample.manyX).Perm relations →
      (resolveVariable ⟨[.quoted "s", .quoted "a", .quoted "x"]⟩ [{ relations }]).verdict Sample.storing 0 =
        .ok (.column (Sample.columnX 1 true)) := by
  have htable : (resolveTable ⟨[.quoted "s", .quoted "a"]⟩ : Analysis _) Sample.storing 0 =
      (.ok ({ name := "s", stored := 1, tableMap := [("a", Sample.stored)] }, Sample.stored), 0) := by rfl
  have hscans : Scopes.scansOf [{ relations := Sample.scanX 1 :: Sample.manyX }] Sample.stored = [Sample.scanX 1] := by
    decide
  obtain ⟨-, hfirst, hsame, -⟩ :=
    (resolveVariable_firstScan (.inl rfl) (.quoted "x") Sample.storing 0).2 _ _ htable
      [{ relations := Sample.scanX 1 :: Sample.manyX }]
  refine ⟨htable, fun relations hperm => ?_⟩
  have halike : ∀ r ∈ Scopes.scansOf [{ relations := Sample.scanX 1 :: Sample.manyX }] Sample.stored,
      ∀ r' ∈ Scopes.scansOf [{ relations := Sample.scanX 1 :: Sample.manyX }] Sample.stored,
        r.column "x" = r'.column "x" := by
    simp [hscans]
  exact (Step.verdict_congr (hsame.2 halike [{ relations }] (.cons (.of_perm hperm) .nil))).trans (hfirst _ _ hscans)

/-- Of two scans of one table the first one answers, whichever that is, although the table's name alone is
ambiguous. -/
theorem Name.resolveVariable_firstScan_twice :
    Scopes.Rearranged [{ relations := [Sample.scanX 1, Sample.scanX 2] }]
      [{ relations := [Sample.scanX 2, Sample.scanX 1] }] ∧
    (resolveVariable ⟨[.quoted "s", .quoted "a", .quoted "x"]⟩
      [{ relations := [Sample.scanX 1, Sample.scanX 2] }]).verdict Sample.storing 0 =
        .ok (.column (Sample.columnX 1 true)) ∧
    (resolveVariable ⟨[.quoted "s", .quoted "a", .quoted "x"]⟩
      [{ relations := [Sample.scanX 2, Sample.scanX 1] }]).verdict Sample.storing 0 =
        .ok (.column (Sample.columnX 2 true)) ∧
    (resolveVariable ⟨[.quoted "a", .quoted "x"]⟩
      [{ relations := [Sample.scanX 1, Sample.scanX 2] }]).verdict Sample.storing 0 = .error .relationAmbiguous := by
  refine ⟨.cons (.of_perm (.swap _ _ _)) .nil, ?_, ?_, ?_⟩ <;> rfl

end SqlPlan
