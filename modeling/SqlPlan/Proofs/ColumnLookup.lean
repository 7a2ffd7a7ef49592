import SqlPlan.Proofs.OverloadSelection
import SqlPlan.Proofs.ScopeTransfer

namespace SqlPlan

variable {cs : List ColumnInfo} {identifier : Identifier} {key : String}

open List (Forall₂ Perm)

def RelationInfo.Rearranged (r r' : RelationInfo) : Prop :=
  ∃ columns, r.columns.Perm columns ∧ r' = { r with columns }

/-- The other scope has the same relations in some order, each with its columns in some order. -/
def Scope.Rearranged (s s' : Scope) : Prop :=
  ∃ relations, s.relations.Perm relations ∧ Forall₂ RelationInfo.Rearranged relations s'.relations

/-- The other scopes are these ones rearranged, each in its place. -/
def Scopes.Rearranged : Scopes → Scopes → Prop := Forall₂ Scope.Rearranged

def RelationInfo.columnsNamed (r : RelationInfo) (key : String) : List ColumnInfo :=
  r.columns.filter (·.isNamed key)

def Scope.columnsNamed (s : Scope) (key : String) : List ColumnInfo :=
  (s.relations.flatMap (·.columns)).filter (·.isNamed key)

namespace Found

variable {α β : Type}

def only : List α → Found α
  | [] => .nothing
  | [a] => .one a
  | _ => .several

theorem map_only (f : α → β) (as : List α) : (only as).map f = only (as.map f) := by
  rcases as with _ | ⟨a, _ | ⟨b, as⟩⟩ <;> rfl

theorem only_perm {as bs : List α} (h : as.Perm bs) : only as = only bs := by
  rcases as with _ | ⟨a, _ | ⟨b, as⟩⟩
  · rw [List.nil_perm.1 h]
  · rw [List.singleton_perm.1 h]
  · have hlength := h.length_eq
    rcases bs with _ | ⟨c, _ | ⟨d, bs⟩⟩
    · cases hlength
    · simp at hlength
    · rfl

/-- The element that was found, or too many where none was. -/
def orSeveral : Found α → Found α
  | one a => .one a
  | _ => .several

theorem narrow_of_several (h : 2 ≤ cs.length) : narrow cs = (only (cs.filter (·.exported))).orSeveral := by
  rcases cs with _ | ⟨c, _ | ⟨d, cs⟩⟩
  · cases h
  · simp at h
  · simp only [narrow]
    generalize (c :: d :: cs).filter (·.exported) = es
    rcases es with _ | ⟨e, _ | ⟨e', es⟩⟩ <;> rfl

theorem two_le_length (a b : α) (as : List α) : 2 ≤ (a :: b :: as).length := by
  rw [List.length_cons, List.length_cons]
  omega

theorem narrow_perm {cs' : List ColumnInfo} (h : cs.Perm cs') : narrow cs = narrow cs' := by
  rcases cs with _ | ⟨c, _ | ⟨d, cs⟩⟩
  · rw [List.nil_perm.1 h]
  · rw [List.singleton_perm.1 h]
  · have hlength := two_le_length c d cs
    rw [narrow_of_several hlength, narrow_of_several (h.length_eq ▸ hlength), only_perm (h.filter _)]

theorem narrow_eq_nothing_iff : narrow cs = .nothing ↔ cs = [] := by
  rcases cs with _ | ⟨c, _ | ⟨d, cs⟩⟩
  · simp [narrow]
  · simp [narrow]
  · rw [narrow_of_several (two_le_length c d cs)]
    generalize only ((c :: d :: cs).filter (·.exported)) = found
    cases found <;> simp [orSeveral]

end Found

/-- What the columns that match a name decide: a single one is the answer, exported or not; of several ones the only
exported one is, and otherwise the name is ambiguous. -/
inductive Decides : List ColumnInfo → Verdict ResolvedVariable → Prop where
  | single (c : ColumnInfo) : Decides [c] (.ok (.column c))
  | exported {cs : List ColumnInfo} {c : ColumnInfo} : 2 ≤ cs.length → cs.filter (·.exported) = [c] →
      Decides cs (.ok (.column c))
  | ambiguous {cs : List ColumnInfo} : 2 ≤ cs.length → (cs.filter (·.exported)).length ≠ 1 →
      Decides cs (.error .columnAmbiguous)

theorem Decides.eq_of_exported {c : ColumnInfo} {verdict : Verdict ResolvedVariable}
    (h : Decides cs verdict) (hlength : 2 ≤ cs.length) (hexported : cs.filter (·.exported) = [c]) :
    verdict = .ok (.column c) := by
  cases h with
  | single d => simp at hlength
  | exported _ h =>
    rw [hexported, List.singleton_inj] at h
    rw [h]
  | ambiguous _ h => simp [hexported] at h

def Found.verdict : Found ColumnInfo → Verdict ResolvedVariable
  | nothing => .error .columnNotFound
  | one c => .ok (.column c)
  | several => .error .columnAmbiguous

theorem Found.decides_narrow (h : cs ≠ []) : Decides cs (narrow cs).verdict := by
  rcases cs with _ | ⟨c, _ | ⟨d, cs⟩⟩
  · exact absurd rfl h
  · exact .single c
  · have hlength := two_le_length c d cs
    rw [narrow_of_several hlength]
    rcases hexported : (c :: d :: cs).filter (·.exported) with _ | ⟨e, _ | ⟨e', es⟩⟩ <;> rw [hexported]
    · exact .ambiguous hlength (by simp [hexported])
    · exact .exported hlength hexported
    · exact .ambiguous hlength (by simp [hexported])

namespace RelationInfo.Rearranged

variable {r r' : RelationInfo}

theorem refl (r : RelationInfo) : r.Rearranged r := ⟨r.columns, .refl _, rfl⟩

theorem columns_perm (h : r.Rearranged r') : r.columns.Perm r'.columns := by
  obtain ⟨columns, hperm, rfl⟩ := h
  exact hperm

theorem correlation_eq (h : r.Rearranged r') : r'.correlation = r.correlation := by
  obtain ⟨columns, -, rfl⟩ := h
  rfl

theorem column_eq (h : r.Rearranged r') (key : String) : r'.column key = r.column key :=
  (Found.narrow_perm (h.columns_perm.filter _)).symm

end RelationInfo.Rearranged

namespace Scope.Rearranged

variable {s s' : Scope}

theorem of_perm (h : s.relations.Perm s'.relations) : s.Rearranged s' :=
  ⟨s'.relations, h, List.forall₂_same.2 fun r _ => .refl r⟩

theorem columnsNamed_perm (h : s.Rearranged s') (key : String) :
    (s.columnsNamed key).Perm (s'.columnsNamed key) := by
  obtain ⟨relations, hperm, hrearranged⟩ := h
  refine (Perm.trans (hperm.flatMap_right _) ?_).filter _
  clear hperm
  generalize s'.relations = relations' at hrearranged
  induction hrearranged with
  | nil => exact .refl _
  | cons hr _ ih => exact (hr.columns_perm).append ih

/-- What the relations that pass a test answer for a column name, in some order; the test must not look at the order
of the columns. -/
theorem answers_perm (h : s.Rearranged s') {test : RelationInfo → Bool}
    (htest : ∀ r r' : RelationInfo, r.Rearranged r' → test r' = test r) (key : String) :
    ((s.relations.filter test).map (·.column key)).Perm ((s'.relations.filter test).map (·.column key)) := by
  obtain ⟨relations, hperm, hrearranged⟩ := h
  refine ((hperm.filter _).map _).trans (.of_eq ?_)
  clear hperm
  generalize s'.relations = relations' at *
  induction hrearranged with
  | nil => rfl
  | @cons r r' _ _ hr _ ih =>
    rw [List.filter_cons, List.filter_cons, htest r r' hr]
    split
    · rw [List.map_cons, List.map_cons, hr.column_eq, ih]
    · exact ih

theorem relationsCalled_perm (h : s.Rearranged s') (qualifier key : String) :
    ((s.relationsCalled qualifier).map (·.column key)).Perm ((s'.relationsCalled qualifier).map (·.column key)) :=
  h.answers_perm (fun r r' hr => by rw [hr.correlation_eq]) key

theorem isEmpty_eq (h : s.Rearranged s') : s'.relations.isEmpty = s.relations.isEmpty := by
  obtain ⟨relations, hperm, hrearranged⟩ := h
  have hlength := hperm.length_eq.trans hrearranged.length_eq
  rw [Bool.eq_iff_iff, List.isEmpty_iff_length_eq_zero, List.isEmpty_iff_length_eq_zero, hlength]

end Scope.Rearranged

namespace Scopes

variable {α β : Type} {f f' : Scope → List α} {scopes scopes' inner outer : Scopes} {scope : Scope}

/-- What `f` gives for the innermost scope for which it gives something. -/
def nearest (f : Scope → List α) : Scopes → List α
  | [] => []
  | scope :: outer => if (f scope).isEmpty then nearest f outer else f scope

theorem Rearranged.refl (scopes : Scopes) : scopes.Rearranged scopes :=
  List.forall₂_same.2 fun _ _ => .of_perm (.refl _)

theorem nearest_cons (h : f scope ≠ []) : nearest f (scope :: outer) = f scope := by
  rw [nearest, if_neg (by simpa using h)]

theorem nearest_append (h : ∀ s ∈ inner, f s = []) : nearest f (inner ++ outer) = nearest f outer := by
  induction inner with
  | nil => rfl
  | cons s inner ih =>
    rw [List.cons_append, nearest, h s List.mem_cons_self]
    exact ih fun t ht => h t (List.mem_cons_of_mem s ht)

/-- What is around a scope for which `f` gives something is not looked at. -/
theorem nearest_shadowed (h : f scope ≠ []) (inner outer outer' : Scopes) :
    nearest f (inner ++ scope :: outer') = nearest f (inner ++ scope :: outer) := by
  induction inner with
  | nil => rw [List.nil_append, List.nil_append, nearest_cons h, nearest_cons h]
  | cons s inner ih => rw [List.cons_append, List.cons_append, nearest, nearest, ih]

theorem nearest_map (g : α → β) (scopes : Scopes) :
    (nearest f scopes).map g = nearest (fun s => (f s).map g) scopes := by
  induction scopes with
  | nil => rfl
  | cons s outer ih =>
    rw [nearest, nearest, List.isEmpty_map]
    split
    · exact ih
    · rfl

theorem nearest_perm (h : Forall₂ (fun s s' => (f s).Perm (f' s')) scopes scopes') :
    (nearest f scopes).Perm (nearest f' scopes') := by
  induction h with
  | nil => exact .refl _
  | cons hs _ ih =>
    rw [nearest, nearest, hs.isEmpty_eq]
    split
    · exact ih
    · exact hs

theorem column_eq (scopes : Scopes) (key : String) :
    scopes.column key = Found.narrow (scopes.nearest (·.columnsNamed key)) := by
  induction scopes with
  | nil => rfl
  | cons s outer ih =>
    by_cases hs : s.columnsNamed key = []
    · rw [column, nearest, hs]
      unfold Scope.columnsNamed at hs
      rw [hs]
      exact ih
    · rw [nearest_cons hs, column]
      split
      · next h => exact absurd (Found.narrow_eq_nothing_iff.1 h) hs
      · rfl

theorem relation_eq (scopes : Scopes) (qualifier : String) :
    scopes.relation qualifier = Found.only (scopes.nearest (·.relationsCalled qualifier)) := by
  induction scopes with
  | nil => rfl
  | cons s outer ih =>
    rw [relation, nearest]
    rcases s.relationsCalled qualifier with _ | ⟨r, _ | ⟨r', rs⟩⟩
    · exact ih
    · rfl
    · rfl

theorem column_rearranged (h : scopes.Rearranged scopes') (key : String) :
    scopes'.column key = scopes.column key := by
  rw [column_eq, column_eq]
  exact (Found.narrow_perm (nearest_perm (h.imp fun _ _ hs => hs.columnsNamed_perm key))).symm

theorem relation_rearranged (h : scopes.Rearranged scopes') (qualifier key : String) :
    (scopes'.relation qualifier).map (·.column key) = (scopes.relation qualifier).map (·.column key) := by
  rw [relation_eq, relation_eq, Found.map_only, Found.map_only, nearest_map, nearest_map]
  exact (Found.only_perm (nearest_perm (h.imp fun _ _ hs => hs.relationsCalled_perm qualifier key))).symm

theorem hasRelation_rearranged (h : scopes.Rearranged scopes') : scopes'.hasRelation = scopes.hasRelation := by
  unfold hasRelation
  induction h with
  | nil => rfl
  | cons hs _ ih => rw [List.any_cons, List.any_cons, ih, hs.isEmpty_eq]

end Scopes

namespace Name

variable {σ : Type} {env : Environment} {scopes scopes' : Scopes} {relation column : Identifier} {n : Nat}

theorem resolveBare_rearranged (name : Name) (h : scopes.Rearranged scopes') :
    name.resolveBare scopes' = name.resolveBare scopes := by
  simp only [resolveBare, Scopes.column_rearranged h, Scopes.hasRelation_rearranged h]

theorem resolveInRelation_congr (name : Name) (s : σ)
    (h : (scopes'.relation (env.options.key relation)).map (·.column (env.options.key column)) =
      (scopes.relation (env.options.key relation)).map (·.column (env.options.key column))) :
    name.resolveInRelation relation column scopes' env s = name.resolveInRelation relation column scopes env s := by
  unfold resolveInRelation
  rw [Step.bind_eq_of_ok (m := Step.options) rfl, Step.bind_eq_of_ok (m := Step.options) rfl]
  cases hr : scopes.relation (env.options.key relation) <;>
    cases hr' : scopes'.relation (env.options.key relation) <;>
    simp_all [Found.map]

theorem resolveVariable_rearranged {name : Name} (hlength : name.segments.length ≤ 2)
    (h : scopes.Rearranged scopes') (env : Environment) (n : Nat) :
    name.resolveVariable scopes' env n = name.resolveVariable scopes env n := by
  unfold resolveVariable
  rcases hsegments : name.segments with _ | ⟨a, _ | ⟨b, _ | ⟨c, rest⟩⟩⟩
  · rfl
  · exact congrFun (congrFun (name.resolveBare_rearranged h) env) n
  · exact name.resolveInRelation_congr n (Scopes.relation_rearranged h _ _)
  · simp [hsegments] at hlength

theorem objectKey_single (identifier : Identifier) (s : σ) :
    (objectKey ⟨[identifier]⟩ : Step σ String) env s = (.ok (env.options.key identifier), s) := rfl

/-- A bare name that some column has is answered from the columns alone. -/
theorem resolveBare_congr
    (hsame : scopes'.column (env.options.key identifier) = scopes.column (env.options.key identifier))
    (hfound : scopes.column (env.options.key identifier) ≠ .nothing) :
    resolveVariable ⟨[identifier]⟩ scopes' env n = resolveVariable ⟨[identifier]⟩ scopes env n := by
  change resolveBare _ scopes' env n = resolveBare _ scopes env n
  rw [resolveBare, resolveBare, Step.bind_eq_of_ok (objectKey_single identifier n),
    Step.bind_eq_of_ok (objectKey_single identifier n), hsame]
  cases hc : scopes.column (env.options.key identifier) with
  | nothing => exact absurd hc hfound
  | one c => rfl
  | several => rfl

theorem resolveBare_verdict (hfound : scopes.column (env.options.key identifier) ≠ .nothing) :
    (resolveVariable ⟨[identifier]⟩ scopes).verdict env n = (scopes.column (env.options.key identifier)).verdict := by
  change (resolveBare _ scopes env n).1.verdict = _
  rw [resolveBare, Step.bind_eq_of_ok (objectKey_single identifier n)]
  cases hc : scopes.column (env.options.key identifier) with
  | nothing => exact absurd hc hfound
  | one c => rfl
  | several => rfl

theorem resolveInRelation_verdict (relation column : Identifier) (scopes : Scopes) :
    (resolveVariable ⟨[relation, column]⟩ scopes).verdict env n =
      match scopes.relation (env.options.key relation) with
      | .one r => (r.column (env.options.key column)).verdict
      | .several => .error .relationAmbiguous
      | .nothing => .error .relationNotFound := by
  change (resolveInRelation _ relation column scopes env n).1.verdict = _
  rw [resolveInRelation, Step.bind_eq_of_ok (m := Step.options) rfl]
  cases scopes.relation (env.options.key relation) with
  | nothing => rfl
  | several => rfl
  | one r =>
    dsimp only
    cases r.column (env.options.key column) <;> rfl

section Decided

variable {inner outer : Scopes} {scope : Scope}

theorem column_ne_nothing (h : scope.columnsNamed key ≠ []) :
    Scopes.column (inner ++ scope :: outer) key ≠ .nothing := by
  rw [Scopes.column_eq, ne_eq, Found.narrow_eq_nothing_iff]
  induction inner with
  | nil => rwa [List.nil_append, Scopes.nearest_cons h]
  | cons s inner ih =>
    rw [List.cons_append, Scopes.nearest]
    split
    · exact ih
    · next hs => simpa using hs

theorem resolveBare_shadowed (h : scope.columnsNamed (env.options.key identifier) ≠ []) (outer' : Scopes) :
    resolveVariable ⟨[identifier]⟩ (inner ++ scope :: outer') env n =
      resolveVariable ⟨[identifier]⟩ (inner ++ scope :: outer) env n := by
  refine resolveBare_congr ?_ (column_ne_nothing h)
  rw [Scopes.column_eq, Scopes.column_eq, Scopes.nearest_shadowed h]

theorem resolveBare_decides (h : scope.columnsNamed (env.options.key identifier) ≠ [])
    (hinner : ∀ s ∈ inner, s.columnsNamed (env.options.key identifier) = []) :
    Decides (scope.columnsNamed (env.options.key identifier))
      ((resolveVariable ⟨[identifier]⟩ (inner ++ scope :: outer)).verdict env n) := by
  rw [resolveBare_verdict (column_ne_nothing h), Scopes.column_eq, Scopes.nearest_append hinner, Scopes.nearest_cons h]
  exact Found.decides_narrow h

theorem resolveInRelation_shadowed (h : scope.relationsCalled (env.options.key relation) ≠ []) (outer' : Scopes) :
    resolveVariable ⟨[relation, column]⟩ (inner ++ scope :: outer') env n =
      resolveVariable ⟨[relation, column]⟩ (inner ++ scope :: outer) env n := by
  refine resolveInRelation_congr _ n ?_
  rw [Scopes.relation_eq, Scopes.relation_eq, Scopes.nearest_shadowed h]

theorem relation_decided (h : scope.relationsCalled key ≠ []) (hinner : ∀ s ∈ inner, s.relationsCalled key = []) :
    Scopes.relation (inner ++ scope :: outer) key = .only (scope.relationsCalled key) := by
  rw [Scopes.relation_eq, Scopes.nearest_append hinner, Scopes.nearest_cons h]

end Decided

end Name

/-- The column that a name denotes depends on what the scopes hold and not on its order, and only on the scopes up to
the innermost one that knows the name, where the matching columns decide. -/
theorem Name.resolveVariable_decided (env : Environment) (n : Nat) :
    (∀ (name : Name) (scopes scopes' : Scopes), name.segments.length = 1 ∨ name.segments.length = 2 →
      scopes.Rearranged scopes' → name.resolveVariable scopes' env n = name.resolveVariable scopes env n) ∧
    (∀ identifier inner scope outer, scope.columnsNamed (env.options.key identifier) ≠ [] →
      (∀ outer', resolveVariable ⟨[identifier]⟩ (inner ++ scope :: outer') env n =
        resolveVariable ⟨[identifier]⟩ (inner ++ scope :: outer) env n) ∧
      ((∀ s ∈ inner, s.columnsNamed (env.options.key identifier) = []) →
        Decides (scope.columnsNamed (env.options.key identifier))
          ((resolveVariable ⟨[identifier]⟩ (inner ++ scope :: outer)).verdict env n))) ∧
    (∀ relation column inner scope outer, scope.relationsCalled (env.options.key relation) ≠ [] →
      (∀ outer', resolveVariable ⟨[relation, column]⟩ (inner ++ scope :: outer') env n =
        resolveVariable ⟨[relation, column]⟩ (inner ++ scope :: outer) env n) ∧
      ((∀ s ∈ inner, s.relationsCalled (env.options.key relation) = []) →
        (2 ≤ (scope.relationsCalled (env.options.key relation)).length →
          (resolveVariable ⟨[relation, column]⟩ (inner ++ scope :: outer)).verdict env n = .error .relationAmbiguous) ∧
        (∀ r, scope.relationsCalled (env.options.key relation) = [r] →
          (r.columnsNamed (env.options.key column) = [] →
            (resolveVariable ⟨[relation, column]⟩ (inner ++ scope :: outer)).verdict env n = .error .columnNotFound) ∧
          (r.columnsNamed (env.options.key column) ≠ [] →
            Decides (r.columnsNamed (env.options.key column))
              ((resolveVariable ⟨[relation, column]⟩ (inner ++ scope :: outer)).verdict env n))))) := by
  refine ⟨fun name scopes scopes' hlength h => resolveVariable_rearranged (by omega) h env n, ?_, ?_⟩
  · intro identifier inner scope outer h
    exact ⟨resolveBare_shadowed h, resolveBare_decides h⟩
  · intro relation column inner scope outer h
    refine ⟨resolveInRelation_shadowed h, fun hinner => ?_⟩
    rw [resolveInRelation_verdict, relation_decided h hinner]
    refine ⟨fun hseveral => ?_, fun r hr => ?_⟩
    · rcases hcalled : scope.relationsCalled (env.options.key relation) with _ | ⟨r, _ | ⟨r', rs⟩⟩
      · exact absurd hcalled h
      · simp [hcalled] at hseveral
      · rfl
    · rw [hr]
      refine ⟨fun hnone => ?_, Found.decides_narrow⟩
      change (Found.narrow (r.columnsNamed (env.options.key column))).verdict = _
      rw [hnone]
      rfl

namespace Sample

def columnX (number : Nat) (exported : Bool) : ColumnInfo where
  name := some "x"
  carrier := ⟨number, .stream (some "x")⟩
  type := .int4
  exported

/-- Two relations `r` and one relation `s`, whose column is the exported one. -/
def manyX : List RelationInfo :=
  [{ columns := [columnX 1 false], correlation := some "r" },
    { columns := [columnX 2 true], correlation := some "s" },
    { columns := [columnX 3 false], correlation := some "r" }]

end Sample

/-- The exported one of three columns is found in any order of the relations and in front of any outer scopes, and the
relation `r` is ambiguous. -/
theorem Name.resolveVariable_decided_exported :
    (∀ relations outer, Sample.manyX.Perm relations →
      (resolveVariable ⟨[.quoted "x"]⟩ ({ relations } :: outer)).verdict default 0 =
        .ok (.column (Sample.columnX 2 true))) ∧
    (resolveVariable ⟨[.quoted "r", .quoted "x"]⟩ [{ relations := Sample.manyX }]).verdict default 0 =
      .error .relationAmbiguous := by
  obtain ⟨horder, hbare, hqualified⟩ := Name.resolveVariable_decided default 0
  obtain ⟨hshadow, hdecides⟩ := hbare (.quoted "x") [] { relations := Sample.manyX } [] (by decide)
  refine ⟨fun relations outer hperm => ?_, ?_⟩
  · have hrearranged : Scopes.Rearranged ({ relations := Sample.manyX } :: outer) ({ relations } :: outer) :=
      .cons (.of_perm hperm) (Scopes.Rearranged.refl outer)
    have hsame : resolveVariable ⟨[.quoted "x"]⟩ ({ relations } :: outer) default 0 =
        resolveVariable ⟨[.quoted "x"]⟩ [{ relations := Sample.manyX }] default 0 :=
      (horder _ _ _ (.inl rfl) hrearranged).trans (hshadow outer)
    rw [Step.verdict_congr hsame]
    exact (hdecides (by simp)).eq_of_exported (by decide) (by decide)
  · exact ((hqualified (.quoted "r") (.quoted "x") [] { relations := Sample.manyX } [] (by decide)).2 (by simp)).1
      (by decide)

end SqlPlan
