import SqlPlan.Proofs.GroupedBlock

namespace SqlPlan

variable {v : Variable} {used available : List Variable} {c : SelectColumn} {info : ColumnInfo}
  {computed : List (Variable × Scalar)} {cs : List SelectColumn} {columns : List ColumnInfo} {distinct needed : Bool}
  {s : SortRequest} {keys : List SortKey}

open List (Forall₂)

variable {env : Environment}

theorem Variable.isStream_of_isIn {vs : List Variable} {Γ : ColumnTypes} {t : SqlType}
    (hvs : ∀ w ∈ vs, w.isStream = true) (hv : v.isIn vs = true) (ht : v.typeIn Γ [] = some t) :
    v.isStream = true := by
  obtain ⟨w, hw, hsame⟩ := isIn_iff.mp hv
  obtain ⟨label, hkind⟩ := kind_of_stream (hvs w hw)
  rcases hk : v.kind with ref | label' | _ | decl | decl
  · simp [same, hk, hkind, isMinted] at hsame
  · simp [isStream, hk]
  · simp [typeIn, hk] at ht
  · simp [same, hk, hkind, isMinted] at hsame
  · simp [same, hk, hkind, isMinted] at hsame

namespace Block

variable {b : Block} {Γ : Columns} {n m lo : Nat}

theorem projectColumn_cases {computed : Option (Variable × Scalar)}
    (h : b.projectColumn used c env n = (.ok (info, computed), m)) :
    ∃ v, info = ⟨c.name, v, c.type, c.source, true⟩ ∧
      (c.value = .var v ∧ b.isPassable v = true ∧ v.isIn used = false ∧ computed = none ∧ m = n ∨
        v = ⟨n + 1, .stream c.name⟩ ∧ computed = some (v, c.value) ∧ m = n + 1) := by
  unfold projectColumn at h
  rcases hvar : c.value.asVariable? with _ | v
  · simp only [hvar, Step.bind_ok, Analysis.stream_ok, Step.pure_ok, Prod.mk.injEq] at h
    obtain ⟨_, _, ⟨rfl, rfl⟩, ⟨rfl, rfl⟩, rfl⟩ := h
    exact ⟨_, rfl, .inr ⟨rfl, rfl, rfl⟩⟩
  · simp only [hvar, Step.ite_ok, Step.bind_ok, Analysis.stream_ok, Step.pure_ok, Prod.mk.injEq] at h
    rcases h with ⟨hpass, ⟨rfl, rfl⟩, rfl⟩ | ⟨-, _, _, ⟨rfl, rfl⟩, ⟨rfl, rfl⟩, rfl⟩
    · simp only [Bool.and_eq_true, Bool.not_eq_true'] at hpass
      exact ⟨v, rfl, .inl ⟨Scalar.eq_var_of_asVariable? hvar, hpass.1, hpass.2, rfl, rfl⟩⟩
    · exact ⟨_, rfl, .inr ⟨rfl, rfl, rfl⟩⟩

theorem projectColumns_computed (h : b.projectColumns used cs env n = (.ok (columns, computed), m)) :
    n ≤ m ∧ Fresh n (computed.map (·.1)) m ∧ Forall₂ (fun c info => info.source = c.source ∧
      (c.value = .var info.carrier ∨ (info.carrier, c.value) ∈ computed)) cs columns := by
  induction cs generalizing used columns computed n with
  | nil =>
    simp only [projectColumns, Step.pure_ok, Prod.mk.injEq] at h
    obtain ⟨⟨rfl, rfl⟩, rfl⟩ := h
    exact ⟨Nat.le_refl _, .nil _ _, .nil⟩
  | cons c cs ih =>
    simp only [projectColumns, Step.bind_ok, Step.pure_ok, Prod.exists, Prod.mk.injEq] at h
    obtain ⟨info, first, k, hfirst, columns, more, _, hrest, ⟨rfl, rfl⟩, rfl⟩ := h
    obtain ⟨hle, hfresh, hall⟩ := ih hrest
    obtain ⟨v, rfl, ⟨hvalue, -, -, rfl, rfl⟩ | ⟨rfl, rfl, rfl⟩⟩ := projectColumn_cases hfirst
    · exact ⟨hle, hfresh, .cons ⟨rfl, .inl hvalue⟩ hall⟩
    · refine ⟨by omega, .cons hle hfresh, .cons ⟨rfl, .inr List.mem_cons_self⟩ (hall.imp ?_)⟩
      exact fun _ _ hc => ⟨hc.1, hc.2.imp_right (List.mem_cons_of_mem _)⟩

theorem projectColumn_distinguished {computed : Option (Variable × Scalar)} (hlo : lo ≤ n)
    (hused : ∀ w ∈ used, w.isStream = true ∧ w.id ≤ n)
    (hc : ∀ v, c.value = .var v → b.isPassable v = true → lo < v.id ∧ v.id ≤ n)
    (h : b.projectColumn used c env n = (.ok (info, computed), m)) :
    n ≤ m ∧ info.carrier.isStream = true ∧ (lo < info.carrier.id ∧ info.carrier.id ≤ m) ∧
      ∀ w ∈ used, info.carrier.same w = false := by
  obtain ⟨v, rfl, ⟨hvalue, hpass, hin, rfl, rfl⟩ | ⟨rfl, rfl, rfl⟩⟩ := projectColumn_cases h
  · refine ⟨Nat.le_refl _, (Bool.and_eq_true_iff.mp hpass).1, hc v hvalue hpass, fun w hw => ?_⟩
    rw [← Bool.not_eq_true]
    intro hsame
    rw [Variable.isIn_iff.mpr ⟨w, hw, hsame⟩] at hin
    cases hin
  · refine ⟨Nat.le_succ n, rfl, ⟨Nat.lt_succ_of_le hlo, Nat.le_refl _⟩, fun w hw => ?_⟩
    obtain ⟨hs, hle⟩ := hused w hw
    rw [Variable.same_of_stream rfl hs, beq_eq_false_iff_ne]
    change n + 1 ≠ w.id
    omega

/-- The columns of a result are stream columns with numbers above `lo` and up to `m`, no two of which are
the same. -/
structure Distinguished (lo : Nat) (used : List Variable) (columns : List ColumnInfo) (m : Nat) : Prop where
  streams : ∀ c ∈ columns, c.carrier.isStream = true
  within : ∀ c ∈ columns, lo < c.carrier.id ∧ c.carrier.id ≤ m
  unused : ∀ c ∈ columns, ∀ w ∈ used, c.carrier.same w = false
  distinct : columns.Pairwise fun c c' => c'.carrier.same c.carrier = false

theorem projectColumns_distinguished (hlo : lo ≤ n) (hused : ∀ w ∈ used, w.isStream = true ∧ w.id ≤ n)
    (hcs : ∀ c ∈ cs, ∀ v, c.value = .var v → b.isPassable v = true → lo < v.id ∧ v.id ≤ n)
    (h : b.projectColumns used cs env n = (.ok (columns, computed), m)) : Distinguished lo used columns m := by
  induction cs generalizing used columns computed n with
  | nil =>
    simp only [projectColumns, Step.pure_ok, Prod.mk.injEq] at h
    obtain ⟨⟨rfl, rfl⟩, rfl⟩ := h
    exact ⟨by simp, by simp, by simp, .nil⟩
  | cons c cs ih =>
    simp only [projectColumns, Step.bind_ok, Step.pure_ok, Prod.exists, Prod.mk.injEq] at h
    obtain ⟨info, first, k, hfirst, columns, more, _, hrest, ⟨rfl, rfl⟩, rfl⟩ := h
    obtain ⟨hc, hcs⟩ := List.forall_mem_cons.mp hcs
    obtain ⟨hle, hstream, hwithin, hunused⟩ := projectColumn_distinguished hlo hused hc hfirst
    have hused' : ∀ w ∈ info.carrier :: used, w.isStream = true ∧ w.id ≤ k :=
      List.forall_mem_cons.mpr
        ⟨⟨hstream, hwithin.2⟩, fun w hw => ⟨(hused w hw).1, Nat.le_trans (hused w hw).2 hle⟩⟩
    have hcs' : ∀ c ∈ cs, ∀ v, c.value = .var v → b.isPassable v = true → lo < v.id ∧ v.id ≤ k :=
      fun c hc v hv hpass => ⟨(hcs c hc v hv hpass).1, Nat.le_trans (hcs c hc v hv hpass).2 hle⟩
    obtain ⟨hle', -, -⟩ := projectColumns_computed hrest
    have hd := ih (Nat.le_trans hlo hle) hused' hcs' hrest
    refine ⟨?_, ?_, ?_, ?_⟩
    · exact List.forall_mem_cons.mpr ⟨hstream, hd.streams⟩
    · exact List.forall_mem_cons.mpr ⟨⟨hwithin.1, Nat.le_trans hwithin.2 hle'⟩, hd.within⟩
    · refine List.forall_mem_cons.mpr ⟨hunused, fun c' hc' w hw => ?_⟩
      exact hd.unused c' hc' w (List.mem_cons_of_mem _ hw)
    · exact List.pairwise_cons.mpr ⟨fun c' hc' => hd.unused c' hc' _ List.mem_cons_self, hd.distinct⟩

theorem passable_type? (hc : c.value.HasType Γ.type? c.type) (hvalue : c.value = .var v)
    (hpass : b.isPassable v = true) : Γ.type? v = some c.type := by
  have ht := hc []
  rw [hvalue] at ht
  exact (Variable.typeIn_stream (Bool.and_eq_true_iff.mp hpass).1 Γ.type? []).symm.trans ht

theorem projectColumn_ok {computed : Option (Variable × Scalar)} (hc : c.value.HasType Γ.type? c.type)
    (h : b.projectColumn used c env n = (.ok (info, computed), m)) :
    ∃ C, Computes Γ.type? n computed.toList C m ∧
      ∀ Γ' : ColumnTypes, Γ.type?.Le Γ' → (∀ p ∈ C, Γ' p.1 = some p.2) →
        Γ' info.carrier = some info.type := by
  obtain ⟨v, rfl, ⟨hvalue, hpass, -, rfl, rfl⟩ | ⟨rfl, rfl, rfl⟩⟩ := projectColumn_cases h
  · exact ⟨[], .nil _ _, fun Γ' hle _ => hle v c.type (passable_type? hc hvalue hpass)⟩
  · exact ⟨_, .single (hc []), fun Γ' _ hC => hC _ (List.mem_singleton_self _)⟩

theorem projectColumns_length (h : b.projectColumns used cs env n = (.ok (columns, computed), m)) :
    columns.length = cs.length :=
  (projectColumns_computed h).2.2.length_eq.symm

theorem projectColumns_ok (hcs : ∀ c ∈ cs, c.value.HasType Γ.type? c.type)
    (h : b.projectColumns used cs env n = (.ok (columns, computed), m)) :
    ∃ C, Computes Γ.type? n computed C m ∧
      ∀ Γ' : ColumnTypes, Γ.type?.Le Γ' → (∀ p ∈ C, Γ' p.1 = some p.2) →
        ∀ c ∈ columns, Γ' c.carrier = some c.type := by
  induction cs generalizing used columns computed n with
  | nil =>
    simp only [projectColumns, Step.pure_ok, Prod.mk.injEq] at h
    obtain ⟨⟨rfl, rfl⟩, rfl⟩ := h
    exact ⟨[], .nil _ _, by simp⟩
  | cons c cs ih =>
    simp only [projectColumns, Step.bind_ok, Step.pure_ok, Prod.exists, Prod.mk.injEq] at h
    obtain ⟨info, first, k, hfirst, columns, more, _, hrest, ⟨rfl, rfl⟩, rfl⟩ := h
    obtain ⟨hc, hcs⟩ := List.forall_mem_cons.mp hcs
    obtain ⟨C, hC, htype⟩ := projectColumn_ok hc hfirst
    obtain ⟨C', hC', htypes⟩ := ih hcs hrest
    refine ⟨C ++ C', hC.append hC', fun Γ' hle hall => ?_⟩
    obtain ⟨hleft, hright⟩ := List.forall_mem_append.mp hall
    exact List.forall_mem_cons.mpr ⟨htype Γ' hle hleft, htypes Γ' hle hright⟩

/-- A sort key is a column of the result, one that is available beside it, or a new one. -/
theorem sortColumn_cases {computed : Option (Variable × Scalar)}
    (h : sortColumn distinct columns available s env n = (.ok (v, computed), m)) :
    (∃ i, s.target = .output i ∧ v = (columns[i]?.map (·.carrier)).getD default ∧ computed = none ∧ m = n) ∨
      ∃ e, s.target = .expr e ∧
        (e = .var v ∧ (v.isIn (columns.map (·.carrier)) = true ∨ distinct = false ∧ v.isIn available = true) ∧
            computed = none ∧ m = n ∨
          distinct = false ∧ v = ⟨n + 1, .stream none⟩ ∧ computed = some (v, e) ∧ m = n + 1) := by
  unfold sortColumn at h
  rcases htarget : s.target with i | e
  · simp only [htarget, Step.pure_ok, Prod.mk.injEq] at h
    obtain ⟨⟨rfl, rfl⟩, rfl⟩ := h
    exact .inl ⟨i, rfl, rfl, rfl, rfl⟩
  · refine .inr ⟨e, rfl, ?_⟩
    rcases hvar : e.asVariable? with _ | w
    · simp only [htarget, hvar, sortColumn.unsorted, Step.ite_ok, Step.fail_ok, Step.bind_ok,
        Analysis.stream_ok, Step.pure_ok, Prod.mk.injEq, and_false, false_or, Bool.not_eq_true] at h
      obtain ⟨hd, _, _, ⟨rfl, rfl⟩, ⟨rfl, rfl⟩, rfl⟩ := h
      exact .inr ⟨hd, rfl, rfl, rfl⟩
    · simp only [htarget, hvar, sortColumn.unsorted, Step.ite_ok, Step.fail_ok, Step.bind_ok,
        Analysis.stream_ok, Step.pure_ok, Prod.mk.injEq, and_false, false_or, Bool.not_eq_true] at h
      rcases h with ⟨hin, ⟨rfl, rfl⟩, rfl⟩ | ⟨-, hd, h⟩
      · exact .inl ⟨Scalar.eq_var_of_asVariable? hvar, .inl hin, rfl, rfl⟩
      · rcases h with ⟨hin, ⟨rfl, rfl⟩, rfl⟩ | ⟨-, _, _, ⟨rfl, rfl⟩, ⟨rfl, rfl⟩, rfl⟩
        · exact .inl ⟨Scalar.eq_var_of_asVariable? hvar, .inr ⟨hd, hin⟩, rfl, rfl⟩
        · exact .inr ⟨hd, rfl, rfl, rfl⟩

def Sorts (Γ C : Columns) (distinct : Bool) (columns : List ColumnInfo) (v : Variable) : Prop :=
  v.isStream = true ∧ (v.isIn (columns.map (·.carrier)) = true ∨
    distinct = false ∧ ∃ t, Γ.type? v = some t ∨ (v, t) ∈ C)

theorem sortColumn_ok {computed : Option (Variable × Scalar)} (hcolumns : ∀ c ∈ columns, c.carrier.isStream = true)
    (havailable : ∀ w ∈ available, w.isStream = true) (hs : SortTarget.Typed Γ.type? columns.length s.target)
    (h : sortColumn distinct columns available s env n = (.ok (v, computed), m)) :
    ∃ C, Computes Γ.type? n computed.toList C m ∧ Sorts Γ C distinct columns v := by
  have hcarriers : ∀ w ∈ columns.map (·.carrier), w.isStream = true := by
    intro w hw
    obtain ⟨c, hc, rfl⟩ := List.mem_map.mp hw
    exact hcolumns c hc
  rcases sortColumn_cases h with ⟨i, htarget, rfl, rfl, rfl⟩ | ⟨e, htarget, h⟩
  · rw [htarget] at hs
    have hi := List.getElem?_eq_getElem hs
    have hmem := List.getElem_mem hs
    rw [hi]
    refine ⟨[], .nil _ _, hcolumns _ hmem, .inl ?_⟩
    exact Variable.isIn_of_mem (List.mem_map_of_mem hmem)
  · rw [htarget] at hs
    obtain ⟨t, ht⟩ := hs
    rcases h with ⟨rfl, hin, rfl, rfl⟩ | ⟨hd, rfl, rfl, rfl⟩
    · have ht : v.typeIn Γ.type? [] = some t := ht []
      rcases hin with hin | ⟨hd, hin⟩
      · exact ⟨[], .nil _ _, Variable.isStream_of_isIn hcarriers hin ht, .inl hin⟩
      · have hstream := Variable.isStream_of_isIn havailable hin ht
        rw [Variable.typeIn_stream hstream] at ht
        exact ⟨[], .nil _ _, hstream, .inr ⟨hd, t, .inl ht⟩⟩
    · exact ⟨_, .single (ht []), rfl, .inr ⟨hd, t, .inr (List.mem_singleton_self _)⟩⟩

theorem Sorts.mono {C C' : Columns} (hC : ∀ p ∈ C, p ∈ C') (h : Sorts Γ C distinct columns v) :
    Sorts Γ C' distinct columns v := by
  obtain ⟨hs, hin | ⟨hd, t, ht | ht⟩⟩ := h
  · exact ⟨hs, .inl hin⟩
  · exact ⟨hs, .inr ⟨hd, t, .inl ht⟩⟩
  · exact ⟨hs, .inr ⟨hd, t, .inr (hC _ ht)⟩⟩

theorem sortColumns_ok {sorts : List SortRequest} (hcolumns : ∀ c ∈ columns, c.carrier.isStream = true)
    (havailable : ∀ w ∈ available, w.isStream = true)
    (hs : ∀ s ∈ sorts, SortTarget.Typed Γ.type? columns.length s.target)
    (h : sortColumns distinct columns available sorts env n = (.ok (keys, computed), m)) :
    ∃ C, Computes Γ.type? n computed C m ∧ ∀ key ∈ keys, Sorts Γ C distinct columns key.column := by
  induction sorts generalizing keys computed n with
  | nil =>
    simp only [sortColumns, Step.pure_ok, Prod.mk.injEq] at h
    obtain ⟨⟨rfl, rfl⟩, rfl⟩ := h
    exact ⟨[], .nil _ _, by simp⟩
  | cons s sorts ih =>
    simp only [sortColumns, Step.bind_ok, Step.pure_ok, Prod.exists, Prod.mk.injEq] at h
    obtain ⟨v, first, k, hfirst, keys, more, _, hrest, ⟨rfl, rfl⟩, rfl⟩ := h
    obtain ⟨hhead, htail⟩ := List.forall_mem_cons.mp hs
    obtain ⟨C, hC, hv⟩ := sortColumn_ok hcolumns havailable hhead hfirst
    obtain ⟨C', hC', hkeys⟩ := ih htail hrest
    refine ⟨C ++ C', hC.append hC', List.forall_mem_cons.mpr ⟨?_, fun key hkey => ?_⟩⟩
    · exact hv.mono fun p hp => List.mem_append_left _ hp
    · exact (hkeys key hkey).mono fun p hp => List.mem_append_right _ hp

variable {Q : Type} {d d₁ d₂ : Draft} {input output : Socket}

theorem addFilter_delivers {condition : Option Scalar} (hb : Builds d [(input, Γ)] d₁)
    (hc : ∀ c ∈ condition, ∃ t, c.HasType Γ.type? t)
    (h : addFilter condition input env d₁ = (.ok output, d₂)) :
    Builds d [(output, Γ)] d₂ ∧ d₂.minted = d₁.minted := by
  cases condition with
  | none =>
    obtain ⟨rfl, rfl⟩ := Step.pure_ok.mp h
    exact ⟨hb, rfl⟩
  | some c =>
    obtain ⟨t, ht⟩ := hc c rfl
    simp only [addFilter, Planning.add_ok] at h
    obtain ⟨rfl, hm, hg⟩ := h
    refine ⟨hb.unary (Nat.le_of_eq hm.symm) hg ?_ ?_ (by simp [Operator.subqueries]), hm⟩
    · simp [Operator.columns, ht []]
    · rw [hm]
      exact hb.within _ (List.mem_singleton_self _)

theorem addDistinct_delivers {keys : List Variable} (hb : Builds d [(input, Γ)] d₁)
    (hkeys : ∀ v ∈ keys, v.isStream = true ∧ ∃ t, Γ.type? v = some t)
    (h : addIf needed (.distinct keys) input env d₁ = (.ok output, d₂)) :
    ∃ Γ', Builds d [(output, Γ')] d₂ ∧ (needed = false → Γ' = Γ) ∧
      ∀ v, v.isStream = true → v.isIn keys = true → Γ'.type? v = Γ.type? v := by
  rcases addIf_cases h with ⟨-, rfl, rfl⟩ | ⟨rfl, rfl, hm, hg⟩
  · exact ⟨Γ, hb, fun _ => rfl, fun _ _ _ => rfl⟩
  · have hw := hb.within _ (List.mem_singleton_self _)
    obtain ⟨Γ', hselect, -, hw', htypes⟩ := Columns.select_ok hw hkeys
    refine ⟨Γ', ?_, by simp, htypes⟩
    refine hb.unary (Nat.le_of_eq hm.symm) hg hselect ?_ (by simp [Operator.subqueries])
    rwa [hm]

theorem addLimit_delivers {count : Option Nat} (hb : Builds d [(input, Γ)] d₁)
    (hkeys : ∀ key ∈ keys, key.column.isStream = true ∧ ∃ t, Γ.type? key.column = some t)
    (h : addIf needed (.limit count keys) input env d₁ = (.ok output, d₂)) : Builds d [(output, Γ)] d₂ := by
  rcases addIf_cases h with ⟨-, rfl, rfl⟩ | ⟨-, rfl, hm, hg⟩
  · exact hb
  · have hw := hb.within _ (List.mem_singleton_self _)
    have hcolumns : ∀ v ∈ keys.map (·.column), v.isStream = true ∧ ∃ t, Γ.type? v = some t := by
      intro v hv
      obtain ⟨key, hkey, rfl⟩ := List.mem_map.mp hv
      exact hkeys key hkey
    obtain ⟨Γ', hselect, -⟩ := Columns.select_ok hw hcolumns
    refine hb.unary (Nat.le_of_eq hm.symm) hg ?_ (by rwa [hm]) (by simp [Operator.subqueries])
    simp [Operator.columns, hselect]

/-- The projection carries the columns of the result and all sort keys. -/
theorem project_delivers {clauses : Clauses} {more : List (Variable × Scalar)} {k : Nat}
    (hb : Builds d [(input, Γ)] d₁) (ht : clauses.Typed Γ.type?) (havailable : ∀ v ∈ available, v.isStream = true)
    (hcolumns : b.projectColumns [] clauses.columns env d₁.minted = (.ok (columns, computed), k))
    (hsorts : sortColumns distinct columns available clauses.sorts env k = (.ok (keys, more), d₂.minted))
    (hg : d₂.graph = d₁.graph) (hneeded : needed = false → computed ++ more = []) {d₃ : Draft}
    (h : addIf needed (.project (computed ++ more)) input env d₂ = (.ok output, d₃)) :
    ∃ Γ', Builds d [(output, Γ')] d₃ ∧ Γ'.Carries (columns.map fun c => (c.carrier, c.type)) ∧
      ∀ key ∈ keys, key.column.isStream = true ∧
        (distinct = true → key.column.isIn (columns.map (·.carrier)) = true) ∧
        ∃ t, Γ'.type? key.column = some t := by
  have hΓ : Γ.Within d.minted d₁.minted := hb.within _ (List.mem_singleton_self _)
  have hpassed : ∀ c ∈ clauses.columns, ∀ v, c.value = .var v → b.isPassable v = true →
      d.minted < v.id ∧ v.id ≤ d₁.minted := by
    intro c hc v hvalue hpass
    have hs : v.isStream = true := (Bool.and_eq_true_iff.mp hpass).1
    exact Columns.within_of_type? hΓ hs (passable_type? (ht.columns c hc) hvalue hpass)
  have hdistinct := projectColumns_distinguished hb.minted_le (by simp) hpassed hcolumns
  have hlen := projectColumns_length hcolumns
  obtain ⟨C, hC, htypes⟩ := projectColumns_ok ht.columns hcolumns
  have hstreams := hdistinct.streams
  obtain ⟨C', hC', hkeys⟩ := sortColumns_ok hstreams havailable (hlen ▸ ht.sorts) hsorts
  have hCC := hC.append hC'
  obtain ⟨hb', -⟩ := addIf_project (hb.mint hCC.minted_le hg) hΓ hb.minted_le hCC hneeded h
  have hle : Γ.type?.Le (Columns.type? (Γ ++ (C ++ C'))) := fun v t ht => Columns.type?_append_left ht
  have hnew := (hCC.project_columns hΓ).2
  have hcarried := htypes _ hle fun p hp => hnew p (List.mem_append_left _ hp)
  refine ⟨Γ ++ (C ++ C'), hb', ⟨List.pairwise_map.mpr hdistinct.distinct, ?_⟩, fun key hkey => ?_⟩
  · intro p hp
    obtain ⟨c, hc, rfl⟩ := List.mem_map.mp hp
    exact ⟨hstreams c hc, hcarried c hc⟩
  · obtain ⟨hs, hin | ⟨hd, t, ht | ht⟩⟩ := hkeys key hkey
    · refine ⟨hs, fun _ => hin, ?_⟩
      obtain ⟨w, hw, hsame⟩ := Variable.isIn_iff.mp hin
      obtain ⟨c, hc, rfl⟩ := List.mem_map.mp hw
      have hwithin := hCC.within hΓ hb.minted_le
      exact ⟨c.type, (Columns.type?_congr hwithin hs (hstreams c hc) hsame).trans (hcarried c hc)⟩
    · exact ⟨hs, by simp [hd], t, hle _ t ht⟩
    · exact ⟨hs, by simp [hd], t, hnew _ (List.mem_append_right _ ht)⟩

theorem plan_delivers {outer : Scopes} (houter : outer.Sound) {source : Source}
    (hsource : Delivers d source d₁) {c : SelectClauses (Expr Q)} {p : Planned}
    (h : Block.plan outer source c env d₁ = (.ok p, d₂)) : Delivers d ⟨p.output, [p.relation]⟩ d₂ := by
  simp only [Block.plan, Step.bind_ok, Planning.lift_ok, Step.pure_ok, Prod.exists] at h
  obtain ⟨condition, d₃, ⟨hcondition, hg₃⟩, o₁, d₄, ho₁, clauses, d₅, ⟨hclauses, hg₅⟩, clauses', o₂,
    available, d₆, hgroup, o₃, d₇, ho₃, columns, computed, d₈, ⟨hcolumns, hg₈⟩, keys, more, d₉,
    ⟨hsorts, hg₉⟩, o₄, d₁₀, ho₄, o₅, d₁₁, ho₅, o₆, _, ho₆, rfl, rfl⟩ := h
  obtain ⟨Γ, hb, hcarries⟩ := hsource
  have hvisible : Scopes.visible (Block.scopes ⟨source.relations, outer⟩) =
      source.relations.flatMap (·.columns) := houter.visible source.relations
  have hhas : Γ.type?.Has (Block.scopes ⟨source.relations, outer⟩).visible := hvisible ▸ hcarries.has
  -- WHERE
  have hwhere : d₁.minted ≤ d₃.minted ∧ ∀ s ∈ condition, ∃ t, s.HasType Γ.type? t := by
    rcases optional_ok hcondition with ⟨-, rfl, hm⟩ | ⟨e, s, -, rfl, hs⟩
    · exact ⟨Nat.le_of_eq hm.symm, by simp⟩
    · obtain ⟨hle, t, ht⟩ := whereCondition_ok hs
      refine ⟨hle, fun s' hs' => ?_⟩
      cases hs'
      exact ⟨t, ht.hasType hhas⟩
  obtain ⟨hb₄, -⟩ := addFilter_delivers (hb.mint hwhere.1 hg₃) hwhere.2 ho₁
  -- GROUP BY and HAVING
  obtain ⟨hle₅, hresolved⟩ := clauses_ok hclauses
  obtain ⟨Γ₆, hb₆, htyped, havailable⟩ := group_delivers (hb₄.mint hle₅ hg₅) hvisible hcarries hresolved hgroup
  have hhaving : ∀ s ∈ clauses'.having.map (·.1), ∃ t, s.HasType Γ₆.type? t := by
    intro s hs
    obtain ⟨x, hx, rfl⟩ := Option.map_eq_some_iff.mp hs
    exact htyped.having x hx
  obtain ⟨hb₇, -⟩ := addFilter_delivers hb₆ hhaving ho₃
  -- the result
  obtain ⟨Γ₁₀, hb₁₀, hcarries₁₀, hkeys⟩ := project_delivers hb₇ htyped (fun v hv => (havailable v hv).1)
    hcolumns hsorts (hg₉.trans hg₈) (by simp) ho₄
  have hcarriers : ∀ v ∈ columns.map (·.carrier), v.isStream = true ∧ ∃ t, Γ₁₀.type? v = some t := by
    intro v hv
    obtain ⟨col, hcol, rfl⟩ := List.mem_map.mp hv
    obtain ⟨hs, ht⟩ := hcarries₁₀.typed (col.carrier, col.type) (List.mem_map.mpr ⟨col, hcol, rfl⟩)
    exact ⟨hs, col.type, ht⟩
  obtain ⟨Γ₁₁, hb₁₁, hsame, htypes⟩ := addDistinct_delivers hb₁₀ hcarriers ho₅
  have hkeys₁₁ : ∀ key ∈ keys, key.column.isStream = true ∧ ∃ t, Γ₁₁.type? key.column = some t := by
    intro key hkey
    obtain ⟨hs, hin, t, ht⟩ := hkeys key hkey
    refine ⟨hs, t, ?_⟩
    rcases hd : decide (c.quantifier = some .distinct) with _ | _
    · rwa [hsame hd]
    · rw [htypes _ hs (hin hd), ht]
  refine ⟨Γ₁₁, addLimit_delivers hb₁₁ hkeys₁₁ ho₆, ?_⟩
  rw [bindings_singleton]
  refine ⟨hcarries₁₀.distinct, fun p hp => ?_⟩
  obtain ⟨hs, ht⟩ := hcarries₁₀.typed p hp
  obtain ⟨col, hcol, rfl⟩ := List.mem_map.mp hp
  have hin := Variable.isIn_of_mem (List.mem_map_of_mem hcol : col.carrier ∈ columns.map (·.carrier))
  exact ⟨hs, (htypes _ hs hin).trans ht⟩

end Block

end SqlPlan
