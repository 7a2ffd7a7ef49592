import SqlPlan.Proofs.ScalarTyping

namespace SqlPlan

namespace Variable

inductive Identity where
  | minted (id : Nat)
  | column (table : TableDecl) (position : Nat)
  | host (decl : VariableDecl)
  | external (decl : VariableDecl)
  deriving DecidableEq

def identity (v : Variable) : Identity :=
  match v.kind with
  | .stream _ => .minted v.id
  | .temporary => .minted v.id
  | .column ref => .column ref.table ref.position
  | .host decl => .host decl
  | .external decl => .external decl

theorem same_iff {v w : Variable} : v.same w = true ↔ v.identity = w.identity := by
  obtain ⟨i, k⟩ := v
  obtain ⟨j, l⟩ := w
  cases k <;> cases l <;>
    simp [same, identity, isMinted, ColumnRef.same, TableDecl.sameObject, VariableDecl.sameObject]

@[simp] theorem same_self (v : Variable) : v.same v = true := same_iff.mpr rfl

theorem same_symm {v w : Variable} (h : v.same w = true) : w.same v = true :=
  same_iff.mpr (same_iff.mp h).symm

theorem same_trans {u v w : Variable} (h : u.same v = true) (h' : v.same w = true) : u.same w = true :=
  same_iff.mpr ((same_iff.mp h).trans (same_iff.mp h'))

theorem kind_of_stream {v : Variable} (h : v.isStream = true) : ∃ label, v.kind = .stream label := by
  unfold isStream at h
  split at h
  · next label hk => exact ⟨label, hk⟩
  · cases h

theorem isMinted_of_stream {v : Variable} (h : v.isStream = true) : v.isMinted = true := by
  obtain ⟨_, hv⟩ := kind_of_stream h
  simp [isMinted, hv]

theorem same_of_stream {v w : Variable} (hv : v.isStream = true) (hw : w.isStream = true) :
    v.same w = (v.id == w.id) := by
  obtain ⟨_, hv⟩ := kind_of_stream hv
  obtain ⟨_, hw⟩ := kind_of_stream hw
  simp [same, isMinted, hv, hw]

theorem isIn_iff {v : Variable} {vs : List Variable} : v.isIn vs = true ↔ ∃ w ∈ vs, v.same w = true :=
  List.any_eq_true

theorem isIn_of_mem {v : Variable} {vs : List Variable} (h : v ∈ vs) : v.isIn vs = true :=
  isIn_iff.mpr ⟨v, h, same_self v⟩

end Variable

/-- Stream columns with increasing numbers, above `n` and up to `m`. -/
structure Fresh (n : Nat) (vs : List Variable) (m : Nat) : Prop where
  stream : ∀ v ∈ vs, v.isStream = true
  above : ∀ v ∈ vs, n < v.id
  upTo : ∀ v ∈ vs, v.id ≤ m
  increasing : vs.Pairwise fun v w => v.id < w.id

namespace Fresh

variable {n k m : Nat} {vs ws : List Variable}

theorem nil (n m : Nat) : Fresh n [] m := by constructor <;> simp

theorem cons {label : Option String} (hm : n + 1 ≤ m) (h : Fresh (n + 1) vs m) :
    Fresh n (⟨n + 1, .stream label⟩ :: vs) m where
  stream := List.forall_mem_cons.mpr ⟨rfl, h.stream⟩
  above := List.forall_mem_cons.mpr ⟨Nat.lt_succ_self n, fun v hv => by have := h.above v hv; omega⟩
  upTo := List.forall_mem_cons.mpr ⟨hm, h.upTo⟩
  increasing := List.pairwise_cons.mpr ⟨h.above, h.increasing⟩

theorem mono {n' m' : Nat} (hn : n' ≤ n) (hm : m ≤ m') (h : Fresh n vs m) : Fresh n' vs m' where
  stream := h.stream
  above v hv := by have := h.above v hv; omega
  upTo v hv := by have := h.upTo v hv; omega
  increasing := h.increasing

theorem append (h : Fresh n vs k) (h' : Fresh k ws m) (hn : n ≤ k) (hm : k ≤ m) :
    Fresh n (vs ++ ws) m where
  stream := List.forall_mem_append.mpr ⟨h.stream, h'.stream⟩
  above := List.forall_mem_append.mpr ⟨h.above, fun v hv => by have := h'.above v hv; omega⟩
  upTo := List.forall_mem_append.mpr ⟨fun v hv => by have := h.upTo v hv; omega, h'.upTo⟩
  increasing := by
    refine List.pairwise_append.mpr ⟨h.increasing, h'.increasing, fun v hv w hw => ?_⟩
    have := h.upTo v hv
    have := h'.above w hw
    omega

end Fresh

abbrev Columns := List (Variable × SqlType)

namespace Columns

def carriers (Γ : Columns) : List Variable := List.map Prod.fst Γ

def type? (Γ : Columns) : ColumnTypes := fun v => (Γ.find? fun p => v.same p.1).map (·.2)

def Distinct (Γ : Columns) : Prop := Γ.Pairwise fun p q => q.1.same p.1 = false

def Within (n : Nat) (Γ : Columns) (m : Nat) : Prop :=
  ∀ p ∈ Γ, p.1.isStream = true ∧ n < p.1.id ∧ p.1.id ≤ m

variable {Γ Γ' : Columns} {v w : Variable} {t : SqlType} {n k m : Nat}

@[simp] theorem type?_nil : type? [] v = none := rfl

theorem type?_cons (p : Variable × SqlType) (Γ : Columns) (v : Variable) :
    type? (p :: Γ) v = if v.same p.1 then some p.2 else Γ.type? v := by
  by_cases h : v.same p.1 = true <;> simp [type?, h]

theorem type?_append (Γ Γ' : Columns) (v : Variable) :
    type? (Γ ++ Γ') v = (Γ.type? v).or (Γ'.type? v) := by
  induction Γ with
  | nil => simp
  | cons p Γ ih =>
    rw [List.cons_append, type?_cons, type?_cons, ih]
    split <;> rfl

theorem type?_append_left (h : Γ.type? v = some t) : type? (Γ ++ Γ') v = some t := by
  rw [type?_append, h]
  rfl

theorem isSome_type? : (Γ.type? v).isSome = v.isIn Γ.carriers := by
  induction Γ with
  | nil => rfl
  | cons p Γ ih =>
    rw [type?_cons]
    by_cases h : v.same p.1 = true
    · simp [h, Variable.isIn, carriers]
    · simpa [h, Variable.isIn, carriers] using ih

theorem type?_eq_none (hΓ : Γ.Within n k) (hv : v.isStream = true) (hk : k < v.id ∨ v.id ≤ n) :
    Γ.type? v = none := by
  rw [type?, Option.map_eq_none_iff, List.find?_eq_none]
  intro p hp
  obtain ⟨hs, hlow, hhigh⟩ := hΓ p hp
  rw [Variable.same_of_stream hv hs]
  simp only [beq_iff_eq]
  omega

theorem type?_append_right (hΓ : Γ.Within n k) (hv : v.isStream = true) (hk : k < v.id ∨ v.id ≤ n) :
    type? (Γ ++ Γ') v = Γ'.type? v := by
  rw [type?_append, type?_eq_none hΓ hv hk]
  rfl

theorem type?_congr (hΓ : Γ.Within n k) (hv : v.isStream = true) (hw : w.isStream = true)
    (h : v.same w = true) : Γ.type? v = Γ.type? w := by
  rw [Variable.same_of_stream hv hw, beq_iff_eq] at h
  induction Γ with
  | nil => rfl
  | cons p Γ ih =>
    have hp := (hΓ p (by simp)).1
    rw [type?_cons, type?_cons, ih fun q hq => hΓ q (by simp [hq]), Variable.same_of_stream hv hp,
      Variable.same_of_stream hw hp, h]

theorem type?_of_mem (hd : Γ.Distinct) (h : (v, t) ∈ Γ) : Γ.type? v = some t := by
  induction Γ with
  | nil => cases h
  | cons p Γ ih =>
    obtain ⟨hp, hd⟩ := List.pairwise_cons.mp hd
    rw [type?_cons]
    rcases List.mem_cons.mp h with rfl | h
    · simp
    · simp [hp _ h, ih hd h]

theorem within_of_type? (hΓ : Γ.Within n m) (hv : v.isStream = true) (h : Γ.type? v = some t) :
    n < v.id ∧ v.id ≤ m := by
  obtain ⟨p, hp, -⟩ := Option.map_eq_some_iff.mp h
  obtain ⟨hs, hlow, hhigh⟩ := hΓ p (List.mem_of_find?_eq_some hp)
  have hsame := List.find?_some hp
  rw [Variable.same_of_stream hv hs, beq_iff_eq] at hsame
  omega

theorem distinct_of_fresh (h : Fresh n Γ.carriers m) : Γ.Distinct := by
  refine List.Pairwise.imp_of_mem ?_ (List.pairwise_map.mp h.increasing)
  intro p q hp hq hlt
  have hps := h.stream p.1 (List.mem_map_of_mem hp)
  have hqs := h.stream q.1 (List.mem_map_of_mem hq)
  rw [Variable.same_of_stream hqs hps]
  simp only [beq_eq_false_iff_ne]
  omega

theorem within_of_fresh (h : Fresh n Γ.carriers m) : Γ.Within n m := by
  intro p hp
  have hmem : p.1 ∈ Γ.carriers := List.mem_map_of_mem hp
  exact ⟨h.stream _ hmem, h.above _ hmem, h.upTo _ hmem⟩

theorem Within.mono {n' m' : Nat} (hn : n' ≤ n) (hm : m ≤ m') (h : Γ.Within n m) : Γ.Within n' m' := by
  intro p hp
  obtain ⟨hs, hlow, hhigh⟩ := h p hp
  exact ⟨hs, by omega, by omega⟩

theorem Within.append (h : Γ.Within n m) (h' : Γ'.Within n m) : Within n (Γ ++ Γ') m :=
  List.forall_mem_append.mpr ⟨h, h'⟩

end Columns

end SqlPlan
