import Mathlib.Algebra.GroupWithZero.Nat
import Mathlib.Data.List.Nodup
import SqlPlan.Proofs.AggregateCalls

namespace SqlPlan

variable {Q : Type} {env : Environment} {scopes : Scopes} {position : Position}
variable {p q : List Nat} {clauses : Nat} {tests : List Scalar} {bodies xs : List Typed}

/-- The variable was there when `n` variables had been minted, if it is told apart by its number at all. -/
def Variable.MintedBy (v : Variable) (n : Nat) : Prop := v.isMinted = true → v.id ≤ n

theorem Variable.isMinted_of_same_temporary {v w : Variable} (h : w.same v = true) (hv : v.kind = .temporary) :
    w.isMinted = true ∧ w.id = v.id := by
  rw [same_iff] at h
  simp only [identity, hv] at h
  unfold isMinted
  split at h <;> simp_all

namespace Scalar

section Declared

def ownDeclared : Scalar → List Variable
  | letIn ds _ => ds.map (·.1)
  | _ => []

def declared (s : Scalar) : List Variable :=
  s.ownDeclared ++ s.children.attach.flatMap fun c => c.1.declared
termination_by sizeOf s
decreasing_by exact sizeOf_lt_of_mem_children c.2

theorem declared_eq (s : Scalar) : s.declared = s.ownDeclared ++ s.children.flatMap declared := by
  rw [declared, List.flatMap_subtype (g := declared) fun _ _ => rfl, List.unattach_attach]

theorem declared_node {s : Scalar} (h : ∀ ds b, s ≠ letIn ds b) : s.declared = s.children.flatMap declared := by
  have hown : s.ownDeclared = [] := by
    unfold ownDeclared
    split
    · exact absurd rfl (h _ _)
    · rfl
  rw [declared_eq, hown, List.nil_append]

theorem declared_letIn (ds : List (Variable × Scalar)) (b : Scalar) :
    (letIn ds b).declared = ds.map (·.1) ++ ((ds.map (·.2)).flatMap declared ++ b.declared) := by
  rw [declared_eq]
  simp [ownDeclared, children]

theorem listLetCount_eq (ss : List Scalar) : listLetCount ss = (ss.map letCount).sum := by
  induction ss with
  | nil => rfl
  | cons s ss ih => rw [listLetCount, ih, List.map_cons, List.sum_cons]

theorem optionLetCount_eq (o : Option Scalar) : optionLetCount o = (o.toList.map letCount).sum := by
  cases o <;> rfl

theorem pairLetCount_eq (ps : List (Scalar × Scalar)) :
    pairLetCount ps = ((flatPairs ps).map letCount).sum := by
  induction ps with
  | nil => rfl
  | cons p ps ih =>
    obtain ⟨a, b⟩ := p
    rw [pairLetCount, ih]
    simp [flatPairs, Nat.add_assoc]

theorem declaratorLetCount_eq (ds : List (Variable × Scalar)) :
    declaratorLetCount ds = ds.length + ((ds.map (·.2)).map letCount).sum := by
  induction ds with
  | nil => rfl
  | cons d ds ih =>
    obtain ⟨v, s⟩ := d
    rw [declaratorLetCount, ih]
    simp only [List.length_cons, List.map_cons, List.sum_cons]
    omega

theorem letCount_eq (s : Scalar) : s.letCount = s.ownDeclared.length + (s.children.map letCount).sum := by
  cases s with
  | conditional ps o =>
    rw [letCount, pairLetCount_eq, optionLetCount_eq, children_conditional, List.map_append, List.sum_append]
    exact (Nat.zero_add _).symm
  | letIn ds b =>
    rw [letCount, declaratorLetCount_eq]
    simp [ownDeclared, children, Nat.add_assoc]
  | call f ss | aggregate f ss => simp [letCount, listLetCount_eq, ownDeclared, children]
  | _ => simp [letCount, ownDeclared, children, Nat.add_assoc]

theorem length_declared (s : Scalar) : s.declared.length = s.letCount := by
  induction s using childInduction with
  | node s ih =>
    rw [declared_eq, letCount_eq, List.length_append, List.length_flatMap, List.map_congr_left ih]

theorem mem_declared_of_at? {s : Scalar} {ds : List (Variable × Scalar)} {b : Scalar} {v : Variable}
    (hp : s.at? p = some (letIn ds b)) (hv : v ∈ ds.map (·.1)) : v ∈ s.declared := by
  induction p generalizing s with
  | nil =>
    obtain rfl := Option.some.inj hp
    rw [declared_letIn]
    exact List.mem_append_left _ hv
  | cons i p ih =>
    obtain ⟨c, hc, hp⟩ := Option.bind_eq_some_iff.mp hp
    rw [declared_eq]
    exact List.mem_append_right _ (List.mem_flatMap.mpr ⟨c, List.mem_of_getElem? hc, ih hp⟩)

theorem mem_ownDeclared_of_at?_nil {s : Scalar} {ds : List (Variable × Scalar)} {b : Scalar} {v : Variable}
    (h : s.at? [] = some (letIn ds b)) (hv : v ∈ ds.map (·.1)) : v ∈ s.ownDeclared := by
  obtain rfl := Option.some.inj h
  exact hv

/-- Where all declared variables have different numbers, only one let declares a variable of some number. -/
theorem position_unique {s : Scalar} (hs : (s.declared.map (·.id)).Nodup) {p' : List Nat}
    {ds ds' : List (Variable × Scalar)} {b b' : Scalar} {v v' : Variable} (hp : s.at? p = some (letIn ds b))
    (hv : v ∈ ds.map (·.1)) (hp' : s.at? p' = some (letIn ds' b')) (hv' : v' ∈ ds'.map (·.1)) (hid : v.id = v'.id) :
    p = p' := by
  induction p generalizing s p' with
  | nil =>
    cases p' with
    | nil => rfl
    | cons j p' =>
      obtain ⟨c, hc, hp'⟩ := Option.bind_eq_some_iff.mp hp'
      rw [declared_eq, List.map_append, List.nodup_append] at hs
      have hown := List.mem_map_of_mem (f := Variable.id) (mem_ownDeclared_of_at?_nil hp hv)
      have hchild : v'.id ∈ (s.children.flatMap declared).map (·.id) :=
        List.mem_map_of_mem (List.mem_flatMap.mpr ⟨c, List.mem_of_getElem? hc, mem_declared_of_at? hp' hv'⟩)
      exact absurd hid (hs.2.2 _ hown _ hchild)
  | cons i p ih =>
    obtain ⟨c, hc, hp⟩ := Option.bind_eq_some_iff.mp hp
    have hmem := mem_declared_of_at? hp hv
    rw [declared_eq, List.map_append, List.nodup_append] at hs
    obtain ⟨-, hchildren, hdisjoint⟩ := hs
    cases p' with
    | nil =>
      have hown := List.mem_map_of_mem (f := Variable.id) (mem_ownDeclared_of_at?_nil hp' hv')
      have hchild : v.id ∈ (s.children.flatMap declared).map (·.id) :=
        List.mem_map_of_mem (List.mem_flatMap.mpr ⟨c, List.mem_of_getElem? hc, hmem⟩)
      exact absurd hid.symm (hdisjoint _ hown _ hchild)
    | cons j p' =>
      obtain ⟨c', hc', hp'⟩ := Option.bind_eq_some_iff.mp hp'
      have hmem' := mem_declared_of_at? hp' hv'
      rw [List.map_flatMap, List.nodup_flatMap, List.pairwise_iff_getElem] at hchildren
      obtain ⟨hi, rfl⟩ := List.getElem?_eq_some_iff.mp hc
      obtain ⟨hj, rfl⟩ := List.getElem?_eq_some_iff.mp hc'
      have hv₁ := List.mem_map_of_mem (f := Variable.id) hmem
      have hv₂ := List.mem_map_of_mem (f := Variable.id) hmem'
      rcases Nat.lt_trichotomy i j with hlt | rfl | hlt
      · exact absurd (hid ▸ hv₂) fun h => hchildren.2 i j hi hj hlt hv₁ h
      · rw [ih (hchildren.1 _ (List.getElem_mem hi)) hp hp']
      · exact absurd (hid ▸ hv₁) fun h => hchildren.2 j i hj hi hlt hv₂ h

end Declared

section Free

/-- The variable is read in the expression outside every let that declares it. -/
inductive Free (v : Variable) : Scalar → Prop where
  | var : Free v (.var v)
  | value {ds b s} : s ∈ ds.map (·.2) → Free v s → Free v (.letIn ds b)
  | body {ds b} : v.isIn (ds.map (·.1)) = false → Free v b → Free v (.letIn ds b)
  | child {s c} : (∀ ds b, s ≠ .letIn ds b) → c ∈ s.children → Free v c → Free v s

variable {v w : Variable}

theorem free_var : (var w).Free v ↔ v = w := by
  constructor
  · intro h
    cases h with
    | var => rfl
    | child _ hc _ => cases hc
  · rintro rfl
    exact .var

theorem free_node {s : Scalar} (hvar : ∀ w, s ≠ .var w) (hlet : ∀ ds b, s ≠ .letIn ds b) :
    s.Free v ↔ ∃ c ∈ s.children, c.Free v := by
  constructor
  · intro h
    cases h with
    | var => exact absurd rfl (hvar v)
    | value _ _ | body _ _ => exact absurd rfl (hlet _ _)
    | child _ hc h => exact ⟨_, hc, h⟩
  · rintro ⟨c, hc, h⟩
    exact .child hlet hc h

theorem free_letIn {ds : List (Variable × Scalar)} {b : Scalar} : (letIn ds b).Free v ↔
    (∃ s ∈ ds.map (·.2), s.Free v) ∨ (v.isIn (ds.map (·.1)) = false ∧ b.Free v) := by
  constructor
  · intro h
    cases h with
    | value hs h => exact .inl ⟨_, hs, h⟩
    | body hv h => exact .inr ⟨hv, h⟩
    | child hlet _ _ => exact absurd rfl (hlet _ _)
  · rintro (⟨s, hs, h⟩ | ⟨hv, h⟩)
    · exact .value hs h
    · exact .body hv h

/-- What is read is free, or a let declares it and has the place in its body. -/
theorem free_or_bound {s : Scalar} (h : s.at? q = some (var w)) :
    s.Free w ∨ ∃ p ds b v, s.at? p = some (letIn ds b) ∧ v ∈ ds.map (·.1) ∧ w.same v = true ∧
      p ++ [ds.length] <+: q := by
  induction q generalizing s with
  | nil =>
    obtain rfl := Option.some.inj h
    exact .inl .var
  | cons i q ih =>
    obtain ⟨c, hc, h⟩ := Option.bind_eq_some_iff.mp h
    rcases ih h with hfree | ⟨p, ds, b, v, hp, hv, hsame, hprefix⟩
    · by_cases hlet : ∃ ds b, s = letIn ds b
      · obtain ⟨ds, b, rfl⟩ := hlet
        rw [children, List.getElem?_append] at hc
        split at hc
        · exact .inl (.value (List.mem_of_getElem? hc) hfree)
        · rename_i hi
          -- The only child after the values is the body.
          obtain ⟨hlast, rfl⟩ := List.getElem?_eq_some_iff.mp hc
          simp only [List.length_map, List.length_singleton] at hi hlast
          obtain rfl : i = ds.length := by omega
          simp only [List.getElem_singleton] at hfree
          by_cases hw : w.isIn (ds.map (·.1)) = true
          · obtain ⟨v, hv, hsame⟩ := Variable.isIn_iff.mp hw
            exact .inr ⟨[], ds, b, v, rfl, hv, hsame, by simp⟩
          · exact .inl (.body (by simpa using hw) hfree)
      · exact .inl (.child (fun ds b hs => hlet ⟨ds, b, hs⟩) (List.mem_of_getElem? hc) hfree)
    · refine .inr ⟨i :: p, ds, b, v, ?_, hv, hsame, ?_⟩
      · exact Option.bind_eq_some_iff.mpr ⟨c, hc, hp⟩
      · simpa using hprefix

end Free

theorem free_negatedIf {negated : Bool} {s : Scalar} {v : Variable} : (s.negatedIf negated).Free v ↔ s.Free v := by
  cases negated with
  | false => rfl
  | true => simp [negatedIf, negation, free_node, children]

theorem declared_negatedIf (negated : Bool) (s : Scalar) : (s.negatedIf negated).declared = s.declared := by
  cases negated with
  | false => rfl
  | true => simp [negatedIf, negation, declared_node, children]

theorem free_inRange {low x high : Scalar} {v : Variable} :
    (Form.inRange low x high).Free v ↔ low.Free v ∨ x.Free v ∨ high.Free v := by
  simp only [Form.inRange, conjunction, free_node, children, ne_eq, reduceCtorEq, not_false_eq_true, implies_true,
    List.mem_cons, List.not_mem_nil, or_false, exists_eq_or_imp, exists_eq_left]
  tauto

theorem free_anyOf {first : Scalar} {rest : List Scalar} {v : Variable} :
    (Form.anyOf first rest).Free v ↔ first.Free v ∨ ∃ s ∈ rest, s.Free v := by
  unfold Form.anyOf
  induction rest generalizing first with
  | nil => simp
  | cons s rest ih => simp [ih, disjunction, free_node, children, or_assoc]

theorem declared_anyOf (first : Scalar) (rest : List Scalar) :
    (Form.anyOf first rest).declared = (first :: rest).flatMap declared := by
  unfold Form.anyOf
  induction rest generalizing first with
  | nil => simp
  | cons s rest ih => simp [ih, disjunction, declared_node, children]

theorem free_equals {t v : Variable} {s : Scalar} : (Form.equals t s).Free v ↔ v = t ∨ s.Free v := by
  simp [Form.equals, free_node, children, free_var]

theorem declared_equals (t : Variable) (s : Scalar) : (Form.equals t s).declared = s.declared := by
  simp [Form.equals, declared_node, children]

theorem free_conditionalOf {v : Variable} (h : (conditionalOf clauses tests bodies).Free v) :
    (∃ s ∈ tests, s.Free v) ∨ ∃ x ∈ bodies, x.expr.Free v := by
  unfold conditionalOf at h
  rw [free_node (by simp) (by simp)] at h
  obtain ⟨c, hc, h⟩ := h
  rw [children_conditional, List.mem_append] at hc
  rcases hc with hc | hc
  · obtain ⟨p, hp, hc⟩ := List.mem_flatMap.mp hc
    obtain ⟨htest, hbody⟩ := List.of_mem_zip hp
    rcases List.mem_pair.mp hc with rfl | rfl
    · exact .inl ⟨_, htest, h⟩
    · obtain ⟨x, hx, hxp⟩ := List.mem_map.mp (List.mem_of_mem_take hbody)
      exact .inr ⟨x, hx, hxp ▸ h⟩
  · obtain ⟨x, hx, rfl⟩ := List.mem_map.mp (List.mem_of_getElem? (Option.mem_toList.mp hc))
    exact .inr ⟨x, hx, h⟩

theorem declared_conditionalOf_perm {clauses : List (Expr Q × Expr Q)} {default : Option (Expr Q)} {n m : Nat}
    (hbodies : Elaborates env scopes position (clauses.map (·.2) ++ default.toList) n bodies m)
    (htests : tests.length = clauses.length) : (conditionalOf clauses.length tests bodies).declared.Perm
      (tests.flatMap declared ++ bodies.flatMap (·.expr.declared)) := by
  have hnode : ∀ ds b, conditionalOf clauses.length tests bodies ≠ letIn ds b := by simp [conditionalOf]
  have hperm := (children_conditionalOf_perm hbodies htests).flatMap_right declared
  rwa [← declared_node hnode, List.flatMap_append, List.flatMap_map] at hperm

end Scalar

/-- So many different let temporaries, whose numbers are above `n` and at most `m`. -/
structure NewTemporaries (n : Nat) (vs : List Variable) (count m : Nat) : Prop where
  length : vs.length = count
  distinct : (vs.map (·.id)).Nodup
  temporary : ∀ v ∈ vs, v.kind = .temporary
  within : ∀ v ∈ vs, n < v.id ∧ v.id ≤ m

namespace NewTemporaries

variable {n k m count count' : Nat} {vs ws : List Variable}

theorem nil (n m : Nat) : NewTemporaries n [] 0 m := by constructor <;> simp

theorem perm (h : NewTemporaries n vs count m) (hperm : ws.Perm vs) : NewTemporaries n ws count m where
  length := hperm.length_eq.trans h.length
  distinct := (hperm.map _).nodup_iff.mpr h.distinct
  temporary v hv := h.temporary v (hperm.mem_iff.mp hv)
  within v hv := h.within v (hperm.mem_iff.mp hv)

theorem append (h : NewTemporaries n vs count k) (h' : NewTemporaries k ws count' m) (hn : n ≤ k) (hm : k ≤ m) :
    NewTemporaries n (vs ++ ws) (count + count') m where
  length := by rw [List.length_append, h.length, h'.length]
  distinct := by
    rw [List.map_append, List.nodup_append]
    refine ⟨h.distinct, h'.distinct, fun i hi j hj => ?_⟩
    obtain ⟨v, hv, rfl⟩ := List.mem_map.mp hi
    obtain ⟨w, hw, rfl⟩ := List.mem_map.mp hj
    have := h.within v hv
    have := h'.within w hw
    omega
  temporary := List.forall_mem_append.mpr ⟨h.temporary, h'.temporary⟩
  within := by
    refine List.forall_mem_append.mpr ⟨fun v hv => ?_, fun v hv => ?_⟩
    · have := h.within v hv
      omega
    · have := h'.within v hv
      omega

theorem cons (h : NewTemporaries n vs count m) (hm : n ≤ m) :
    NewTemporaries n (temporaryAfter m :: vs) (count + 1) (m + 1) := by
  have hlast : NewTemporaries m [temporaryAfter m] 1 (m + 1) := by constructor <;> simp [temporaryAfter]
  exact (h.append hlast hm (Nat.le_succ m)).perm (List.perm_append_singleton _ _).symm

end NewTemporaries

namespace Expr

def ownTemporaries : Expr Q → Nat
  | between _ _ _ false _ => 1
  | between _ _ _ true _ => 3
  | inList _ _ _ => 1
  | case (some _) _ _ => 1
  | nullif _ _ => 1
  | _ => 0

def temporaries (e : Expr Q) : Nat := (e.subexpressions.map ownTemporaries).sum

theorem sum_listSubexpressions (es : List (Expr Q)) :
    ((listSubexpressions es).map ownTemporaries).sum = (es.map temporaries).sum := by
  induction es with
  | nil => rfl
  | cons e es ih => simp [listSubexpressions, ih, temporaries]

theorem sum_optionSubexpressions (o : Option (Expr Q)) :
    ((optionSubexpressions o).map ownTemporaries).sum = (o.toList.map temporaries).sum := by
  cases o <;> simp [optionSubexpressions, temporaries]

theorem sum_pairSubexpressions (ps : List (Expr Q × Expr Q)) :
    ((pairSubexpressions ps).map ownTemporaries).sum =
      ((ps.map (·.1)).map temporaries).sum + ((ps.map (·.2)).map temporaries).sum := by
  induction ps with
  | nil => rfl
  | cons p ps ih =>
    obtain ⟨a, b⟩ := p
    simp only [pairSubexpressions, List.map_append, List.sum_append, ih, List.map_cons, List.sum_cons,
      temporaries]
    omega

theorem temporaries_between (e low high : Expr Q) (negated : Bool) :
    (between e low high false negated).temporaries = ([e, low, high].map temporaries).sum + 1 := by
  simp [temporaries, subexpressions, ownTemporaries, Nat.add_comm]

theorem temporaries_betweenSymmetric (e low high : Expr Q) (negated : Bool) :
    (between e low high true negated).temporaries = ([e, low, high].map temporaries).sum + 3 := by
  simp [temporaries, subexpressions, ownTemporaries, Nat.add_comm]

theorem temporaries_inList (e : Expr Q) (values : List (Expr Q)) (negated : Bool) :
    (inList e values negated).temporaries = ((e :: values).map temporaries).sum + 1 := by
  simp [temporaries, subexpressions, ownTemporaries, sum_listSubexpressions, Nat.add_comm]

theorem temporaries_nullif (l r : Expr Q) :
    (nullif l r).temporaries = ([l, r].map temporaries).sum + 1 := by
  simp [temporaries, subexpressions, ownTemporaries, Nat.add_comm]

theorem temporaries_call (name : Name) (quantifier : Option SetQuantifier) (arguments : Option (List (Expr Q))) :
    (call name quantifier arguments).temporaries = ((arguments.getD []).map temporaries).sum := by
  cases arguments with
  | none => rfl
  | some es => simp [temporaries, subexpressions, ownTemporaries, sum_listSubexpressions]

theorem temporaries_searchedCase (clauses : List (Expr Q × Expr Q)) (default : Option (Expr Q)) :
    (case none clauses default).temporaries = ((clauses.map (·.1)).map temporaries).sum +
      ((clauses.map (·.2) ++ default.toList).map temporaries).sum := by
  simp only [temporaries, subexpressions, optionSubexpressions, ownTemporaries, List.map_cons, List.sum_cons,
    List.nil_append, List.map_append, List.sum_append, sum_pairSubexpressions, sum_optionSubexpressions]
  omega

theorem temporaries_simpleCase (e : Expr Q) (clauses : List (Expr Q × Expr Q)) (default : Option (Expr Q)) :
    (case (some e) clauses default).temporaries = (((e :: clauses.map (·.1)).map temporaries).sum + 1) +
      ((clauses.map (·.2) ++ default.toList).map temporaries).sum := by
  simp only [temporaries, subexpressions, optionSubexpressions, ownTemporaries, List.map_cons, List.sum_cons,
    List.map_append, List.sum_append, sum_pairSubexpressions, sum_optionSubexpressions]
  omega

theorem sum_of_truthTest {e : Expr Q} {test : UnaryOperator} (h : Form.truthTest? e = some test) :
    (e.subexpressions.map ownTemporaries).sum = 0 := by
  unfold Form.truthTest? at h
  split at h
  all_goals simp_all [subexpressions, ownTemporaries]

end Expr

namespace Elaborates

/-- The variables that an elaborated expression reads outside its lets and that are told apart by their
numbers are columns in scope. -/
theorem free_visible {es : List (Expr Q)} {n m : Nat} (h : Elaborates env scopes position es n xs m) :
    ∀ x ∈ xs, ∀ v, x.expr.Free v → v.isMinted = true → ∃ c ∈ scopes.visible, v = c.carrier := by
  induction h with
  | nil => simp
  | cons _ _ ih ih' => exact List.forall_mem_cons.mpr ⟨ih _ (by simp), ih'⟩
  | literal _ hx | negated _ _ hx =>
    rcases Literal.typed_ok hx with ⟨v, t, rfl⟩ | ⟨v, t, u, rfl⟩ <;>
      simp [Typed.constant, Scalar.free_node, Scalar.children]
  | reference hr =>
    simp only [List.forall_mem_singleton, Scalar.free_var]
    rintro v rfl hv
    rcases Name.resolveVariable_ok hr with ⟨c, hc, rfl, -⟩ | ⟨decl, rfl, -⟩
    · exact ⟨c, hc, rfl⟩
    · cases hv
  | hostParameter hx =>
    rcases Form.hostParameter_ok hx with ⟨decl, rfl, _⟩ | ⟨v, t, rfl, _⟩
    · simp only [List.forall_mem_singleton, Scalar.free_var]
      rintro v rfl hv
      cases hv
    · simp [Typed.constant, Scalar.free_node, Scalar.children]
  | searchedCase _ _ _ _ ihw ihb =>
    simp only [List.forall_mem_singleton]
    intro v hv
    rcases Scalar.free_conditionalOf hv with ⟨s, hs, hv⟩ | ⟨x, hx, hv⟩
    · obtain ⟨x, hx, rfl⟩ := List.mem_map.mp hs
      exact ihw x hx v hv
    · exact ihb x hx v hv
  | simpleCase _ _ _ _ _ ihw ihb =>
    simp only [List.forall_mem_singleton, Scalar.free_letIn]
    rintro v (⟨s, hs, hv⟩ | ⟨hin, hv⟩)
    · obtain rfl := List.mem_singleton.mp hs
      exact ihw _ List.mem_cons_self v hv
    · rcases Scalar.free_conditionalOf hv with ⟨s, hs, hv⟩ | ⟨x, hx, hv⟩
      · simp only [List.map_map, List.mem_map] at hs
        obtain ⟨x, hx, rfl⟩ := hs
        rcases Scalar.free_equals.mp hv with rfl | hv
        · simp [Variable.isIn] at hin
        · exact ihw x (List.mem_cons_of_mem _ hx) v hv
      · exact ihb x hx v hv
  | @inList e values x y ys _ _ _ m _ _ _ ih =>
    simp only [List.forall_mem_singleton, Typed.truth, Scalar.free_negatedIf, Scalar.free_letIn, Scalar.free_anyOf,
      List.map_map]
    rintro v (⟨s, hs, hv⟩ | ⟨hin, hv⟩)
    · obtain rfl := List.mem_singleton.mp hs
      exact ih x List.mem_cons_self v hv
    · have hvalue : ∃ z ∈ y :: ys, (Form.equals (temporaryAfter m) z.expr).Free v := by
        simpa using hv
      obtain ⟨z, hz, hv⟩ := hvalue
      rcases Scalar.free_equals.mp hv with rfl | hv
      · simp [Variable.isIn] at hin
      · exact ih z (List.mem_cons_of_mem _ hz) v hv
  | @betweenSymmetric e low high x l h _ _ _ m _ _ _ ih =>
    simp only [List.forall_mem_singleton, Typed.truth, Scalar.free_negatedIf, Scalar.free_letIn]
    rintro v (⟨s, hs, hv⟩ | ⟨hin, hv⟩)
    · obtain ⟨y, hy, rfl⟩ : ∃ y ∈ [x, l, h], y.expr = s := List.mem_map.mp hs
      exact ih y hy v hv
    · -- The body reads nothing but the three temporaries.
      have hbound : v ∈ [temporaryAfter m, temporaryAfter (m + 1), temporaryAfter (m + 2)] := by
        simp only [Scalar.disjunction, Scalar.free_node, Scalar.children, Scalar.free_inRange, Scalar.free_var,
          ne_eq, reduceCtorEq, not_false_eq_true, implies_true, List.mem_cons, List.not_mem_nil, or_false,
          exists_eq_or_imp, exists_eq_left] at hv
        rcases hv with (rfl | rfl | rfl) | (rfl | rfl | rfl) <;> simp
      exact absurd (Variable.isIn_of_mem hbound) (by simpa using hin)
  | call _ _ _ ih | aggregate _ _ _ _ ih => simpa [Scalar.free_node, Scalar.children] using fun v x hx => ih x hx v
  | _ =>
    -- What is left reads its operands, and beside them at most the temporary that it declares.
    simp only [List.mem_cons, List.not_mem_nil, or_false, forall_eq, forall_eq_or_imp, exists_eq_left,
      exists_eq_or_imp, Typed.truth, Scalar.free_negatedIf, Scalar.free_letIn, Scalar.free_inRange,
      Scalar.free_node, Scalar.free_var, Scalar.children, Form.equals, Form.noEscape, Typed.constant,
      Variable.isIn, ne_eq, reduceCtorEq, not_false_eq_true, implies_true, List.map_cons, List.map_nil,
      List.any_cons, List.any_nil, List.flatMap_cons, List.flatMap_nil, List.cons_append, List.nil_append,
      Option.toList_some] at *
    grind [Variable.same_self]

/-- The lets of elaborated expressions declare as many variables as their forms need, all of them new. -/
theorem declares {es : List (Expr Q)} {n m : Nat} (h : Elaborates env scopes position es n xs m) :
    NewTemporaries n (xs.flatMap (·.expr.declared)) (es.map Expr.temporaries).sum m := by
  induction h with
  | nil n => exact .nil n n
  | cons he hes ih ih' => simpa using ih.append ih' he.minted_le hes.minted_le
  | literal _ hx | negated _ _ hx =>
    rcases Literal.typed_ok hx with ⟨v, t, rfl⟩ | ⟨v, t, u, rfl⟩ <;>
      simp [Typed.constant, Scalar.declared_node, Scalar.children, Expr.temporaries, Expr.subexpressions,
        Expr.ownTemporaries, NewTemporaries.nil]
  | reference _ =>
    simp [Scalar.declared_node, Scalar.children, Expr.temporaries, Expr.subexpressions, Expr.ownTemporaries,
      NewTemporaries.nil]
  | hostParameter hx =>
    rcases Form.hostParameter_ok hx with ⟨decl, rfl, _⟩ | ⟨v, t, rfl, _⟩ <;>
      simp [Typed.constant, Scalar.declared_node, Scalar.children, Expr.temporaries, Expr.subexpressions,
        Expr.ownTemporaries, NewTemporaries.nil]
  | isTest _ ht _ ih =>
    simpa [Expr.temporaries, Expr.subexpressions, Expr.ownTemporaries, Expr.sum_of_truthTest ht, Typed.truth,
      Scalar.declared_negatedIf, Scalar.declared_node, Scalar.children] using ih
  | between h _ ih =>
    have hnew := ih.cons h.minted_le
    rw [← Expr.temporaries_between] at hnew
    simpa [Typed.truth, Scalar.declared_negatedIf, Scalar.declared_letIn, Scalar.declared_node, Scalar.children,
      Form.inRange, Scalar.conjunction] using hnew
  | @betweenSymmetric e low high x l h _ _ _ m _ hxs _ ih =>
    have hle := hxs.minted_le
    have hnew := ((ih.cons hle).cons (by omega)).cons (by omega)
    have hreverse := List.reverse_perm [temporaryAfter (m + 2), temporaryAfter (m + 1), temporaryAfter m]
    have hnew := hnew.perm (hreverse.append_right _)
    rw [Nat.add_assoc, Nat.add_assoc, ← Expr.temporaries_betweenSymmetric] at hnew
    simpa [Typed.truth, Scalar.declared_negatedIf, Scalar.declared_letIn, Scalar.declared_node, Scalar.children,
      Form.inRange, Scalar.conjunction, Scalar.disjunction] using hnew
  | inList h _ ih =>
    have hnew := ih.cons h.minted_le
    rw [← Expr.temporaries_inList] at hnew
    simpa [Typed.truth, Scalar.declared_negatedIf, Scalar.declared_letIn, Scalar.declared_anyOf,
      Scalar.declared_equals, List.flatMap_map] using hnew
  | nullif h _ ih =>
    have hnew := ih.cons h.minted_le
    rw [← Expr.temporaries_nullif] at hnew
    simpa [Scalar.declared_letIn, Scalar.declared_node, Scalar.children, Form.equals] using hnew
  | @searchedCase clauses default ws bs t n k m _ _ hw hb _ ihw ihb =>
    have hperm : (conditionalOf clauses.length (ws.map (·.expr)) bs).declared.Perm _ :=
      Scalar.declared_conditionalOf_perm hb (by simpa using hw.length_eq.symm)
    rw [List.flatMap_map] at hperm
    rw [List.map_singleton, List.sum_singleton, Expr.temporaries_searchedCase, List.flatMap_singleton]
    exact (ihw.append ihb hw.minted_le hb.minted_le).perm hperm
  | @simpleCase e clauses default x ws bs u t n k m _ _ hw _ hb _ ihw ihb =>
    have hperm : (conditionalOf clauses.length ((ws.map (·.expr)).map (Form.equals (temporaryAfter k)))
        bs).declared.Perm _ :=
      Scalar.declared_conditionalOf_perm hb (by simpa using hw.length_eq.symm)
    simp only [List.flatMap_map, Scalar.declared_equals] at hperm
    have hle := hw.minted_le
    have hnew := (ihw.cons hle).append ihb (by omega) hb.minted_le
    rw [List.map_singleton, List.sum_singleton, Expr.temporaries_simpleCase, List.flatMap_singleton]
    refine hnew.perm ?_
    simpa [Scalar.declared_letIn] using hperm.append_left x.expr.declared
  | call _ _ _ ih | aggregate _ _ _ _ ih =>
    rw [List.map_singleton, List.sum_singleton, Expr.temporaries_call]
    simpa [Scalar.declared_node, Scalar.children, List.flatMap_map] using ih
  | _ =>
    rename_i ih
    simpa [Expr.temporaries, Expr.subexpressions, Expr.optionSubexpressions, Expr.ownTemporaries, Typed.truth,
      Scalar.declared_negatedIf, Scalar.declared_node, Scalar.children, Form.noEscape, Typed.constant] using ih

end Elaborates

namespace Expr

variable {e : Expr Q} {target : Option Target} {x : Typed} {n m : Nat}

/-- A variable that was minted by the resolution of the expression is read only where a let declares it. -/
theorem bound_of_resolve (hscopes : ∀ c ∈ scopes.visible, c.carrier.MintedBy n)
    (h : e.resolve scopes target env n = (.ok x, m)) {w : Variable} (hq : x.expr.at? q = some (.var w))
    (hminted : w.isMinted = true) (hw : n < w.id) :
    ∃ p ds b, x.expr.at? p = some (.letIn ds b) ∧ (∃ v ∈ ds.map (·.1), w.same v = true) ∧
      p ++ [ds.length] <+: q := by
  have hel := Expr.sound env scopes e target n x m h
  rcases Scalar.free_or_bound hq with hfree | ⟨p, ds, b, v, hp, hv, hsame, hprefix⟩
  · obtain ⟨c, hc, rfl⟩ := hel.free_visible x (List.mem_singleton_self x) w hfree hminted
    have hle := hscopes c hc hminted
    omega
  · exact ⟨p, ds, b, hp, ⟨v, hv, hsame⟩, hprefix⟩

/-- The lets of a resolved expression declare as many variables as the forms in it need: one for each BETWEEN
that is not symmetric, three for each symmetric one, and one for each IN list, CASE with operand and NULLIF. The
variables have different numbers, all minted by the resolution. Each is read only in the body of the let that
declares it, and no other temporary minted by the resolution is read. -/
theorem resolve_temporaries (hscopes : ∀ c ∈ scopes.visible, c.carrier.MintedBy n)
    (h : e.resolve scopes target env n = (.ok x, m)) :
    x.expr.letCount = (e.subexpressions.map ownTemporaries).sum ∧
    (x.expr.declared.map (·.id)).Nodup ∧
    (∀ v ∈ x.expr.declared, v.kind = .temporary ∧ n < v.id ∧ v.id ≤ m) ∧
    (∀ p ds b, x.expr.at? p = some (.letIn ds b) → ∀ v ∈ ds.map (·.1), ∀ q w, x.expr.at? q = some (.var w) →
      w.same v = true → p ++ [ds.length] <+: q) ∧
    ∀ q w, x.expr.at? q = some (.var w) → w.kind = .temporary → n < w.id → w ∈ x.expr.declared := by
  have hnew := (Expr.sound env scopes e target n x m h).declares
  rw [List.flatMap_singleton, List.map_singleton, List.sum_singleton] at hnew
  refine ⟨?_, hnew.distinct, fun v hv => ⟨hnew.temporary v hv, hnew.within v hv⟩, ?_, ?_⟩
  · rw [← Scalar.length_declared, hnew.length, temporaries]
  · intro p ds b hp v hv q w hq hsame
    have hmem := Scalar.mem_declared_of_at? hp hv
    obtain ⟨hminted, hid⟩ := Variable.isMinted_of_same_temporary hsame (hnew.temporary v hmem)
    obtain ⟨p', ds', b', hp', ⟨v', hv', hsame'⟩, hprefix⟩ :=
      bound_of_resolve hscopes h hq hminted (hid ▸ (hnew.within v hmem).1)
    have hid' := (Variable.isMinted_of_same_temporary hsame' (hnew.temporary v' (Scalar.mem_declared_of_at? hp' hv'))).2
    -- Only one let declares the number, so the let around the place is the one at `p`.
    obtain rfl := Scalar.position_unique hnew.distinct hp hv hp' hv' (hid.symm.trans hid')
    rw [hp] at hp'
    cases hp'
    exact hprefix
  · intro q w hq hkind hw
    have hminted : w.isMinted = true := by simp [Variable.isMinted, hkind]
    obtain ⟨p, ds, b, hp, ⟨v, hv, hsame⟩, -⟩ := bound_of_resolve hscopes h hq hminted hw
    have hmem := Scalar.mem_declared_of_at? hp hv
    have hv' := hnew.temporary v hmem
    have hid := (Variable.isMinted_of_same_temporary hsame hv').2
    obtain rfl : w = v := by
      cases w
      cases v
      exact congrArg₂ Variable.mk hid (hkind.trans hv'.symm)
    exact hmem

end Expr

namespace Sample

def onlyX : Scopes :=
  [{ relations := [{ columns := [{ name := some "x", carrier := ⟨1, .stream none⟩, type := .int4 }] }] }]

/-- `NULLIF(x IN (1, x), x NOT BETWEEN SYMMETRIC CASE x WHEN 1 THEN x END AND NULL)` -/
def nestedLets : SqlExpr :=
  let x : SqlExpr := .reference ⟨[.quoted "x"]⟩
  let one : SqlExpr := .literal (.exact false "1")
  .nullif (.inList x [one, x] false)
    (.between x (.case (some x) [(one, x)] none) (.literal .null) true true)

end Sample

/-- One temporary for NULLIF, one for IN, three for BETWEEN and one for CASE, each read in its own let. -/
theorem Expr.resolve_temporaries_nestedLets :
    (∀ c ∈ Sample.onlyX.visible, c.carrier.MintedBy 1) ∧
    ∃ x m, Sample.nestedLets.resolve Sample.onlyX none default 1 = (.ok x, m) ∧ x.expr.letCount = 6 ∧
      ∀ p ds b, x.expr.at? p = some (.letIn ds b) → ∀ v ∈ ds.map (·.1), ∀ q w,
        x.expr.at? q = some (.var w) → w.same v = true → p ++ [ds.length] <+: q := by
  have hscopes : ∀ c ∈ Sample.onlyX.visible, c.carrier.MintedBy 1 := by
    simp [Sample.onlyX, Scopes.visible, Variable.MintedBy]
  have hok : (Sample.nestedLets.resolve Sample.onlyX none default 1).1.isOk = true := by decide +kernel
  obtain ⟨x, m, h⟩ := Step.exists_ok hok
  obtain ⟨hcount, -, -, hscoped, -⟩ := Expr.resolve_temporaries hscopes h
  exact ⟨hscopes, x, m, h, hcount, hscoped⟩

end SqlPlan
