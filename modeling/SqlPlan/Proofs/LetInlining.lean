import SqlPlan.Proofs.AggregationRewriting
import SqlPlan.Proofs.LetTemporaries

namespace SqlPlan

variable {σ : Variable → Scalar} {ds : List (Variable × Scalar)} {low high first a b : Scalar}
  {rest whens bodies : List Scalar} {default : Option Scalar} {type : SqlType}

namespace Scalar

/-- The value that the declarators give a variable, or else the variable. -/
def valueOf (ds : List (Variable × Scalar)) (v : Variable) : Scalar :=
  match ds.find? fun d => v.same d.1 with
  | some d => d.2
  | none => var v

mutual

/-- The expression without lets: the values of the let variables stand in their place. -/
def inlined : Scalar → Scalar
  | immediate v t => immediate v t
  | var v => var v
  | unary op s => unary op s.inlined
  | binary op l r => binary op l.inlined r.inlined
  | compare op l r => compare op l.inlined r.inlined
  | pattern op i p e => pattern op i.inlined p.inlined e.inlined
  | conditional ps o => conditional (inlinedPairs ps) (inlinedOption o)
  | letIn ds b => b.inlined.substitute (valueOf (inlinedDeclarators ds))
  | cast policy target s => cast policy target s.inlined
  | call f ss => call f (inlinedList ss)
  | aggregate f ss => aggregate f (inlinedList ss)

def inlinedPairs : List (Scalar × Scalar) → List (Scalar × Scalar)
  | [] => []
  | (x, y) :: ps => (x.inlined, y.inlined) :: inlinedPairs ps

def inlinedOption : Option Scalar → Option Scalar
  | none => none
  | some s => some s.inlined

def inlinedDeclarators : List (Variable × Scalar) → List (Variable × Scalar)
  | [] => []
  | (v, s) :: ds => (v, s.inlined) :: inlinedDeclarators ds

def inlinedList : List Scalar → List Scalar
  | [] => []
  | s :: ss => s.inlined :: inlinedList ss

end

-- The inner let is inlined first, so the outer value is put into what has become of it.
example (v : Value) (t : SqlType) : (letIn [(⟨2, .temporary⟩, immediate v t)] (letIn
      [(⟨1, .temporary⟩, unary .plus (var ⟨2, .temporary⟩))] (var ⟨1, .temporary⟩))).inlined =
    unary .plus (immediate v t) := by
  cbv

theorem inlinedList_eq (ss : List Scalar) : inlinedList ss = ss.map inlined := by
  induction ss with
  | nil => rfl
  | cons s ss ih => rw [inlinedList, ih, List.map_cons]

theorem inlinedOption_eq (o : Option Scalar) : inlinedOption o = o.map inlined := by
  cases o <;> rfl

theorem inlinedPairs_eq (ps : List (Scalar × Scalar)) :
    inlinedPairs ps = ps.map fun p => (p.1.inlined, p.2.inlined) := by
  induction ps with
  | nil => rfl
  | cons p ps ih => rw [inlinedPairs, ih, List.map_cons]

theorem inlinedDeclarators_eq (ds : List (Variable × Scalar)) :
    inlinedDeclarators ds = ds.map fun d => (d.1, d.2.inlined) := by
  induction ds with
  | nil => rfl
  | cons d ds ih => rw [inlinedDeclarators, ih, List.map_cons]

theorem children_inlined {s : Scalar} (hlet : ∀ ds b, s ≠ letIn ds b) :
    s.inlined.children = s.children.map inlined := by
  cases s with
  | conditional ps o =>
    rw [inlined, children_conditional, children_conditional, inlinedPairs_eq, inlinedOption_eq, List.map_append]
    simp only [flatPairs, List.flatMap_map, List.map_flatMap, List.map_cons, List.map_nil]
    cases o <;> rfl
  | letIn ds b => exact absurd rfl (hlet ds b)
  | call f ss | aggregate f ss => exact inlinedList_eq ss
  | _ => rfl

theorem inlined_ne_var {s : Scalar} (hvar : ∀ v, s ≠ var v) (hlet : ∀ ds b, s ≠ letIn ds b) (v : Variable) :
    s.inlined ≠ var v := by
  cases s with
  | var w => exact absurd rfl (hvar w)
  | letIn ds b => exact absurd rfl (hlet ds b)
  | _ => simp [inlined]

section Reads

def Reads (s : Scalar) (v : Variable) : Prop := ∃ p, s.at? p = some (var v)

variable {s : Scalar} {v w : Variable}

theorem reads_var : (var w).Reads v ↔ w = v := by
  constructor
  · rintro ⟨_ | ⟨i, p⟩, h⟩
    · cases h
      rfl
    · cases h
  · rintro rfl
    exact ⟨[], rfl⟩

theorem reads_node (hvar : ∀ w, s ≠ var w) : s.Reads v ↔ ∃ c ∈ s.children, c.Reads v := by
  constructor
  · rintro ⟨_ | ⟨i, p⟩, h⟩
    · exact absurd (Option.some.inj h) (hvar v)
    · obtain ⟨c, hc, h⟩ := Option.bind_eq_some_iff.mp h
      exact ⟨c, List.mem_of_getElem? hc, p, h⟩
  · rintro ⟨c, hc, p, h⟩
    obtain ⟨i, hi⟩ := List.mem_iff_getElem?.mp hc
    exact ⟨i :: p, Option.bind_eq_some_iff.mpr ⟨c, hi, h⟩⟩

theorem substitute_ne_var (σ : Variable → Scalar) (hvar : ∀ w, s ≠ var w) (w : Variable) : s.substitute σ ≠ var w := by
  obtain ⟨hhead, -, -⟩ := substitute_node σ hvar
  exact ne_var_of_head_eq hhead hvar w

theorem exists_of_reads_substitute (h : (s.substitute σ).Reads w) : ∃ v, s.Reads v ∧ (σ v).Reads w := by
  induction s using childInduction with
  | node s ih =>
    by_cases hvar : ∀ v, s ≠ var v
    · obtain ⟨-, -, hchildren⟩ := substitute_node σ hvar
      rw [reads_node (substitute_ne_var σ hvar), hchildren] at h
      obtain ⟨_, hmem, h⟩ := h
      obtain ⟨c, hc, rfl⟩ := List.mem_map.mp hmem
      obtain ⟨v, hv, h⟩ := ih c hc h
      exact ⟨v, (reads_node hvar).mpr ⟨c, hc, hv⟩, h⟩
    · obtain ⟨v, rfl⟩ := not_forall_not.mp hvar
      exact ⟨v, reads_var.mpr rfl, h⟩

theorem valueOf_of_not_isIn (h : v.isIn (ds.map (·.1)) = false) : valueOf ds v = var v := by
  have hfind : ds.find? (fun d => v.same d.1) = none :=
    List.find?_eq_none.mpr (by simpa [Variable.isIn] using h)
  rw [valueOf, hfind]

theorem valueOf_mem (h : v.isIn (ds.map (·.1)) = true) : valueOf ds v ∈ ds.map (·.2) := by
  rcases hfind : ds.find? (fun d => v.same d.1) with _ | d
  · obtain ⟨w, hw, hsame⟩ := Variable.isIn_iff.mp h
    obtain ⟨d, hd, rfl⟩ := List.mem_map.mp hw
    exact absurd hsame (List.find?_eq_none.mp hfind d hd)
  · rw [valueOf, hfind]
    exact List.mem_map_of_mem (List.mem_of_find?_eq_some hfind)

theorem free_of_reads_inlined (h : s.inlined.Reads w) : s.Free w := by
  induction s using childInduction generalizing w with
  | node s ih =>
    by_cases hlet : ∀ ds b, s ≠ letIn ds b
    · by_cases hvar : ∀ v, s ≠ var v
      · rw [reads_node (inlined_ne_var hvar hlet), children_inlined hlet] at h
        obtain ⟨_, hmem, h⟩ := h
        obtain ⟨c, hc, rfl⟩ := List.mem_map.mp hmem
        exact .child hlet hc (ih c hc h)
      · obtain ⟨v, rfl⟩ := not_forall_not.mp hvar
        obtain rfl := reads_var.mp h
        exact .var
    · simp only [not_forall, not_not] at hlet
      obtain ⟨ds, b, rfl⟩ := hlet
      rw [inlined, inlinedDeclarators_eq] at h
      obtain ⟨v, hv, h⟩ := exists_of_reads_substitute h
      have hdeclared : (ds.map fun d => (d.1, d.2.inlined)).map (·.1) = ds.map (·.1) := List.map_map
      rcases hin : v.isIn (ds.map (·.1)) with _ | _
      · rw [valueOf_of_not_isIn (hdeclared ▸ hin)] at h
        obtain rfl := reads_var.mp h
        exact .body hin (ih b (by simp [children]) hv)
      · have hvalue := valueOf_mem (hdeclared ▸ hin)
        rw [List.map_map] at hvalue
        obtain ⟨d, hd, hvalue⟩ := List.mem_map.mp hvalue
        rw [← hvalue] at h
        have hmem : d.2 ∈ ds.map (·.2) := List.mem_map_of_mem hd
        exact .value hmem (ih d.2 (List.mem_append_left _ hmem) h)

end Reads

section Fresh

theorem withChildren_children (s : Scalar) : s.withChildren s.children = s := by
  cases s with
  | conditional ps o => exact withChildren_conditional rfl rfl
  | letIn ds b =>
    have hzip : (ds.map (·.1)).zip (ds.map (·.2)) = ds := (List.zip_of_prod rfl rfl).symm
    rw [children, withChildren_letIn (List.length_map _), hzip]
  | _ => rfl

theorem substitute_eq_self {s : Scalar} (h : ∀ v, s.Reads v → σ v = var v) : s.substitute σ = s := by
  induction s using childInduction with
  | node s ih =>
    by_cases hvar : ∀ v, s ≠ var v
    · have hchildren : s.children.map (substitute σ) = s.children := by
        refine (List.map_congr_left fun c hc => ?_).trans (List.map_id _)
        exact ih c hc fun v hv => h v ((reads_node hvar).mpr ⟨c, hc, hv⟩)
      rw [substitute_eq_withChildren σ hvar, hchildren, withChildren_children]
    · obtain ⟨v, rfl⟩ := not_forall_not.mp hvar
      exact h v (reads_var.mpr rfl)

def Avoids (s : Scalar) (t : Variable) : Prop := ∀ v, s.Free v → v.same t = false

theorem Avoids.substitute_eq {s x : Scalar} {t : Variable} (h : s.Avoids t) :
    s.inlined.substitute (valueOf [(t, x)]) = s.inlined := by
  refine substitute_eq_self fun v hv => valueOf_of_not_isIn ?_
  simpa [Variable.isIn] using h v (free_of_reads_inlined hv)

end Fresh

section Forms

variable {t : Variable} {x : Scalar}

theorem valueOf_self (t : Variable) (x : Scalar) (ds : List (Variable × Scalar)) : valueOf ((t, x) :: ds) t = x := by
  simp [valueOf]

/-- Every operand of a symmetric BETWEEN is bound, and each temporary has its own value. -/
theorem inlined_inRanges (m : Nat) (x low high : Scalar) :
    (letIn [(temporaryAfter m, x), (temporaryAfter (m + 1), low), (temporaryAfter (m + 2), high)]
      (disjunction
        (Form.inRange (var (temporaryAfter (m + 1))) (var (temporaryAfter m)) (var (temporaryAfter (m + 2))))
        (Form.inRange (var (temporaryAfter (m + 2))) (var (temporaryAfter m))
          (var (temporaryAfter (m + 1)))))).inlined =
      disjunction (Form.inRange low.inlined x.inlined high.inlined)
        (Form.inRange high.inlined x.inlined low.inlined) := by
  simp [inlined, inlinedDeclarators, disjunction, Form.inRange, conjunction, substitute, valueOf, temporaryAfter,
    Variable.same, Variable.isMinted]

theorem substitute_equals {s : Scalar} (hs : s.Avoids t) :
    (Form.equals t s).inlined.substitute (valueOf [(t, x.inlined)]) = compare .equal x.inlined s.inlined := by
  simp only [Form.equals, inlined, substitute, valueOf_self, hs.substitute_eq]

theorem inlined_anyOf (first : Scalar) (rest : List Scalar) :
    (Form.anyOf first rest).inlined = Form.anyOf first.inlined (rest.map inlined) := by
  unfold Form.anyOf
  induction rest generalizing first with
  | nil => rfl
  | cons s rest ih => rw [List.foldl_cons, ih, List.map_cons, List.foldl_cons, disjunction, disjunction, inlined]

theorem substitute_anyOf (σ : Variable → Scalar) (first : Scalar) (rest : List Scalar) :
    (Form.anyOf first rest).substitute σ = Form.anyOf (first.substitute σ) (rest.map (substitute σ)) := by
  unfold Form.anyOf
  induction rest generalizing first with
  | nil => rfl
  | cons s rest ih => rw [List.foldl_cons, ih, List.map_cons, List.foldl_cons, disjunction, disjunction, substitute]

theorem inlined_conditional (ps : List (Scalar × Scalar)) (o : Option Scalar) : (conditional ps o).inlined =
    conditional (ps.map fun p => (p.1.inlined, p.2.inlined)) (o.map inlined) := by
  rw [inlined, inlinedPairs_eq, inlinedOption_eq]

theorem substitute_conditional (σ : Variable → Scalar) (ps : List (Scalar × Scalar)) (o : Option Scalar) :
    (conditional ps o).substitute σ =
      conditional (ps.map fun p => (p.1.substitute σ, p.2.substitute σ)) (o.map (substitute σ)) := by
  have hpairs : substitutePairs σ ps = ps.map fun p => (p.1.substitute σ, p.2.substitute σ) := by
    induction ps with
    | nil => rfl
    | cons p ps ih => rw [substitutePairs, ih, List.map_cons]
  rw [substitute, hpairs, substituteOption_eq]

end Forms

end Scalar

section Unnumbered

/-- The variable without its number, if it is told apart by what it stands for. -/
def Variable.unnumbered (v : Variable) : Variable :=
  match v.kind with
  | .host _ => ⟨0, v.kind⟩
  | .external _ => ⟨0, v.kind⟩
  | _ => v

namespace Scalar

/-- The expression without the numbers of variables that are told apart by what they stand for. -/
def unnumbered (s : Scalar) : Scalar := s.substitute fun v => var v.unnumbered

/-- The expression without lets and without numbers that tell nothing apart. -/
def expanded (s : Scalar) : Scalar := s.inlined.unnumbered

theorem expanded_negatedIf (negated : Bool) (s : Scalar) :
    (s.negatedIf negated).expanded = s.expanded.negatedIf negated := by
  cases negated <;> rfl

theorem expanded_call (f : FunctionDecl) (ss : List Scalar) : (call f ss).expanded = call f (ss.map expanded) := by
  rw [expanded, inlined, inlinedList_eq, unnumbered, substitute, substituteList_eq, List.map_map]
  rfl

theorem expanded_aggregate (f : AggregateDecl) (ss : List Scalar) :
    (aggregate f ss).expanded = aggregate f (ss.map expanded) := by
  rw [expanded, inlined, inlinedList_eq, unnumbered, substitute, substituteList_eq, List.map_map]
  rfl

theorem expanded_conditional (tests bodies : List Scalar) (default : Option Scalar) :
    (conditional (tests.zip bodies) default).expanded =
      conditional ((tests.map expanded).zip (bodies.map expanded)) (default.map expanded) := by
  rw [expanded, inlined_conditional, unnumbered, substitute_conditional, List.zip_map, List.map_map, Option.map_map]
  rfl

variable {t : Variable} {x : Scalar}

theorem expanded_inRange (hlow : low.Avoids t) (hhigh : high.Avoids t) :
    (letIn [(t, x)] (Form.inRange low (var t) high)).expanded =
      Form.inRange low.expanded x.expanded high.expanded := by
  simp only [expanded, inlined, inlinedDeclarators, Form.inRange, conjunction, substitute, hlow.substitute_eq,
    hhigh.substitute_eq, valueOf_self]
  rfl

theorem expanded_anyOf_equals (hfirst : first.Avoids t) (hrest : ∀ s ∈ rest, s.Avoids t) :
    (letIn [(t, x)] (Form.anyOf (Form.equals t first) (rest.map (Form.equals t)))).expanded =
      Form.anyOf (compare .equal x.expanded first.expanded)
        ((rest.map expanded).map (compare .equal x.expanded)) := by
  have hmap : ((rest.map (Form.equals t)).map inlined).map (substitute (valueOf [(t, x.inlined)])) =
      rest.map fun s => compare .equal x.inlined s.inlined := by
    rw [List.map_map, List.map_map]
    exact List.map_congr_left fun s hs => substitute_equals (hrest s hs)
  rw [expanded, inlined, inlinedDeclarators, inlinedDeclarators, inlined_anyOf, substitute_anyOf,
    substitute_equals hfirst, hmap, unnumbered, substitute_anyOf, List.map_map, List.map_map]
  rfl

theorem expanded_conditional_equals (hwhens : ∀ s ∈ whens, s.Avoids t) (hbodies : ∀ s ∈ bodies, s.Avoids t)
    (hdefault : ∀ s ∈ default, s.Avoids t) :
    (letIn [(t, x)] (conditional ((whens.map (Form.equals t)).zip bodies) default)).expanded =
      conditional (((whens.map expanded).map (compare .equal x.expanded)).zip (bodies.map expanded))
        (default.map expanded) := by
  rw [expanded, inlined, inlinedDeclarators, inlinedDeclarators, inlined_conditional, substitute_conditional,
    Option.map_map, List.map_map, unnumbered, substitute_conditional, List.map_map, Option.map_map]
  congr 1
  · rw [List.map_map, List.zip_map, List.zip_map_left, List.map_map]
    refine List.map_congr_left fun p hp => ?_
    obtain ⟨hwhen, hbody⟩ := List.of_mem_zip hp
    exact Prod.ext (congrArg unnumbered (substitute_equals (hwhens _ hwhen)))
      (congrArg unnumbered (hbodies _ hbody).substitute_eq)
  · exact Option.map_congr fun s hs => congrArg unnumbered (hdefault s hs).substitute_eq

theorem expanded_nullif (hb : b.Avoids t) :
    (letIn [(t, a)] (conditional [(Form.equals t b, immediate .null type)] (some (var t)))).expanded =
      conditional [(compare .equal a.expanded b.expanded, immediate .null type)] (some a.expanded) := by
  simp only [expanded, inlined, inlinedDeclarators, inlinedPairs, inlinedOption, Form.equals, substitute,
    substitutePairs, substituteOption, valueOf_self, hb.substitute_eq]
  rfl

end Scalar

end Unnumbered

end SqlPlan
