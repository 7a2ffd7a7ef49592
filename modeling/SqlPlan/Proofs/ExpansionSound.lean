import SqlPlan.Proofs.DirectExpansion

namespace SqlPlan

variable {Q : Type} {env : Environment} {scopes : Scopes} {n m first : Nat} {o : Options} {target : Option Target}
  {name : Name} {slots : List Slot} {p : Position} {e : Expr Q} {es : List (Expr Q)} {x y : Typed} {xs : List Typed}
  {s : Slot} {t : SqlType}

def Typed.expanded (x : Typed) : Expanded := ⟨x.expr.expanded, x.type⟩

theorem Typed.expanded_truth (s : Scalar) (negated aggregated : Bool) :
    (Typed.truth s negated aggregated).expanded = Expanded.truth s.expanded negated := by
  rw [expanded, truth, Scalar.expanded_negatedIf, Expanded.truth]

theorem Literal.typed_expanded {l : Literal} (h : l.typed o target = .ok x) :
    Expanded.literal o l target = some x.expanded := by
  rw [Expanded.literal, h]
  rcases Literal.typed_ok h with ⟨v, t, rfl⟩ | ⟨v, t, u, rfl⟩ <;> rfl

theorem exists_cons_of_map_eq {α β : Type} {f : α → β} {as : List α} {b : β} {bs : List β}
    (h : as.map f = b :: bs) : ∃ a rest, as = a :: rest := by
  obtain ⟨a, rest, has, -⟩ := List.map_eq_cons_iff.mp h
  exact ⟨a, rest, has⟩

namespace Expr

def slot (env : Environment) (scopes : Scopes) (e : Expr Q) : Option Slot :=
  Slot.ofExpr e.isNull (e.expand env scopes none)

theorem ofExpr_eq_slot (e : Expr Q) : Slot.ofExpr e.isNull (e.expand env scopes none) = e.slot env scopes := rfl

theorem expandList_of_map (h : es.map (slot env scopes) = slots.map some) :
    expandList env scopes es = some slots := by
  induction es generalizing slots with
  | nil =>
    obtain rfl := List.map_eq_nil_iff.mp h.symm
    rfl
  | cons e es ih =>
    obtain ⟨s, slots, rfl⟩ := exists_cons_of_map_eq h.symm
    rw [List.map_cons, List.map_cons, List.cons.injEq] at h
    rw [expandList, ofExpr_eq_slot, h.1, ih h.2]
    rfl

theorem expandOption_of_map {e : Option (Expr Q)} {s : Option Slot} (h : e.map (slot env scopes) = s.map some) :
    expandOption env scopes e = some s := by
  cases e with
  | none =>
    obtain rfl := Option.map_eq_none_iff.mp h.symm
    rfl
  | some e =>
    obtain ⟨s, rfl, hs⟩ := Option.map_eq_some_iff.mp h.symm
    rw [expandOption, ofExpr_eq_slot, ← hs]
    rfl

theorem expandClauses_of_map {clauses : List (Expr Q × Expr Q)} {whens thens : List Slot}
    (hwhens : (clauses.map (·.1)).map (slot env scopes) = whens.map some)
    (hthens : (clauses.map (·.2)).map (slot env scopes) = thens.map some) :
    expandClauses env scopes clauses = some (whens, thens) := by
  induction clauses generalizing whens thens with
  | nil =>
    obtain rfl := List.map_eq_nil_iff.mp hwhens.symm
    obtain rfl := List.map_eq_nil_iff.mp hthens.symm
    rfl
  | cons c clauses ih =>
    obtain ⟨w, t⟩ := c
    obtain ⟨a, whens, rfl⟩ := exists_cons_of_map_eq hwhens.symm
    obtain ⟨b, thens, rfl⟩ := exists_cons_of_map_eq hthens.symm
    simp only [List.map_cons, List.cons.injEq] at hwhens hthens
    rw [expandClauses, ofExpr_eq_slot, ofExpr_eq_slot, hwhens.1, hthens.1, ih hwhens.2 hthens.2]
    rfl

theorem isNull_of_slot (h : e.slot env scopes = some s) : s.isNull = e.isNull := by
  unfold slot Slot.ofExpr at h
  split at h
  · cases h
    exact Eq.symm ‹_›
  · obtain ⟨y, -, rfl⟩ := Option.map_eq_some_iff.mp h
    exact (Bool.not_eq_true _ ▸ ‹¬_› : e.isNull = false).symm

theorem signedLiteral?_eq_none {op : UnaryOp} (h : ∀ l, op = .minus → e = .literal l → l.negated? = none) :
    signedLiteral? op e = none := by
  unfold signedLiteral?
  split
  · exact h _ rfl rfl
  · rfl

end Expr

theorem SharedType.written {fallback : SqlType} (h : SharedType fallback es xs t)
    (hslots : es.map (Expr.slot env scopes) = slots.map some)
    (hxs : slots.map (Slot.withType t) = xs.map Typed.expanded) :
    Slot.sharedType fallback slots = some t := by
  have hgiven : slots.filterMap Slot.type? = givenTypes es xs ∧ slots.any Slot.isNull = es.any (·.isNull) := by
    clear h
    induction slots generalizing es xs with
    | nil =>
      obtain rfl := List.map_eq_nil_iff.mp hslots
      exact ⟨rfl, rfl⟩
    | cons s slots ih =>
      obtain ⟨e, es, rfl⟩ := exists_cons_of_map_eq hslots
      obtain ⟨x, xs, rfl⟩ := exists_cons_of_map_eq hxs.symm
      simp only [List.map_cons, List.cons.injEq] at hslots hxs
      obtain ⟨ih, hany⟩ := ih hslots.2 hxs.2
      have hnull := Expr.isNull_of_slot hslots.1
      refine ⟨?_, by simp [hnull, hany]⟩
      cases s with
      | null => simpa [givenTypes, List.filterMap_cons, Slot.type?, show e.isNull = true from hnull.symm] using ih
      | of y =>
        have hy : y.type = x.type := congrArg Expanded.type hxs.1
        simpa [givenTypes, List.filterMap_cons, Slot.type?, show e.isNull = false from hnull.symm, hy] using ih
  obtain ⟨u, hu, rfl⟩ := h.given
  simp [Slot.sharedType, hgiven, hu]

theorem Slot.map_written (h : slots.map (Slot.withType t) = xs.map Typed.expanded) :
    (xs.map (·.expr)).map Scalar.expanded = slots.map (Slot.written t) := by
  have hexprs := congrArg (List.map Expanded.expr) h.symm
  rw [List.map_map, List.map_map] at hexprs
  rwa [List.map_map]

def Position.Writes (env : Environment) (scopes : Scopes) : Position → List (Expr Q) → List Typed → Prop
  | .target t, es, xs => List.Forall₂ (fun e x => e.expand env scopes t = some x.expanded) es xs
  | .operands nulls, es, xs => ∃ slots : List Slot, es.map (Expr.slot env scopes) = slots.map some ∧
    slots.mapIdx (fun i s => s.withType (nulls i)) = xs.map Typed.expanded

namespace Position.Writes

theorem of_expand (he : e.isNull = false) (h : e.expand env scopes (p.expected false) = some x.expanded) :
    p.Writes env scopes [e] [x] := by
  cases p with
  | target t => exact .cons h .nil
  | operands nulls =>
    have hslot : e.slot env scopes = some (.of x.expanded) := by
      rw [Expr.slot, Slot.ofExpr, he]
      exact congrArg (Option.map Slot.of) h
    exact ⟨[.of x.expanded], by simp [hslot], rfl⟩

theorem nil : p.Writes env scopes ([] : List (Expr Q)) [] := by
  cases p with
  | target t => exact .nil
  | operands nulls => exact ⟨[], rfl, rfl⟩

theorem cons (h : p.Writes env scopes [e] [x]) (h' : p.next.Writes env scopes es xs) :
    p.Writes env scopes (e :: es) (x :: xs) := by
  cases p with
  | target t => exact .cons (List.forall₂_cons.mp h).1 h'
  | operands nulls =>
    obtain ⟨ss, hss, hx⟩ := h
    obtain ⟨rest, hrest, hxs⟩ := h'
    obtain ⟨s, rfl⟩ := List.length_eq_one_iff.mp (by simpa using congrArg List.length hx)
    refine ⟨s :: rest, by simp [(List.cons.inj hss).1, hrest], ?_⟩
    rw [List.mapIdx_cons, hxs, List.map_cons, ← (List.cons.inj hx).1]
    rfl

theorem literal {l : Literal}
    (h : l.typed env.options (p.expected (Expr.literal l : Expr Q).isNull) = .ok x) :
    p.Writes env scopes [(.literal l : Expr Q)] [x] := by
  cases p with
  | target t => exact List.Forall₂.cons (Literal.typed_expanded h) List.Forall₂.nil
  | operands nulls =>
    cases hnull : (Expr.literal l : Expr Q).isNull with
    | true =>
      obtain rfl : l = .null := Expr.literal.inj (Expr.eq_null hnull)
      cases h
      exact ⟨[.null], rfl, rfl⟩
    | false =>
      rw [hnull] at h
      exact .of_expand hnull (Literal.typed_expanded h)

theorem all (h : (Position.all t).Writes env scopes es xs) : ∃ slots : List Slot,
    es.map (Expr.slot env scopes) = slots.map some ∧ slots.map (Slot.withType t) = xs.map Typed.expanded ∧
      ∀ fallback, SharedType fallback es xs t → Slot.sharedType fallback slots = some t := by
  obtain ⟨slots, hslots, hxs⟩ := h
  have hmap : slots.map (Slot.withType t) = xs.map Typed.expanded := by
    rw [← hxs]
    exact List.ext_getElem? fun i => by simp
  exact ⟨slots, hslots, hmap, fun _ h => h.written hslots hmap⟩

theorem one (h : (Position.all t).Writes env scopes [e] [x]) :
    ∃ a, e.slot env scopes = some a ∧ a.withType t = x.expanded := by
  obtain ⟨slots, hslots, hx, -⟩ := h.all
  obtain ⟨a, rfl⟩ := List.length_eq_one_iff.mp (by simpa using congrArg List.length hx)
  exact ⟨a, (List.cons.inj hslots).1, (List.cons.inj hx).1⟩

theorem two {l r : Expr Q} (h : (Position.all t).Writes env scopes [l, r] [x, y]) : ∃ a b,
    l.slot env scopes = some a ∧ r.slot env scopes = some b ∧ a.withType t = x.expanded ∧ b.withType t = y.expanded ∧
      ∀ fallback, SharedType fallback [l, r] [x, y] t → Slot.sharedType fallback [a, b] = some t := by
  obtain ⟨slots, hslots, hx, hshared⟩ := h.all
  obtain ⟨a, b, rfl⟩ := List.length_eq_two.mp (by simpa using congrArg List.length hx)
  simp only [List.map_cons, List.map_nil, List.cons.injEq, and_true] at hslots hx
  exact ⟨a, b, hslots.1, hslots.2, hx.1, hx.2, hshared⟩

theorem three {l r e' : Expr Q} {z : Typed} (h : (Position.all t).Writes env scopes [l, r, e'] [x, y, z]) : ∃ a b c,
    l.slot env scopes = some a ∧ r.slot env scopes = some b ∧ e'.slot env scopes = some c ∧
      a.withType t = x.expanded ∧ b.withType t = y.expanded ∧ c.withType t = z.expanded ∧
      ∀ fallback, SharedType fallback [l, r, e'] [x, y, z] t → Slot.sharedType fallback [a, b, c] = some t := by
  obtain ⟨slots, hslots, hx, hshared⟩ := h.all
  obtain ⟨a, b, c, rfl⟩ := List.length_eq_three.mp (by simpa using congrArg List.length hx)
  simp only [List.map_cons, List.map_nil, List.cons.injEq, and_true] at hslots hx
  exact ⟨a, b, c, hslots.1, hslots.2.1, hslots.2.2, hx.1, hx.2.1, hx.2.2, hshared⟩

/-- The operands of a concatenation, of which a bare NULL takes the type of the other. -/
theorem concat {l r : Expr Q} (h : (Position.all (pairedType l r x y)).Writes env scopes [l, r] [x, y])
    (ht : x.type.concat y.type = some t) : ∃ a b, l.slot env scopes = some a ∧ r.slot env scopes = some b ∧
      Expanded.concat a b = some ⟨.binary .concat x.expr.expanded y.expr.expanded, t⟩ := by
  obtain ⟨a, b, ha, hb, hx, hy, -⟩ := h.two
  have hx' : a.withType (b.type?.getD .unknown) = x.expanded := by
    cases a with
    | of a => exact hx
    | null =>
      rw [← hx, pairedType, ← Expr.isNull_of_slot ha, ← Expr.isNull_of_slot hb]
      cases b with
      | null => rfl
      | of b => rw [show y.type = b.type from (congrArg Expanded.type hy).symm]; rfl
  have hy' : b.withType (a.type?.getD .unknown) = y.expanded := by
    cases b with
    | of b => exact hy
    | null =>
      rw [← hy, pairedType, ← Expr.isNull_of_slot ha, ← Expr.isNull_of_slot hb]
      cases a with
      | null => rfl
      | of a => rw [show x.type = a.type from (congrArg Expanded.type hx).symm]; rfl
  refine ⟨a, b, ha, hb, ?_⟩
  simp only [Expanded.concat, hx', hy']
  rw [show x.expanded.type.concat y.expanded.type = some t from ht]
  rfl

end Position.Writes

theorem Elaborates.avoids (hscopes : ∀ c ∈ scopes.visible, c.carrier.MintedBy first)
    (h : Elaborates env scopes p es n xs m) {i : Nat} (hi : first ≤ i) :
    ∀ x ∈ xs, x.expr.Avoids (temporaryAfter i) := by
  intro x hx v hv
  rcases hsame : v.same (temporaryAfter i) with _ | _
  · rfl
  · obtain ⟨hminted, hid⟩ := Variable.isMinted_of_same_temporary hsame rfl
    obtain ⟨c, hc, rfl⟩ := h.free_visible x hx v hv hminted
    have hle := hscopes c hc hminted
    simp only [temporaryAfter] at hid
    omega

theorem Form.hostParameter_expanded {name : String} {span : Span} (h : hostParameter name span env n = (.ok x, m)) :
    Expanded.hostParameter env name = some x.expanded := by
  unfold Expanded.hostParameter
  obtain ⟨decl, rfl, -, hdecl⟩ | ⟨v, t, rfl, -, hdecl, hplaceholder⟩ := hostParameter_ok h
  · simp only [parameterKey] at hdecl
    simp only [hdecl]
    rfl
  · simp only [parameterKey] at hdecl hplaceholder
    simp only [hdecl, hplaceholder]
    rfl

/-- A name denotes the same variable whatever was minted before, but for the number of a new one. -/
theorem Name.resolveVariable_expands {r : ResolvedVariable} {k m : Nat}
    (h : name.resolveVariable scopes env k = (.ok r, m)) :
    Expanded.reference env scopes name = some ⟨.var r.carrier.unnumbered, r.type⟩ := by
  have hparallel : Step.Parallel
      (fun r r' : ResolvedVariable => (⟨.var r.carrier.unnumbered, r.type⟩ : Expanded) =
        ⟨.var r'.carrier.unnumbered, r'.type⟩) env (name.resolveVariable scopes) (name.resolveVariable scopes) := by
    refine resolveVariable_parallel name scopes (fun _ => rfl) ?_
    rintro ⟨v, _⟩ ⟨w, _⟩ decl ⟨rfl, rfl⟩
    rfl
  have heq := hparallel.toOption_eq 0 k
  rw [h] at heq
  exact heq

theorem Expanded.overload_eq {D : Type} [Overloaded D] {candidates : List D} {d : D}
    (h : (Position.arguments candidates).Writes env scopes es xs)
    (hd : Overload.cheapest (xs.map (·.type)) candidates = [d]) : ∃ slots : List Slot,
      es.map (Expr.slot env scopes) = slots.map some ∧ overload candidates slots = some (d, xs.map Typed.expanded) := by
  obtain ⟨slots, hslots, hxs⟩ := h
  refine ⟨slots, hslots, ?_⟩
  have htypes : (xs.map Typed.expanded).map (·.type) = xs.map (·.type) := by rw [List.map_map]; rfl
  simp only [overload, hxs, htypes, hd]

theorem Position.Writes.results {clauses : List (Expr Q × Expr Q)} {default : Option (Expr Q)}
    (h : (Position.all t).Writes env scopes (clauses.map (·.2) ++ default.toList) xs) :
    ∃ (thens : List Slot) (d : Option Slot), (clauses.map (·.2)).map (Expr.slot env scopes) = thens.map some ∧
      default.map (Expr.slot env scopes) = d.map some ∧
      ((xs.map (·.expr)).take clauses.length).map Scalar.expanded = thens.map (Slot.written t) ∧
      (xs.map (·.expr))[clauses.length]?.map Scalar.expanded = d.map (Slot.written t) ∧
      ∀ fallback, SharedType fallback (clauses.map (·.2) ++ default.toList) xs t →
        Slot.sharedType fallback (thens ++ d.toList) = some t := by
  obtain ⟨slots, hslots, hxs, hshared⟩ := h.all
  rw [List.map_append] at hslots
  obtain ⟨thens, ds, rfl, hthens, hds⟩ := List.map_eq_append_iff.mp hslots.symm
  obtain ⟨d, hd, rfl⟩ : ∃ d : Option Slot, default.map (Expr.slot env scopes) = d.map some ∧ ds = d.toList := by
    cases default with
    | none => exact ⟨none, rfl, List.map_eq_nil_iff.mp hds⟩
    | some e =>
      obtain ⟨d, rfl⟩ := List.length_eq_one_iff.mp (by simpa using congrArg List.length hds)
      exact ⟨some d, congrArg some (List.cons.inj hds).1.symm, rfl⟩
  have hlength : clauses.length = thens.length := by simpa using (congrArg List.length hthens).symm
  have hexprs := Slot.map_written hxs
  rw [List.map_append] at hexprs
  refine ⟨thens, d, hthens.symm, hd, ?_, ?_, hshared⟩
  · rw [hlength, List.map_take, hexprs, List.take_left' (List.length_map _)]
  · rw [hlength, ← List.getElem?_map, hexprs, List.getElem?_append_right (by simp), List.length_map, Nat.sub_self]
    cases d <;> rfl

namespace Position.Writes

theorem inList {values : List (Expr Q)} {ys : List Typed} {v : Variable} {negated aggregated : Bool}
    (h : (Position.all t).Writes env scopes (e :: values) (x :: y :: ys))
    (hshared : SharedType .unknown (e :: values) (x :: y :: ys) t) (havoids : ∀ z ∈ x :: y :: ys, z.expr.Avoids v) :
    p.Writes env scopes [.inList e values negated] [.truth (.letIn [(v, x.expr)]
      (Form.anyOf (Form.equals v y.expr) ((ys.map (·.expr)).map (Form.equals v)))) negated aggregated] := by
  obtain ⟨slots, hslots, hxs, hshare⟩ := h.all
  have htype := hshare _ hshared
  obtain ⟨a, _, rfl⟩ := exists_cons_of_map_eq hxs
  obtain ⟨b, bs, rfl⟩ := exists_cons_of_map_eq (List.cons.inj hxs).2
  simp only [List.map_cons, List.cons.injEq] at hslots hxs
  obtain ⟨hx, hy, hys⟩ := hxs
  have hvalues : Expr.expandList env scopes values = some (b :: bs) := Expr.expandList_of_map hslots.2
  have hrest : ∀ s ∈ ys.map (·.expr), s.Avoids v := List.forall_mem_map.mpr fun z hz => havoids z (by simp [hz])
  refine .of_expand rfl ?_
  rw [Typed.expanded_truth, Scalar.expanded_anyOf_equals (havoids y (by simp)) hrest, Slot.map_written hys]
  simp only [Expr.expand, Expr.ofExpr_eq_slot, hslots.1, hvalues, Option.bind_eq_bind, Option.bind_some,
    Expanded.inList, htype, Slot.written, hx, hy, Form.anyOf, List.foldl_map]
  rfl

section Case

variable {clauses : List (Expr Q × Expr Q)} {default : Option (Expr Q)} {ws bs : List Typed} {aggregated : Bool}
  (hb : (Position.all t).Writes env scopes (clauses.map (·.2) ++ default.toList) bs)
  (hshared : SharedType p.fallback (clauses.map (·.2) ++ default.toList) bs t)
include hb hshared

theorem searchedCase (hw : (Position.all .unknown).Writes env scopes (clauses.map (·.1)) ws) :
    p.Writes env scopes [.case none clauses default]
      [⟨conditionalOf clauses.length (ws.map (·.expr)) bs, t, aggregated⟩] := by
  obtain ⟨whens, hwhens, hws, -⟩ := hw.all
  obtain ⟨thens, d, hthens, hd, hbodies, hlast, hshare⟩ := hb.results
  have htype : Slot.sharedType (((p.expected false).map (·.type)).getD .unknown) (thens ++ d.toList) = some t :=
    hshare _ hshared
  refine .of_expand rfl ?_
  simp only [Expr.expand, Expr.expandClauses_of_map hwhens hthens, Expr.expandOption_of_map hd, Expr.expandOption,
    Option.bind_eq_bind, Option.bind_some, Expanded.case, Expanded.conditions, htype]
  rw [Typed.expanded, conditionalOf, Scalar.expanded_conditional, Slot.map_written hws, hbodies, hlast]
  rfl

theorem simpleCase {u : SqlType} {v : Variable}
    (hw : (Position.all u).Writes env scopes (e :: clauses.map (·.1)) (x :: ws))
    (htested : SharedType .unknown (e :: clauses.map (·.1)) (x :: ws) u)
    (hwavoids : ∀ w ∈ x :: ws, w.expr.Avoids v) (hbavoids : ∀ b ∈ bs, b.expr.Avoids v) :
    p.Writes env scopes [.case (some e) clauses default] [⟨.letIn [(v, x.expr)]
      (conditionalOf clauses.length ((ws.map (·.expr)).map (Form.equals v)) bs), t, aggregated⟩] := by
  obtain ⟨slots, hslots, hws, hshare⟩ := hw.all
  obtain ⟨thens, d, hthens, hd, hbodies, hlast, hshareBodies⟩ := hb.results
  have htests := hshare _ htested
  have htype : Slot.sharedType (((p.expected false).map (·.type)).getD .unknown) (thens ++ d.toList) = some t :=
    hshareBodies _ hshared
  obtain ⟨a, whens, rfl⟩ := exists_cons_of_map_eq hws
  simp only [List.map_cons, List.cons.injEq] at hslots hws
  have hwhens : ∀ s ∈ ws.map (·.expr), s.Avoids v := List.forall_mem_map.mpr fun w hw => hwavoids w (by simp [hw])
  have hresults : ∀ s ∈ bs.map (·.expr), s.Avoids v := List.forall_mem_map.mpr hbavoids
  have ho : (some e).map (Expr.slot env scopes) = (some a).map some := congrArg some hslots.1
  refine .of_expand rfl ?_
  simp only [Expr.expand, Expr.expandClauses_of_map hslots.2 hthens, Expr.expandOption_of_map hd,
    Expr.expandOption_of_map ho, Option.bind_eq_bind, Option.bind_some, Expanded.case, Expanded.conditions, htests,
    htype]
  rw [Typed.expanded, conditionalOf, Scalar.expanded_conditional_equals hwhens
    (fun s hs => hresults s (List.mem_of_mem_take hs)) (fun s hs => hresults s (List.mem_of_getElem? hs)),
    Slot.map_written hws.2, hbodies, hlast, List.map_map,
    show x.expr.expanded = a.written u from (congrArg Expanded.expr hws.1).symm]
  rfl

end Case

theorem call {overloads : List FunctionDecl} {function : FunctionDecl}
    (h : (Position.arguments overloads).Writes env scopes es xs)
    (hoverloads : name.scalarOverloads es.length env n = (.ok overloads, n))
    (hcheapest : Overload.cheapest (xs.map (·.type)) overloads = [function]) :
    p.Writes env scopes [.call name none (some es)]
      [⟨.call function (xs.map (·.expr)), function.result, xs.any (·.aggregated)⟩] := by
  obtain ⟨slots, hslots, hoverload⟩ := Expanded.overload_eq h hcheapest
  have hlength : slots.length = es.length := by simpa using (congrArg List.length hslots).symm
  have hfound := ((Name.scalarOverloads_reads name es.length).ok_iff hoverloads).2 0
  have hne : overloads.isEmpty = false := by
    cases overloads with
    | nil => cases hcheapest
    | cons => rfl
  refine .of_expand rfl ?_
  simp only [Expr.expand, Expr.expandList_of_map hslots, Option.bind_eq_bind, Option.bind_some, Expanded.call,
    hlength, hfound, Outcome.toOption_ok, hne, Bool.false_eq_true, if_false, hoverload, Typed.expanded,
    Scalar.expanded_call, List.map_map]
  rfl

theorem aggregate {quantifier : Option SetQuantifier} {arguments : Option (List (Expr Q))} {key : String}
    {overloads : List AggregateDecl} {function : AggregateDecl}
    (h : (Position.arguments overloads).Writes env scopes (arguments.getD []) xs)
    (hscalar : ∀ es, quantifier = none → arguments = some es →
      name.scalarOverloads es.length env n = (.ok [], n))
    (hfound : (name.resolveAggregates (if quantifier = some .distinct then distinctSuffix else "")
      (arguments.getD []).length arguments.isNone : Analysis _) env n = (.ok (key, overloads), n))
    (hcheapest : Overload.cheapest (xs.map (·.type)) overloads = [function]) :
    p.Writes env scopes [.call name quantifier arguments]
      [⟨.aggregate function (xs.map (·.expr)), function.result, true⟩] := by
  obtain ⟨slots, hslots, hoverload⟩ := Expanded.overload_eq h hcheapest
  have hlength : slots.length = (arguments.getD []).length := by simpa using (congrArg List.length hslots).symm
  have hread := ((Name.resolveAggregates_reads name _ _ _).ok_iff hfound).2 0
  have haggregate : Expanded.aggregateCall env name (decide (quantifier = some .distinct)) arguments.isNone slots =
      some (Typed.expanded ⟨.aggregate function (xs.map (·.expr)), function.result, true⟩) := by
    simp only [Expanded.aggregateCall, decide_eq_true_eq, hlength, hread, hoverload, Outcome.toOption_ok,
      Option.bind_eq_bind, Option.bind_some, Typed.expanded, Scalar.expanded_aggregate, List.map_map]
    rfl
  refine .of_expand (by cases arguments <;> rfl) ?_
  cases arguments with
  | none =>
    obtain rfl := List.map_eq_nil_iff.mp hslots.symm
    cases quantifier <;> exact haggregate
  | some es =>
    have hlist : Expr.expandList env scopes es = some slots := Expr.expandList_of_map hslots
    simp only [Expr.expand, hlist, Option.bind_eq_bind, Option.bind_some]
    cases quantifier with
    | some q => exact haggregate
    | none =>
      have hnone := ((Name.scalarOverloads_reads name es.length).ok_iff (hscalar es rfl rfl)).2 0
      simp only [Expanded.call, show slots.length = es.length from hlength, hnone, Outcome.toOption_ok,
        Option.bind_eq_bind, Option.bind_some, List.isEmpty_nil, if_true]
      exact haggregate

end Position.Writes

/-- Whatever expressions elaborate to is, without its lets, what they are written out to. -/
theorem Elaborates.writes (hscopes : ∀ c ∈ scopes.visible, c.carrier.MintedBy first)
    (h : Elaborates env scopes p es n xs m) (hle : first ≤ n) : p.Writes env scopes es xs := by
  induction h with
  | nil => exact .nil
  | cons he _ ih ih' => exact (ih hle).cons (ih' (hle.trans he.minted_le))
  | literal _ hx => exact .literal hx
  | @negated l l' x p _ hl hx =>
    refine .of_expand rfl ?_
    simp only [Expr.expand, Expr.signedLiteral?, hl]
    exact Literal.typed_expanded hx
  | reference hr => exact .of_expand rfl (Name.resolveVariable_expands hr)
  | hostParameter hx => exact .of_expand rfl (Form.hostParameter_expanded hx)
  | @sign op e x _ _ _ hsign _ hnumber ih =>
    obtain ⟨a, ha, hx⟩ := (ih hle).one
    refine .of_expand rfl ?_
    simp only [Expr.expand, Expr.signedLiteral?_eq_none hnumber, Expr.ofExpr_eq_slot, ha,
      Option.bind_eq_bind, Option.bind_some, Expanded.unary, hx, hsign, if_true]
    rfl
  | @test op e x _ _ _ hsign _ ih =>
    obtain ⟨a, ha, hx⟩ := (ih hle).one
    have hsigned : Expr.signedLiteral? op e = none := by
      refine Expr.signedLiteral?_eq_none ?_
      rintro _ rfl
      cases hsign
    refine .of_expand rfl ?_
    simp only [Expr.expand, hsigned, Expr.ofExpr_eq_slot, ha, Option.bind_eq_bind, Option.bind_some, Expanded.unary, hx,
      hsign, Bool.false_eq_true, if_false, Typed.expanded_truth]
    rfl
  | @isTest op negated e right test x _ _ _ hop ht _ ih =>
    obtain ⟨a, ha, hx⟩ := (ih hle).one
    have hnegated : Expr.isNegated? op = some negated := by
      rcases hop with ⟨rfl, rfl⟩ | ⟨rfl, rfl⟩ <;> rfl
    refine .of_expand rfl ?_
    simp only [Expr.expand, hnegated, ht, Expr.ofExpr_eq_slot, ha, Option.bind_eq_bind, Option.bind_some,
      Expanded.isTest, Slot.written, hx, Typed.expanded_truth]
    rfl
  | @logical op op' l r x y _ _ _ hop _ ih =>
    obtain ⟨a, b, ha, hb, hx, hy, -⟩ := (ih hle).two
    have hlogical : Expanded.logical op' a b =
        Typed.expanded ⟨.binary op' x.expr y.expr, .boolean, x.aggregated || y.aggregated⟩ := by
      simp only [Expanded.logical, Slot.written, hx, hy]
      rfl
    refine .of_expand rfl ?_
    rcases hop with ⟨rfl, rfl⟩ | ⟨rfl, rfl⟩
    all_goals
      simp only [Expr.expand, Expr.ofExpr_eq_slot, ha, hb, Option.bind_eq_bind, Option.bind_some, ← hlogical]
      rfl
  | concat _ ht ih =>
    obtain ⟨a, b, ha, hb, hconcat⟩ := (ih hle).concat ht
    refine .of_expand rfl ?_
    simp only [Expr.expand, Expr.ofExpr_eq_slot, ha, hb, Option.bind_eq_bind, Option.bind_some]
    exact hconcat
  | @arithmetic op l r x y t _ _ _ hop _ hshared ih =>
    obtain ⟨a, b, ha, hb, hx, hy, hshare⟩ := (ih hle).two
    have htype := hshare _ hshared
    have harithmetic : Expanded.arithmetic op.arithmetic a b = some (Typed.expanded
        ⟨.binary op.arithmetic x.expr y.expr, t, [x, y].any (·.aggregated)⟩) := by
      simp only [Expanded.arithmetic, htype, Slot.written, hx, hy, Option.bind_eq_bind, Option.bind_some]
      rfl
    refine .of_expand rfl ?_
    cases op with
    | add | subtract | multiply | divide | remainder =>
      simp only [Expr.expand, Expr.ofExpr_eq_slot, ha, hb, Option.bind_eq_bind, Option.bind_some, ← harithmetic]
      rfl
    | _ => cases hop
  | @comparison op l r x y t _ _ _ _ hshared ih =>
    obtain ⟨a, b, ha, hb, hx, hy, hshare⟩ := (ih hle).two
    have htype := hshare _ hshared
    refine .of_expand rfl ?_
    simp only [Expr.expand, Expr.ofExpr_eq_slot, ha, hb, Option.bind_eq_bind, Option.bind_some, Expanded.comparison,
      htype, Slot.written, hx, hy]
    rfl
  | @between e low high x l h t negated _ m _ hel hshared ih =>
    obtain ⟨a, b, c, ha, hb, hc, hx, hl, hh, hshare⟩ := (ih hle).three
    have htype := hshare _ hshared
    have havoids := hel.avoids hscopes (hle.trans hel.minted_le)
    refine .of_expand rfl ?_
    simp only [Expr.expand, Expr.ofExpr_eq_slot, ha, hb, hc, Option.bind_eq_bind, Option.bind_some, Expanded.between,
      htype, Slot.written, hx, hl, hh, Typed.expanded_truth]
    rw [Scalar.expanded_inRange (havoids l (by simp)) (havoids h (by simp))]
    rfl
  | @betweenSymmetric e low high x l h t negated _ m _ _ hshared ih =>
    obtain ⟨a, b, c, ha, hb, hc, hx, hl, hh, hshare⟩ := (ih hle).three
    have htype := hshare _ hshared
    refine .of_expand rfl ?_
    simp only [Expr.expand, Expr.ofExpr_eq_slot, ha, hb, hc, Option.bind_eq_bind, Option.bind_some, Expanded.between,
      htype, Slot.written, hx, hl, hh, Typed.expanded_truth]
    exact congrArg (fun s => some (Expanded.truth (Scalar.unnumbered s) negated))
      (Scalar.inlined_inRanges m x.expr l.expr h.expr).symm
  | inList hel hshared ih => exact .inList (ih hle) hshared (hel.avoids hscopes (hle.trans hel.minted_le))
  | @pattern op e s x y negated _ _ _ _ ih =>
    obtain ⟨a, b, ha, hb, hx, hy, -⟩ := (ih hle).two
    refine .of_expand rfl ?_
    simp only [Expr.expand, Expr.ofExpr_eq_slot, ha, hb, Expr.expandOption, Option.bind_eq_bind, Option.bind_some,
      Expanded.pattern, Slot.written, hx, hy, Typed.expanded_truth]
    rfl
  | @patternEscape op e s escape x y z negated _ _ _ _ ih =>
    obtain ⟨a, b, c, ha, hb, hc, hx, hy, hz, -⟩ := (ih hle).three
    have hescape : (some escape).map (Expr.slot env scopes) = (some c).map some := congrArg some hc
    refine .of_expand rfl ?_
    simp only [Expr.expand, Expr.ofExpr_eq_slot, ha, hb, Expr.expandOption_of_map hescape, Option.bind_eq_bind,
      Option.bind_some, Expanded.pattern, Option.map_some, Option.getD_some, Slot.written, hx, hy, hz,
      Typed.expanded_truth]
    rfl
  | searchedCase _ hw _ hshared ihw ihb => exact (ihb (hle.trans hw.minted_le)).searchedCase hshared (ihw hle)
  | @simpleCase _ _ _ _ _ _ _ _ _ k _ _ _ hw hwhens hb hshared ihw ihb =>
    have hk : first ≤ k := hle.trans hw.minted_le
    exact (ihb (hk.trans (Nat.le_succ k))).simpleCase hshared (ihw hle) hwhens (hw.avoids hscopes hk)
      (hb.avoids hscopes hk)
  | @nullif l r x y t _ m _ hel hshared ih =>
    obtain ⟨a, b, ha, hb, hx, hy, hshare⟩ := (ih hle).two
    have htype := hshare _ hshared
    have havoids := hel.avoids hscopes (hle.trans hel.minted_le)
    refine .of_expand rfl ?_
    simp only [Expr.expand, Expr.ofExpr_eq_slot, ha, hb, Option.bind_eq_bind, Option.bind_some, Expanded.nullif, htype,
      Slot.written, hx, hy]
    exact congrArg (fun s => some (Expanded.mk s t)) (Scalar.expanded_nullif (havoids y (by simp))).symm
  | @cast e target t x _ _ _ ht _ ih =>
    obtain ⟨a, ha, hx⟩ := (ih hle).one
    refine .of_expand rfl ?_
    simp only [Expr.expand, Expr.ofExpr_eq_slot, ha, Option.bind_eq_bind, Option.bind_some, Expanded.cast, ht,
      Except.toOption, Slot.written, hx]
    rfl
  | call hoverloads hcheapest _ ih => exact .call (ih hle) hoverloads hcheapest
  | aggregate hscalar hfound hcheapest _ ih => exact .aggregate (ih hle) hscalar hfound hcheapest

namespace Expr

/-- What an expression is resolved to is its direct expansion once every let is inlined, but for the numbers of
variables that the environment declares. The columns in scope were minted before, so no temporary is one of
them. -/
theorem expand_of_resolve {e : Expr Q} {target : Option Target} {x : Typed} {m : Nat}
    (hscopes : ∀ c ∈ scopes.visible, c.carrier.MintedBy n) (h : e.resolve scopes target env n = (.ok x, m)) :
    e.expand env scopes target = some ⟨x.expr.inlined.unnumbered, x.type⟩ :=
  (List.forall₂_cons.mp ((sound env scopes e target n x m h).writes hscopes le_rfl)).1

end Expr

def Sample.nestedWritten : Scalar :=
  let x := .var ⟨1, .stream none⟩
  let one := .immediate (.integer .w32 1) .int4
  let null := .immediate .null .int4
  let isIn := .disjunction (.compare .equal x one) (.compare .equal x x)
  let bound := .conditional [(.compare .equal x one, x)] none
  let within (low high : Scalar) := .conjunction (.compare .lessEqual low x) (.compare .lessEqual x high)
  let isOutside := .negation (.disjunction (within bound null) (within null bound))
  .conditional [(.compare .equal isIn isOutside, .immediate .null .boolean)] (some isIn)

theorem Expr.expand_of_resolve_nestedLets :
    (∀ c ∈ Sample.onlyX.visible, c.carrier.MintedBy 1) ∧
    ∃ x m, Sample.nestedLets.resolve Sample.onlyX none default 1 = (.ok x, m) ∧
      x.expr.inlined.unnumbered.same Sample.nestedWritten = true ∧ x.type = .boolean := by
  have hscopes : ∀ c ∈ Sample.onlyX.visible, c.carrier.MintedBy 1 := by
    simp [Sample.onlyX, Scopes.visible, Variable.MintedBy]
  have hok : (Sample.nestedLets.resolve Sample.onlyX none default 1).1.isOk = true := by decide +kernel
  obtain ⟨x, m, h⟩ := Step.exists_ok hok
  have hwritten : (Sample.nestedLets.expand default Sample.onlyX none).any
      (fun y => y.expr.same Sample.nestedWritten && decide (y.type = .boolean)) = true := by decide +kernel
  rw [Expr.expand_of_resolve hscopes h, Option.any_some, Bool.and_eq_true, decide_eq_true_iff] at hwritten
  exact ⟨hscopes, x, m, h, hwritten⟩

end SqlPlan
