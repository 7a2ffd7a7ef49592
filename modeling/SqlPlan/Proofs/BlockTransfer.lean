import SqlPlan.Proofs.AggregationTransfer
import SqlPlan.Proofs.BlockDelivery

namespace SqlPlan

variable {ν : Nat ↪ Nat} {Q σ : Type} {count : σ → Nat} {g : σ → σ} {env : Environment} {T : Transfer env.options}
variable {α β β' : Type} {f : β → β'}

def SelectColumn.renumber (ν : Nat ↪ Nat) (c : SelectColumn) : SelectColumn := { c with value := c.value.renumber ν }

def SortTarget.renumber (ν : Nat ↪ Nat) : SortTarget → SortTarget
  | output position => output position
  | expr value => expr (value.renumber ν)

def SortRequest.renumber (ν : Nat ↪ Nat) (s : SortRequest) : SortRequest := { s with target := s.target.renumber ν }

namespace Block

def Clauses.renumber (ν : Nat ↪ Nat) (c : Clauses) : Clauses where
  keys := c.keys.map (Variable.renumber ν)
  columns := c.columns.map (SelectColumn.renumber ν)
  having := c.having.map fun x => (x.1.renumber ν, x.2)
  sorts := c.sorts.map (SortRequest.renumber ν)
  limit := c.limit
  active := c.active

theorem hasColumn_transfers {scopes scopes' : Scopes} (h : Scopes.Transfers T scopes scopes') (v : Variable) :
    (scopes'.any fun scope => scope.relations.any fun r => (r.columnOf? (v.renumber T.number)).isSome) =
      scopes.any fun scope => scope.relations.any fun r => (r.columnOf? v).isSome := by
  induction h with
  | nil => rfl
  | cons hscope _ ih =>
    simp only [List.any_cons, ih, hscope.relations, List.any_map, Function.comp_def,
      RelationInfo.columnOf?_renumber, Option.isSome_map]

theorem named_renumber (columns : List SelectColumn) (key : String) :
    ((columns.map (SelectColumn.renumber T.number)).zipIdx.filter fun (c, _) => c.name == some key) =
      (columns.zipIdx.filter fun (c, _) => c.name == some key).map fun p => (p.1.renumber T.number, p.2) := by
  rw [List.zipIdx_map, List.filter_map]
  rfl

theorem outputNamed_transfers (columns : List SelectColumn) (name : Name) :
    Step.Transfers T count g (fun p => p) (outputNamed columns name)
      (outputNamed (columns.map (SelectColumn.renumber T.number)) (name.respell T.spell)) := by
  unfold outputNamed
  rw [Name.span_respell]
  refine .bind name.objectKey_transfers fun key => ?_
  rw [named_renumber]
  generalize columns.zipIdx.filter _ = named
  cases named with
  | nil => exact .pure rfl
  | cons first rest =>
    simp only [List.map_cons, List.all_map, Function.comp_def, SelectColumn.renumber, Scalar.same_renumber]
    exact .ite (.pure rfl) (.fail _ _ _)

theorem optional_transfers {α' : Type} {r : α → α'} {step : α → Step σ β} {step' : α' → Step σ β'}
    (o : Option α) (h : ∀ x ∈ o, Step.Transfers T count g f (step x) (step' (r x))) :
    Step.Transfers T count g (Option.map f) (optional step o) (optional step' (o.map r)) := by
  cases o with
  | none => exact .pure rfl
  | some x => exact .bind (h x rfl) fun _ => .pure rfl

theorem itemName_respell (label : Option Identifier) (e : Expr Q) :
    itemName env.options (label.map T.spell) (e.respell T.spell) = itemName env.options label e := by
  cases label with
  | some label => exact congrArg some (T.spelling.key_spell label)
  | none =>
    cases e with
    | reference name =>
      simp only [Option.map_none, itemName, Expr.respell, Name.last?_respell, Option.map_map, Function.comp_def,
        T.spelling.key_spell]
    | call name quantifier arguments => cases arguments <;> rfl
    | _ => rfl

theorem isExpr_respell (f : Identifier → Identifier) (item : SelectItem (Expr Q)) :
    isExpr (item.respell f) = isExpr item := by
  cases item <;> rfl

/-- A block in two runs: the same relations with other numbers, inside of scopes that correspond. -/
structure Transfers {o : Options} (T : Transfer o) (b b' : Block) : Prop where
  relations : b'.relations = b.relations.map (RelationInfo.renumber T.number)
  outer : Scopes.Transfers T b.outer b'.outer

namespace Transfers

variable {b b' : Block} (h : Transfers T b b')
include h

theorem scope : Scope.Transfers T b.scope b'.scope := ⟨h.relations, fun _ _ => rfl⟩

theorem scopes : Scopes.Transfers T b.scopes b'.scopes := .cons h.scope h.outer

theorem locals : b'.locals = b.locals.map (Variable.renumber T.number) := by
  simp only [Block.locals, h.relations, List.flatMap_map, List.map_flatMap, RelationInfo.carriers_renumber]

theorem columnOf? (v : Variable) :
    b'.columnOf? (v.renumber T.number) = (b.columnOf? v).map (ColumnInfo.renumber T.number) := by
  rw [Block.columnOf?, h.relations, List.findSome?_map, Block.columnOf?, List.map_findSome?]
  congr 1
  funext r
  exact r.columnOf?_renumber v

theorem isOuter (v : Variable) : b'.isOuter (v.renumber T.number) = b.isOuter v := by
  rw [Block.isOuter, h.locals, Variable.isIn_renumber, hasColumn_transfers h.outer, Block.isOuter]

theorem isPassable (v : Variable) : b'.isPassable (v.renumber T.number) = b.isPassable v := by
  rw [Block.isPassable, h.isOuter, Variable.isStream_renumber, Block.isPassable]

theorem predicate (clause : String) (e : Expr Q) (he : T.AllowsAll e.mentions) :
    Analysis.Transfers T (Typed.renumber T.number) (b.predicate clause e)
      (b'.predicate clause (e.respell T.spell)) := by
  unfold Block.predicate
  rw [Expr.span?_respell]
  exact .bind (e.transfers h.scopes he none) fun _ => .ite (.fail _ _ _) (.pure rfl)

theorem whereCondition (e : Expr Q) (he : T.AllowsAll e.mentions) :
    Analysis.Transfers T (Scalar.renumber T.number) (b.whereCondition e)
      (b'.whereCondition (e.respell T.spell)) := by
  unfold Block.whereCondition
  rw [Expr.span?_respell]
  exact .bind (h.predicate "WHERE" e he) fun _ => .ite (.fail _ _ _) (.pure rfl)

theorem groupKey (e : Expr Q) :
    Analysis.Transfers T (Variable.renumber T.number) (b.groupKey e) (b'.groupKey (e.respell T.spell)) := by
  have hother : Analysis.Transfers T (Variable.renumber T.number)
      (Step.fail .unsupportedFeature e.span? "GROUP BY keys must be column references")
      (Step.fail .unsupportedFeature (e.respell T.spell).span? "GROUP BY keys must be column references") := by
    rw [Expr.span?_respell]
    exact .fail _ _ _
  cases e with
  | reference name =>
    unfold Block.groupKey Expr.respell
    dsimp only
    rw [Name.span_respell]
    refine .bind (name.resolveVariable_transfers h.scopes) fun r => ?_
    cases r with
    | column c =>
      simp only [ResolvedVariable.renumber, ColumnInfo.renumber, h.locals, Variable.isIn_renumber]
      exact .ite (.pure rfl) (.failText fun hw => by rw [hw.respell])
    | external v t => exact .failText fun hw => by rw [hw.respell]
  | call name quantifier arguments => cases arguments <;> exact hother
  | _ => exact hother

theorem asterisk : Step.Transfers T count g (List.map (SelectColumn.renumber T.number)) b.asterisk b'.asterisk := by
  unfold Block.asterisk
  simp only [h.relations, List.isEmpty_map, List.flatMap_map, RelationInfo.exportedColumns_renumber]
  refine .ite (.fail _ _ _) (.pure ?_)
  simp only [List.map_flatMap, List.map_map]
  rfl

theorem qualifiedAsterisk (name : Name) : Step.Transfers T count g (List.map (SelectColumn.renumber T.number))
    (b.qualifiedAsterisk name) (b'.qualifiedAsterisk (name.respell T.spell)) := by
  unfold Block.qualifiedAsterisk
  rw [Name.span_respell]
  refine .bind name.objectKey_transfers fun key => ?_
  rw [h.scope.relationsCalled]
  match b.scope.relationsCalled key with
  | [] | _ :: _ :: _ => exact .fail _ _ _
  | [r] =>
    refine .pure ?_
    rw [RelationInfo.exportedColumns_renumber, List.map_map, List.map_map]
    rfl

theorem selectItem (item : SelectItem (Expr Q)) (he : ∀ e, item.expr? = some e → T.AllowsAll e.mentions) :
    Analysis.Transfers T (fun p => (p.1.map (SelectColumn.renumber T.number), p.2)) (b.selectItem item)
      (b'.selectItem (item.respell T.spell)) := by
  match item with
  | .asterisk none => exact .bind h.asterisk fun _ => .pure rfl
  | .asterisk (some name) => exact .bind (h.qualifiedAsterisk name) fun _ => .pure rfl
  | .expr e label =>
    refine .options (.bind (e.transfers h.scopes (he e rfl) none) fun x => .pure ?_)
    have hsource : (do (← b'.columnOf? (← (x.expr.renumber T.number).asVariable?)).source) =
        (do (← b.columnOf? (← x.expr.asVariable?)).source) := by
      rw [Scalar.asVariable?_renumber]
      cases x.expr.asVariable? with
      | none => rfl
      | some v =>
        simp only [Option.map_some, Option.bind_eq_bind, Option.bind_some, h.columnOf?]
        cases b.columnOf? v <;> rfl
    simp only [Typed.renumber, hsource, itemName_respell, Expr.span?_respell]
    rfl

theorem sortExpr (e : Expr Q) (he : T.AllowsAll e.mentions) :
    Analysis.Transfers T (fun p => (p.1.renumber T.number, p.2)) (b.sortExpr e) (b'.sortExpr (e.respell T.spell)) :=
  .bind (e.transfers h.scopes he none) fun _ => .pure rfl

theorem sortTarget (columns : List SelectColumn) (e : Expr Q) (he : T.AllowsAll e.mentions) :
    Analysis.Transfers T (fun p => (p.1.renumber T.number, p.2)) (b.sortTarget columns e)
      (b'.sortTarget (columns.map (SelectColumn.renumber T.number)) (e.respell T.spell)) := by
  have hexpr := h.sortExpr e he
  cases e with
  | reference name =>
    obtain ⟨segments⟩ := name
    rcases segments with _ | ⟨i, _ | ⟨_, rest⟩⟩
    · exact hexpr
    · refine .bind (outputNamed_transfers columns ⟨[i]⟩) fun position => ?_
      cases position with
      | some position => exact .pure rfl
      | none => exact hexpr
    · exact hexpr
  | literal l =>
    cases l with
    | exact negative digits =>
      unfold Block.sortTarget Expr.respell
      dsimp only
      rw [List.length_map]
      split
      · exact .ite (.fail _ _ _) (.pure rfl)
      · exact .fail _ _ _
    | _ => exact hexpr
  | call name quantifier arguments => cases arguments <;> exact hexpr
  | _ => exact hexpr

theorem sortRequest (columns : List SelectColumn) (item : SortItem (Expr Q)) (he : T.AllowsAll item.key.mentions) :
    Analysis.Transfers T (fun p => (p.1.renumber T.number, p.2)) (b.sortRequest columns item)
      (b'.sortRequest (columns.map (SelectColumn.renumber T.number)) (item.respell T.spell)) := by
  refine .bind (h.sortTarget columns item.key he) fun _ => .pure ?_
  rw [SortItem.respell, Expr.span?_respell]
  rfl

theorem limitCount (e : Expr Q) (he : T.AllowsAll e.mentions) :
    Analysis.Transfers T (fun n => n) (b.limitCount e) (b'.limitCount (e.respell T.spell)) := by
  unfold Block.limitCount
  rw [Expr.span?_respell]
  refine .bind (e.transfers h.scopes he none) fun x => .ite (.fail _ _ _) ?_
  simp only [Typed.renumber, Scalar.foldInteger_renumber]
  split
  · exact .fail _ _ _
  · exact .pure rfl
  · exact .fail _ _ _

theorem clauses (c : SelectClauses (Expr Q)) (hc : T.AllowsAll (c.exprs.flatMap Expr.mentions)) :
    Analysis.Transfers T (Clauses.renumber T.number) (b.clauses c) (b'.clauses (c.respell T.spell)) := by
  have he : ∀ e ∈ c.exprs, T.AllowsAll e.mentions := fun e he x hx =>
    hc x (List.mem_flatMap.mpr ⟨e, he, hx⟩)
  refine .bind (.collect c.groupBy fun e _ => h.groupKey e) fun keys => ?_
  refine .bind (.collect c.items fun item hitem => h.selectItem item fun e hmem => he e ?_) fun items => ?_
  · exact SelectClauses.mem_exprs.mpr (.inl ⟨item, hitem, hmem⟩)
  refine .bind (optional_transfers c.having fun e hmem => h.predicate "HAVING" e (he e ?_)) fun having => ?_
  · exact SelectClauses.mem_exprs.mpr (.inr (.inr (.inr (.inl hmem))))
  have hcolumns : (items.map fun p => (p.1.map (SelectColumn.renumber T.number), p.2)).flatMap (·.1) =
      (items.flatMap (·.1)).map (SelectColumn.renumber T.number) := by
    rw [List.flatMap_map, List.map_flatMap]
  rw [hcolumns]
  refine .bind (.collect c.orderBy fun item hitem => h.sortRequest _ item (he _ ?_)) fun sorts => ?_
  · exact SelectClauses.mem_exprs.mpr (.inr (.inr (.inr (.inr (.inl ⟨item, hitem, rfl⟩)))))
  refine .bind (optional_transfers c.limit fun e hmem => h.limitCount e (he e ?_)) fun limit => .pure ?_
  · exact SelectClauses.mem_exprs.mpr (.inr (.inr (.inr (.inr (.inr hmem)))))
  simp only [Clauses.renumber, SelectClauses.respell, List.isEmpty_map, List.any_map, Option.isSome_map, Option.map_map,
    List.map_map, Option.bind_map, Function.comp_def, Expr.span?_respell]
  cases limit <;> rfl

end Transfers

theorem regroupColumn_transfers (c : SelectColumn) :
    Grouping.Transfers T (SelectColumn.renumber T.number) (regroupColumn c) (regroupColumn (c.renumber T.number)) :=
  .bind (Aggregation.regroup_transfers c.location c.value) fun _ => .pure rfl

theorem regroupCondition_transfers (condition : Scalar × Option Span) :
    Grouping.Transfers T (fun p => (p.1.renumber T.number, p.2)) (regroupCondition condition)
      (regroupCondition (condition.1.renumber T.number, condition.2)) :=
  .bind (Aggregation.regroup_transfers condition.2 condition.1) fun _ => .pure rfl

theorem regroupSort_transfers (s : SortRequest) :
    Grouping.Transfers T (SortRequest.renumber T.number) (regroupSort s) (regroupSort (s.renumber T.number)) := by
  rcases s with ⟨target, order, location⟩
  cases target with
  | output position => exact .pure rfl
  | expr e => exact .bind (Aggregation.regroup_transfers location e) fun _ => .pure rfl

theorem regroup_transfers (c : Clauses) :
    Grouping.Transfers T (Clauses.renumber T.number) (regroup c) (regroup (c.renumber T.number)) :=
  .bind (.both (.collect c.columns fun c _ => regroupColumn_transfers c)
    (.both (optional_transfers c.having fun x _ => regroupCondition_transfers x)
      (.collect c.sorts fun s _ => regroupSort_transfers s)))
    fun _ => .pure rfl

theorem addKeys_renumber (keys : List Variable) (a : Aggregation) :
    (keys.map (Variable.renumber T.number)).foldl Aggregation.addKey (a.renumber T.number) =
      (keys.foldl Aggregation.addKey a).renumber T.number := by
  induction keys generalizing a with
  | nil => rfl
  | cons key keys ih => rw [List.map_cons, List.foldl_cons, Aggregation.addKey_renumber, ih, List.foldl_cons]

namespace Transfers

variable {b b' : Block} (h : Transfers T b b')
include h

theorem group (c : Clauses) (input : Socket) :
    Planning.Transfers T (fun p => (p.1.renumber T.number, T.socket p.2.1, p.2.2.map (Variable.renumber T.number)))
      (b.group c input) (b'.group (c.renumber T.number) (T.socket input)) := by
  unfold Block.group
  rw [h.locals]
  refine .ite ?_ (.pure rfl)
  have hkeys : (c.renumber T.number).keys.foldl Aggregation.addKey
      { locals := b.locals.map (Variable.renumber T.number) } =
        (c.keys.foldl Aggregation.addKey { locals := b.locals }).renumber T.number :=
    addKeys_renumber c.keys { locals := b.locals }
  dsimp only
  rw [hkeys]
  refine .bind (Aggregation.run_transfers _ (regroup_transfers c)) ?_
  rintro ⟨c', a⟩
  refine .bind (a.install_transfers input) fun output => .pure ?_
  rw [Aggregation.outputs_renumber]

theorem projectColumn (used : List Variable) (c : SelectColumn) :
    Analysis.Transfers T (fun p => (p.1.renumber T.number, p.2.map (Scalar.renumberDefinition T.number)))
      (b.projectColumn used c)
      (b'.projectColumn (used.map (Variable.renumber T.number)) (c.renumber T.number)) := by
  unfold Block.projectColumn
  simp only [SelectColumn.renumber, Scalar.asVariable?_renumber]
  cases c.value.asVariable? with
  | none => exact .bind (Analysis.mint_transfers _) fun v => .pure rfl
  | some v =>
    simp only [Option.map_some, h.isPassable, Variable.isIn_renumber]
    exact .ite (.pure rfl) (.bind (Analysis.mint_transfers _) fun v => .pure rfl)

theorem projectColumns (used : List Variable) (cs : List SelectColumn) :
    Analysis.Transfers T
      (fun p => (p.1.map (ColumnInfo.renumber T.number), p.2.map (Scalar.renumberDefinition T.number)))
      (b.projectColumns used cs)
      (b'.projectColumns (used.map (Variable.renumber T.number)) (cs.map (SelectColumn.renumber T.number))) := by
  induction cs generalizing used with
  | nil => exact .pure rfl
  | cons c cs ih =>
    refine .bind (h.projectColumn used c) ?_
    rintro ⟨info, computed⟩
    refine .bind (ih (info.carrier :: used)) ?_
    rintro ⟨columns, more⟩
    refine .pure ?_
    cases computed <;> rfl

end Transfers

theorem sortColumn_transfers (distinct : Bool) (columns : List ColumnInfo) (available : List Variable)
    (s : SortRequest) (hs : ∀ i, s.target = .output i → i < columns.length) :
    Analysis.Transfers T (fun p => (p.1.renumber T.number, p.2.map (Scalar.renumberDefinition T.number)))
      (sortColumn distinct columns available s)
      (sortColumn distinct (columns.map (ColumnInfo.renumber T.number)) (available.map (Variable.renumber T.number))
        (s.renumber T.number)) := by
  rcases s with ⟨target, order, location⟩
  cases target with
  | output position =>
    -- beyond the columns there is only the default, which keeps its number
    have hlt : position < columns.length := hs position rfl
    refine .pure ?_
    rw [List.getElem?_map, List.getElem?_eq_getElem hlt]
    rfl
  | expr e =>
    have hcarriers : (columns.map (ColumnInfo.renumber T.number)).map (·.carrier) =
        (columns.map (·.carrier)).map (Variable.renumber T.number) := by
      rw [List.map_map, List.map_map]
      rfl
    unfold sortColumn
    simp only [SortRequest.renumber, SortTarget.renumber, Scalar.asVariable?_renumber, hcarriers]
    cases e.asVariable? with
    | none => exact .ite (.fail _ _ _) (.bind (Analysis.mint_transfers _) fun _ => .pure rfl)
    | some v =>
      simp only [Option.map_some, Variable.isIn_renumber]
      refine .ite (.pure rfl) (.ite (.fail _ _ _) (.ite (.pure rfl) ?_))
      exact .bind (Analysis.mint_transfers _) fun _ => .pure rfl

theorem sortColumns_transfers (distinct : Bool) (columns : List ColumnInfo) (available : List Variable)
    (sorts : List SortRequest) (hsorts : ∀ s ∈ sorts, ∀ i, s.target = .output i → i < columns.length) :
    Analysis.Transfers T
      (fun p => (p.1.map (SortKey.renumber T.number), p.2.map (Scalar.renumberDefinition T.number)))
      (sortColumns distinct columns available sorts)
      (sortColumns distinct (columns.map (ColumnInfo.renumber T.number)) (available.map (Variable.renumber T.number))
        (sorts.map (SortRequest.renumber T.number))) := by
  induction sorts with
  | nil => exact .pure rfl
  | cons s sorts ih =>
    obtain ⟨hs, hsorts⟩ := List.forall_mem_cons.mp hsorts
    refine .bind (sortColumn_transfers distinct columns available s hs) ?_
    rintro ⟨v, computed⟩
    refine .bind (ih hsorts) ?_
    rintro ⟨keys, more⟩
    refine .pure ?_
    cases computed <;> rfl

theorem plan_transfers {outer outer' : Scopes} (hscopes : Scopes.Transfers T outer outer') (source : Source)
    (c : SelectClauses (Expr Q)) (hc : T.AllowsAll (c.exprs.flatMap Expr.mentions)) :
    Planning.Transfers T T.planned (plan outer source c) (plan outer' (T.source source) (c.respell T.spell)) := by
  let b : Block := ⟨source.relations, outer⟩
  have hb : b.Transfers T ⟨(T.source source).relations, outer'⟩ := ⟨rfl, hscopes⟩
  have hitems : (c.respell T.spell).items.any isExpr = c.items.any isExpr := by
    simp only [SelectClauses.respell, List.any_map, Function.comp_def, isExpr_respell]
  have hwhere : ∀ e ∈ c.condition, T.AllowsAll e.mentions := fun e he x hx =>
    hc x (List.mem_flatMap.mpr ⟨e, SelectClauses.mem_exprs.mpr (.inr (.inl he)), hx⟩)
  unfold plan
  rw [hitems]
  refine .bind (Planning.lift_transfers
    (optional_transfers c.condition fun e he => hb.whereCondition e (hwhere e he))) fun condition => ?_
  refine .bind (addFilter_transfers condition source.output) fun output => ?_
  refine .bind_of_ok (Planning.lift_transfers (hb.clauses c hc)) fun cl d d' hcl => ?_
  have hresolved := (clauses_ok (Planning.lift_ok.mp hcl).1).2
  refine .bind_of_ok (hb.group cl output) ?_
  rintro ⟨cl, output, available⟩ d d' hgroup
  have hrange := (group_keeps hgroup).inRange hresolved.inRange
  have hhaving : (cl.renumber T.number).having.map (·.1) = (cl.having.map (·.1)).map (Scalar.renumber T.number) := by
    simp only [Clauses.renumber, Option.map_map]
    rfl
  dsimp only
  rw [hhaving]
  refine .bind (addFilter_transfers _ output) fun output => ?_
  refine .bind_of_ok (Planning.lift_transfers (hb.projectColumns [] cl.columns)) ?_
  rintro ⟨columns, computed⟩ d d' hcolumns
  have hlength := projectColumns_length (Planning.lift_ok.mp hcolumns).1
  have hsorts : ∀ s ∈ cl.sorts, ∀ i, s.target = .output i → i < columns.length := by
    rw [hlength]
    exact hrange
  refine .bind (Planning.lift_transfers (sortColumns_transfers _ columns available cl.sorts hsorts)) ?_
  rintro ⟨sortKeys, more⟩
  have hcarriers : ({ columns := columns.map (ColumnInfo.renumber T.number) } : RelationInfo).carriers =
      ({ columns } : RelationInfo).carriers.map (Variable.renumber T.number) :=
    RelationInfo.carriers_renumber { columns }
  dsimp only
  rw [← List.map_append, List.isEmpty_map, List.isEmpty_map, hcarriers]
  refine .bind (addIf_transfers _ (.project (computed ++ more)) output) fun output => ?_
  refine .bind (addIf_transfers _ (.distinct ({ columns } : RelationInfo).carriers) output) fun output => ?_
  exact .bind (addIf_transfers _ (.limit cl.limit sortKeys) output) fun output => .pure rfl

end Block

end SqlPlan
