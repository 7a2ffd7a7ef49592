import SqlPlan.Proofs.ExprTransfer

namespace SqlPlan

variable {Q σ : Type} {count : σ → Nat} {g : σ → σ} {env : Environment} {T : Transfer env.options}
variable {outer outer' scopes scopes' : Scopes}

def Planned.renumber (ν : Nat ↪ Nat) (p : Planned) : Planned := ⟨p.output, p.relation.renumber ν⟩

namespace Transfer

variable {o : Options}

def planned (T : Transfer o) (p : Planned) : Planned := ⟨T.socket p.output, p.relation.renumber T.number⟩

def source (T : Transfer o) (s : Source) : Source :=
  ⟨T.socket s.output, s.relations.map (RelationInfo.renumber T.number)⟩

abbrev correlation? (T : Transfer o) : Option Correlation → Option Correlation :=
  Option.map (Correlation.respell T.spell)

theorem map_key (T : Transfer o) (columns : List Identifier) : (columns.map T.spell).map o.key = columns.map o.key := by
  rw [List.map_map]
  exact List.map_congr_left fun i _ => T.spelling.key_spell i

end Transfer

theorem firstRepeated?_map {α : Type} {key : α → String} {f : α → α} (h : ∀ a, key (f a) = key a)
    (seen : List String) (xs : List α) :
    firstRepeated? key seen (xs.map f) = (firstRepeated? key seen xs).map f := by
  induction xs generalizing seen with
  | nil => rfl
  | cons a xs ih =>
    rw [List.map_cons, firstRepeated?, firstRepeated?, h, ih]
    by_cases hseen : seen.contains (key a) = true
    · rw [if_pos hseen, if_pos hseen]
      rfl
    · rw [if_neg hseen, if_neg hseen]

namespace RelationInfo

theorem renameExported_renumber (names : List String) (cs : List ColumnInfo) :
    renameExported names (cs.map (ColumnInfo.renumber T.number)) =
      (renameExported names cs).map (ColumnInfo.renumber T.number) := by
  induction cs generalizing names with
  | nil => cases names <;> rfl
  | cons c cs ih =>
    cases names with
    | nil => rfl
    | cons name names =>
      rw [List.map_cons, renameExported, renameExported, ih, ih]
      cases h : c.exported <;> simp [ColumnInfo.renumber, h]

theorem renameColumns_transfers (r : RelationInfo) (correlation : Correlation) :
    Step.Transfers T count g (renumber T.number) (r.renameColumns correlation)
      ((r.renumber T.number).renameColumns (correlation.respell T.spell)) := by
  refine .options ?_
  simp only [Correlation.respell, T.spelling.span_spell, T.spelling.key_spell, T.map_key,
    firstRepeated?_map T.spelling.key_spell, List.length_map, List.isEmpty_map, exportedColumns_renumber]
  refine .ite (.pure rfl) (.ite (.fail _ _ _) ?_)
  cases firstRepeated? env.options.key [] correlation.columns with
  | some column =>
    rw [Option.map_some]
    dsimp only
    rw [T.spelling.span_spell, T.spelling.key_spell]
    exact .fail _ _ _
  | none =>
    refine .pure ?_
    simp only [renumber, renameExported_renumber]

theorem correlate_transfers (r : RelationInfo) (correlation : Option Correlation) :
    Step.Transfers T count g (renumber T.number) (r.correlate correlation)
      ((r.renumber T.number).correlate (T.correlation? correlation)) := by
  cases correlation with
  | none => exact .pure rfl
  | some correlation =>
    refine .options (.bind (renameColumns_transfers r correlation) fun _ => .pure ?_)
    rw [Correlation.respell, T.spelling.key_spell]
    rfl

theorem renameColumns_reads (r : RelationInfo) (correlation : Correlation) :
    Step.Reads (r.renameColumns correlation : Step σ RelationInfo) env := by
  refine .bind .options fun o => ?_
  dsimp only
  split
  · exact .pure _
  · split
    · exact .fail _ _ _
    · split
      · exact .fail _ _ _
      · exact .pure _

theorem correlate_reads (r : RelationInfo) (correlation : Option Correlation) :
    Step.Reads (r.correlate correlation : Step σ RelationInfo) env := by
  cases correlation with
  | none => exact .pure _
  | some correlation => exact .bind .options fun o => .bind (renameColumns_reads r correlation) fun _ => .pure _

end RelationInfo

namespace Source

theorem singleRow_transfers : Planning.Transfers T T.source singleRow singleRow :=
  .bind (Planning.add_transfers (.values [] [[]]) []) fun _ => .pure rfl

theorem scanColumn_transfers (ref : ColumnRef) :
    Analysis.Transfers T (fun p => (Variable.renumberPair T.number p.1, p.2.renumber T.number)) (scanColumn ref)
      (scanColumn ref) :=
  .bind (Analysis.mint_transfers _) fun _ => .bind (Analysis.mint_transfers _) fun _ => .pure rfl

theorem scan_transfers (name : Name) (correlation : Option Correlation) :
    Planning.Transfers T T.planned (scan name correlation)
      (scan (name.respell T.spell) (T.correlation? correlation)) := by
  refine .bind name.resolveTable_transfers ?_
  rintro ⟨schema, table⟩
  refine .bind (Planning.lift_transfers (.each_same _ fun ref _ => scanColumn_transfers ref)) fun columns => ?_
  rw [map_fst_map, map_snd_map]
  refine .bind (Planning.add_transfers (.scan _ (columns.map (·.1))) []) fun output => ?_
  exact .bind (RelationInfo.correlate_transfers ⟨columns.map (·.2), _, _, _⟩ correlation) fun _ => .pure rfl

theorem copyColumn_transfers (c : ColumnInfo) :
    Analysis.Transfers T (fun p => (Variable.renumberPair T.number p.1, p.2.renumber T.number)) (copyColumn c)
      (copyColumn (c.renumber T.number)) :=
  .bind (Analysis.mint_transfers _) fun _ => .pure rfl

theorem instantiate_transfers (name : String) (query : NamedQuery) (correlation : Option Correlation) :
    Planning.Transfers T T.planned (instantiate name query correlation)
      (instantiate name (query.renumber T.number) (T.correlation? correlation)) := by
  refine .bind (Planning.lift_transfers (.each query.relation.columns fun c _ => copyColumn_transfers c))
    fun columns => ?_
  rw [map_fst_map, map_snd_map]
  refine .bind (Planning.add_transfers (.subquery query.graph query.output (columns.map (·.1))) []) fun output => ?_
  exact .bind (RelationInfo.correlate_transfers { columns := columns.map (·.2), correlation := _ } correlation)
    fun _ => .pure rfl

theorem named_transfers (hscopes : Scopes.Transfers T outer outer') (name : Name) (hname : T.Allows (.table name))
    (correlation : Option Correlation) :
    Planning.Transfers T T.planned (named outer name correlation)
      (named outer' (name.respell T.spell) (T.correlation? correlation)) := by
  have hscan := scan_transfers (T := T) name correlation
  obtain ⟨segments⟩ := name
  refine .options ?_
  rcases segments with _ | ⟨i, _ | ⟨_, rest⟩⟩
  · exact hscan
  · simp only [Name.respell, List.map_cons, List.map_nil, T.spelling.key_spell, hscopes.named? (hname i rfl)]
    cases outer.named? (env.options.key i) with
    | some query => exact instantiate_transfers _ query correlation
    | none => exact hscan
  · exact hscan

theorem derived_transfers (query : Planned) (correlation : Option Correlation) :
    Planning.Transfers T T.source (derived query correlation)
      (derived (T.planned query) (T.correlation? correlation)) :=
  .bind (RelationInfo.correlate_transfers query.relation correlation) fun _ => .pure rfl

theorem cross_transfers (left right : Source) :
    Planning.Transfers T T.source (cross left right) (cross (T.source left) (T.source right)) := by
  refine .bind (Planning.add_transfers (.join .cross none) [left.output, right.output]) fun output => .pure ?_
  simp only [Transfer.source, List.map_append]

end Source

namespace Join

theorem predicate_transfers (hscopes : Scopes.Transfers T scopes scopes') (condition : Expr Q)
    (h : T.AllowsAll condition.mentions) :
    Analysis.Transfers T (Scalar.renumber T.number) (predicate scopes condition)
      (predicate scopes' (condition.respell T.spell)) := by
  unfold predicate
  rw [Expr.span?_respell]
  exact .bind (condition.transfers hscopes h none) fun x => .ite (.fail _ _ _) (.ite (.fail _ _ _) (.pure rfl))

theorem exportedNamed_renumber (relations : List RelationInfo) (name : String) :
    exportedNamed (relations.map (RelationInfo.renumber T.number)) name =
      (exportedNamed relations name).map fun p => (p.1, p.2.1, p.2.2.renumber T.number) := by
  simp only [exportedNamed, List.zipIdx_map, List.flatMap_map, List.map_flatMap, Prod.map_fst, Prod.map_snd,
    RelationInfo.renumber, List.filter_map, List.map_map]
  rfl

theorem sharedColumn_transfers (relations : List RelationInfo) (name : String) (location : Span) :
    Step.Transfers T count g (fun p => (p.1, p.2.1, p.2.2.renumber T.number)) (sharedColumn relations name location)
      (sharedColumn (relations.map (RelationInfo.renumber T.number)) name location) := by
  rw [sharedColumn, sharedColumn, exportedNamed_renumber]
  match exportedNamed relations name with
  | [] | _ :: _ :: _ => exact .fail _ _ _
  | [_] => exact .pure rfl

theorem sharedPair_transfers (left right : List RelationInfo) (identifier : Identifier) :
    Step.Transfers T count g (fun p => (p.1.renumber T.number, p.2)) (sharedPair left right identifier)
      (sharedPair (left.map (RelationInfo.renumber T.number)) (right.map (RelationInfo.renumber T.number))
        (T.spell identifier)) := by
  refine .options ?_
  dsimp only
  rw [T.spelling.key_spell, T.spelling.span_spell]
  refine .bind (sharedColumn_transfers left _ _) fun l => .bind (sharedColumn_transfers right _ _) fun r => ?_
  exact .ite (.fail _ _ _) (.pure rfl)

theorem hide_renumber (relations : List RelationInfo) (relation column : Nat) :
    hide (relations.map (RelationInfo.renumber T.number)) relation column =
      (hide relations relation column).map (RelationInfo.renumber T.number) := by
  refine modify_map _ (fun r => ?_) _ _
  have hcolumns : (r.columns.map (ColumnInfo.renumber T.number)).modify column (fun c => { c with exported := false }) =
      (r.columns.modify column fun c => { c with exported := false }).map (ColumnInfo.renumber T.number) := by
    refine modify_map _ (fun c => ?_) _ _
    rfl
  exact congrArg (fun columns => { r with columns }) hcolumns

theorem conjunctions_renumber (rest : List (Scalar × Nat × Nat)) (first : Scalar) :
    (rest.map fun p => (p.1.renumber T.number, p.2)).foldl (fun c (equality, _, _) => Scalar.conjunction c equality)
      (first.renumber T.number) =
      (rest.foldl (fun c (equality, _, _) => Scalar.conjunction c equality) first).renumber T.number := by
  induction rest generalizing first with
  | nil => rfl
  | cons p rest ih =>
    rw [List.map_cons, List.foldl_cons, List.foldl_cons, ← ih]
    rfl

theorem hideAll_renumber (pairs : List (Scalar × Nat × Nat)) (relations : List RelationInfo) :
    (pairs.map fun p => (p.1.renumber T.number, p.2)).foldl (fun rs (_, i, j) => hide rs i j)
        (relations.map (RelationInfo.renumber T.number)) =
      (pairs.foldl (fun rs (_, i, j) => hide rs i j) relations).map (RelationInfo.renumber T.number) := by
  induction pairs generalizing relations with
  | nil => rfl
  | cons p pairs ih => simp only [List.map_cons, List.foldl_cons, hide_renumber, ih]

theorem shared_transfers (columns : List Identifier) (left right : List RelationInfo) :
    Step.Transfers T count g (fun p => (p.1.renumber T.number, p.2.map (RelationInfo.renumber T.number)))
      (shared columns left right)
      (shared (columns.map T.spell) (left.map (RelationInfo.renumber T.number))
        (right.map (RelationInfo.renumber T.number))) := by
  refine .bind (.each columns fun i _ => sharedPair_transfers left right i) fun pairs => ?_
  cases pairs with
  | nil => exact .fail _ _ _
  | cons first rest =>
    refine .pure ?_
    rw [hideAll_renumber, conjunctions_renumber]

theorem condition_transfers (hscopes : Scopes.Transfers T scopes scopes') (kind : JoinKind) (left right : Source)
    (on? : Option (JoinCondition (Expr Q))) (h : T.AllowsAll (on?.toList.flatMap JoinCondition.mentions)) :
    Analysis.Transfers T (fun p => (p.1.map (Scalar.renumber T.number), T.source p.2))
      (condition scopes kind left right on?)
      (condition scopes' kind (T.source left) (T.source right) (on?.map (JoinCondition.respell T.spell))) := by
  match on? with
  | none =>
    cases kind with
    | cross => exact .pure rfl
    | _ => exact .fail _ _ _
  | some (.predicate on) =>
    have hon : T.AllowsAll on.mentions := by simpa [JoinCondition.mentions] using h
    cases kind with
    | cross => exact .fail _ _ _
    | _ => exact .bind (predicate_transfers hscopes on hon) fun _ => .pure rfl
  | some (.sharedColumns columns) =>
    cases kind with
    | cross => exact .fail _ _ _
    | _ => exact .bind (shared_transfers columns left.relations right.relations) fun _ => .pure rfl

theorem plan_transfers (hscopes : Scopes.Transfers T outer outer') (kind : JoinKind) (swapped : Bool)
    (left right : Source) (on? : Option (JoinCondition (Expr Q)))
    (h : T.AllowsAll (on?.toList.flatMap JoinCondition.mentions)) :
    Planning.Transfers T T.source (plan outer kind swapped left right on?)
      (plan outer' kind swapped (T.source left) (T.source right) (on?.map (JoinCondition.respell T.spell))) := by
  have hscope : Scope.Transfers T (scope left right) (scope (T.source left) (T.source right)) :=
    ⟨List.map_append.symm, fun _ _ => rfl⟩
  refine .bind (Planning.lift_transfers (condition_transfers (.cons hscope hscopes) kind left right on? h)) ?_
  rintro ⟨c, right⟩
  have hinputs : (if swapped then [(T.source right).output, (T.source left).output]
      else [(T.source left).output, (T.source right).output]) =
        (if swapped then [right.output, left.output] else [left.output, right.output]).map T.socket := by
    cases swapped <;> rfl
  dsimp only [add]
  rw [hinputs]
  refine .bind (Planning.add_transfers (.join kind c) _) fun output => .pure ?_
  simp only [Transfer.source, List.map_append]

end Join

namespace Apply

theorem argument_transfers (hscopes : Scopes.Transfers T scopes scopes') (candidates : List FunctionDecl)
    (position : Nat) (e : Expr Q) (h : T.AllowsAll e.mentions) :
    Analysis.Transfers T (Typed.renumber T.number) (argument scopes candidates position e)
      (argument scopes' candidates position (e.respell T.spell)) := by
  unfold argument
  rw [Expr.span?_respell]
  exact .bind (e.transfers hscopes h _) fun _ => .ite (.fail _ _ _) (.pure rfl)

theorem resultColumns_transfers (function : Name) (decl : FunctionDecl) :
    Analysis.Transfers T (fun columns => columns) (resultColumns function decl)
      (resultColumns (function.respell T.spell) decl) := by
  unfold resultColumns
  rw [Name.span_respell]
  dsimp only
  split
  · exact .ite (.fail _ _ _) (.pure rfl)
  · exact .fail _ _ _

theorem resultColumn_transfers (column : String × SqlType) :
    Analysis.Transfers T (ColumnInfo.renumber T.number) (resultColumn column) (resultColumn column) :=
  .bind (Analysis.mint_transfers _) fun _ => .pure rfl

theorem placed_renumber (columns : List ColumnInfo) :
    ((columns.map (ColumnInfo.renumber T.number)).zipIdx.map fun (c, i) => (i, c.carrier)) =
      (columns.zipIdx.map fun (c, i) => (i, c.carrier)).map fun p => (p.1, p.2.renumber T.number) := by
  rw [List.zipIdx_map, List.map_map, List.map_map]
  rfl

theorem plan_transfers (hscopes : Scopes.Transfers T outer outer') (kind : ApplyKind) (operand : Source)
    (function : Name) (arguments : List (Expr Q)) (correlation : Option Correlation) (hpath : T.further = [])
    (h : T.AllowsAll (arguments.flatMap Expr.mentions)) :
    Planning.Transfers T T.source (plan outer kind operand function arguments correlation)
      (plan outer' kind (T.source operand) (function.respell T.spell) (arguments.map (Expr.respell T.spell))
        (T.correlation? correlation)) := by
  have hcandidates : Planning.Transfers T (fun found => found) (candidates function arguments.length)
      (candidates (function.respell T.spell) arguments.length) := by
    unfold candidates
    rw [Name.span_respell]
    refine .bind (.reads_of_nil hpath (function.resolveFunctions_reads _) fun d =>
      Step.bind_congr (function.lookUp_respell T.spelling _ _ _ d) _) fun found => ?_
    exact .ite (.failText fun hw => by rw [hw.respell]) (.pure rfl)
  unfold plan
  rw [List.length_map]
  refine .bind hcandidates ?_
  rintro ⟨key, candidates⟩
  unfold Apply.arguments add
  rw [Name.span_respell, List.zipIdx_map]
  have hscope : Scopes.Transfers T ({ relations := operand.relations } :: outer) _ :=
    .cons (.ofRelations operand.relations) hscopes
  refine .bind (Planning.lift_transfers (.collect (f := Typed.renumber T.number) arguments.zipIdx fun p hp => ?_))
    fun xs => ?_
  · refine argument_transfers hscope _ p.2 p.1 fun x hx => ?_
    exact h x (List.mem_flatMap.mpr ⟨p.1, List.fst_mem_of_mem_zipIdx hp, hx⟩)
  rw [Form.renumber_types, Form.renumber_exprs]
  refine .bind (Overload.select_compares _ _ _ _) fun decl => ?_
  refine .bind (Planning.lift_transfers (resultColumns_transfers function decl)) fun fields => ?_
  refine .bind (Planning.lift_transfers (.each_same fields fun c _ => resultColumn_transfers c)) fun columns => ?_
  dsimp only
  rw [placed_renumber]
  refine .bind (Planning.add_transfers (.apply kind decl (xs.map (·.expr)) _) [operand.output]) fun output => ?_
  refine .bind (RelationInfo.correlate_transfers { columns, correlation := _ } correlation) fun info => .pure ?_
  simp only [Transfer.source, List.map_append, List.map_cons, List.map_nil]

end Apply

namespace SetOperation

def renumberPair (ν : Nat ↪ Nat) (p : ColumnInfo × ColumnInfo) : ColumnInfo × ColumnInfo :=
  (p.1.renumber ν, p.2.renumber ν)

theorem pairs_transfers (op : SetOperator) (left right : Planned) :
    Step.Transfers T count g (List.map (renumberPair T.number)) (pairs op left right)
      (pairs op (T.planned left) (T.planned right)) := by
  unfold pairs
  simp only [Transfer.planned, RelationInfo.exportedColumns_renumber, List.length_map, List.zip_map]
  exact .ite (.fail _ _ _) (.pure rfl)

theorem columnType_transfers (op : SetOperator) (p : (ColumnInfo × ColumnInfo) × Nat) :
    Step.Transfers T count g (fun type => type) (columnType op p)
      (columnType op (renumberPair T.number p.1, p.2)) := by
  unfold columnType
  dsimp only [renumberPair, ColumnInfo.renumber]
  cases p.1.1.type.unify p.1.2.type with
  | some type => exact .pure rfl
  | none => exact .fail _ _ _

theorem unionColumn_transfers (p : (ColumnInfo × ColumnInfo) × SqlType) :
    Analysis.Transfers T (fun c => (c.1.renumber T.number, c.2.renumber T.number)) (unionColumn p)
      (unionColumn (renumberPair T.number p.1, p.2)) :=
  .bind (Analysis.mint_transfers _) fun _ => .pure rfl

theorem keys_renumber (pairs : List (ColumnInfo × ColumnInfo)) :
    (pairs.map (renumberPair T.number)).map (fun (l, r) => (l.carrier, r.carrier)) =
      (pairs.map fun (l, r) => (l.carrier, r.carrier)).map (Variable.renumberPair T.number) := by
  rw [List.map_map, List.map_map]
  rfl

theorem kept_renumber (pairs : List (ColumnInfo × ColumnInfo)) (types : List SqlType) :
    (((pairs.map (renumberPair T.number)).zip types).map fun ((l, _), type) => { l with type }) =
      ((pairs.zip types).map fun ((l, _), type) => { l with type }).map (ColumnInfo.renumber T.number) := by
  rw [List.zip_map_left, List.map_map, List.map_map]
  rfl

theorem operator_transfers (op : SetOperator) (quantifier : SetQuantifier) (pairs : List (ColumnInfo × ColumnInfo))
    (types : List SqlType) :
    Analysis.Transfers T (fun p => (p.1.renumber T.number, p.2.map (ColumnInfo.renumber T.number)))
      (operator op quantifier pairs types) (operator op quantifier (pairs.map (renumberPair T.number)) types) := by
  cases op with
  | union =>
    have hzip : (pairs.map (renumberPair T.number)).zip types =
        (pairs.zip types).map fun p => (renumberPair T.number p.1, p.2) :=
      List.zip_map_left
    rw [operator, operator, hzip]
    refine .bind (.each _ fun p _ => unionColumn_transfers p) fun columns => .pure ?_
    rw [map_fst_map, map_snd_map]
    rfl
  | intersect | except =>
    refine .pure ?_
    rw [keys_renumber, kept_renumber]
    rfl

theorem plan_transfers (op : SetOperator) (written : Option SetQuantifier) (left right : Planned) :
    Planning.Transfers T T.planned (plan op written left right)
      (plan op written (T.planned left) (T.planned right)) := by
  refine .bind (pairs_transfers op left right) fun pairs => ?_
  -- the types of the columns stay
  rw [List.zipIdx_map, Step.each_map]
  refine .bind (.each_self pairs.zipIdx fun p _ => columnType_transfers op p) fun types => ?_
  refine .bind (Planning.lift_transfers (operator_transfers op _ pairs types)) ?_
  rintro ⟨operator, columns⟩
  exact .bind (Planning.add_transfers operator [left.output, right.output]) fun output => .pure rfl

end SetOperation

theorem Scalar.renumber_coerce (s : Scalar) (source target : SqlType) :
    (s.coerce source target).renumber T.number = (s.renumber T.number).coerce source target := by
  unfold coerce
  split <;> rfl

namespace Values

theorem cell_transfers (hscopes : Scopes.Transfers T scopes scopes') (e : Expr Q) (h : T.AllowsAll e.mentions) :
    Analysis.Transfers T (Option.map (Typed.renumber T.number)) (cell scopes e)
      (cell scopes' (e.respell T.spell)) := by
  unfold cell
  rw [Expr.isNull_respell]
  exact .ite (.pure rfl) (.bind (e.transfers hscopes h none) fun _ => .pure rfl)

theorem cells_transfers (hscopes : Scopes.Transfers T scopes scopes') (rows : List (List (Expr Q)))
    (h : T.AllowsAll (rows.flatten.flatMap Expr.mentions)) :
    Analysis.Transfers T (List.map (List.map (Option.map (Typed.renumber T.number)))) (cells scopes rows)
      (cells scopes' (rows.map (List.map (Expr.respell T.spell)))) := by
  refine .collect rows fun row hrow => .collect row fun e he => ?_
  refine cell_transfers hscopes e fun x hx => ?_
  exact h x (List.mem_flatMap.mpr ⟨e, List.mem_flatten.mpr ⟨row, hrow, he⟩, hx⟩)

theorem unifyColumn_renumber (position : Nat) (column : List (Option Typed × Option Span)) (type : Option SqlType) :
    (unifyColumn position (column.map fun c => (c.1.map (Typed.renumber T.number), c.2)) type : Step σ _) =
      unifyColumn position column type := by
  induction column generalizing type with
  | nil => rfl
  | cons c column ih =>
    obtain ⟨x, location⟩ := c
    cases x with
    | none => exact ih type
    | some x =>
      cases type with
      | none => exact ih (some x.type)
      | some type =>
        simp only [List.map_cons, Option.map_some, unifyColumn, ih]
        rfl

theorem unifyColumn_transfers (position : Nat) (column : List (Option Typed × Option Span)) (type : Option SqlType) :
    Step.Transfers T count g (fun type => type) (unifyColumn position column type)
      (unifyColumn position column type) := by
  fun_induction unifyColumn position column type with
  | case1 => exact .pure rfl
  | case2 _ _ _ ih | case3 _ _ _ ih | case4 _ _ _ _ _ _ ih => exact ih
  | case5 => exact .fail _ _ _

theorem columnAt_renumber (rows : List (List (Expr Q))) (cells : List (List (Option Typed))) (position : Nat) :
    columnAt (rows.map (List.map (Expr.respell T.spell))) (cells.map (List.map (Option.map (Typed.renumber T.number))))
        position =
      (columnAt rows cells position).map fun c => (c.1.map (Typed.renumber T.number), c.2) := by
  simp only [columnAt, List.zip_map, List.map_map]
  refine List.map_congr_left fun p _ => ?_
  simp only [Function.comp_apply, Prod.map_fst, Prod.map_snd, List.getElem?_map, Option.bind_map, Expr.span?_respell]
  cases p.2[position]? <;> rfl

theorem fill_transfers (p : Option Typed × Option SqlType) :
    Step.Transfers T count g (Typed.renumber T.number) (fill p)
      (fill (p.1.map (Typed.renumber T.number), p.2)) := by
  obtain ⟨x, type⟩ := p
  cases x with
  | some x => exact .pure rfl
  | none => exact Literal.resolve_transfers (fun h => by cases h) _

theorem head_span?_respell (row : List (Expr Q)) :
    (row.map (Expr.respell T.spell)).head?.bind Expr.span? = row.head?.bind Expr.span? := by
  simp only [List.head?_map, Option.bind_map, Function.comp_def, Expr.span?_respell]

theorem arity_transfers (rows : List (List (Expr Q))) :
    Step.Transfers T count g (fun n => n) (arity rows) (arity (rows.map (List.map (Expr.respell T.spell)))) := by
  cases rows with
  | nil => exact .fail _ _ _
  | cons first rest =>
    have hfind : ((first :: rest).map (List.map (Expr.respell T.spell))).zipIdx.find?
        (fun p => p.1.length != (first.map (Expr.respell T.spell)).length) =
          ((first :: rest).zipIdx.find? fun p => p.1.length != first.length).map
            (Prod.map (List.map (Expr.respell T.spell)) id) := by
      simp only [List.zipIdx_map, List.find?_map, Function.comp_def, Prod.map_fst, List.length_map]
    unfold arity
    rw [List.map_cons] at hfind ⊢
    dsimp only
    rw [hfind, List.length_map]
    cases (first :: rest).zipIdx.find? fun p => p.1.length != first.length with
    | none => exact .pure rfl
    | some p =>
      rw [Option.map_some]
      dsimp only [Prod.map]
      rw [head_span?_respell, List.length_map]
      exact .fail _ _ _

theorem rows_transfers (hscopes : Scopes.Transfers T scopes scopes') (source : List (List (Expr Q)))
    (h : T.AllowsAll (source.flatten.flatMap Expr.mentions)) :
    Analysis.Transfers T (fun p => (p.1.map (List.map (Scalar.renumber T.number)), p.2)) (rows scopes source)
      (rows scopes' (source.map (List.map (Expr.respell T.spell)))) := by
  refine .bind (arity_transfers source) fun n => .bind (cells_transfers hscopes source h) fun typed => ?_
  simp only [columnAt_renumber, unifyColumn_renumber]
  refine .bind (.each_self _ fun _ _ => unifyColumn_transfers _ _ _) fun types => ?_
  have hfill : ∀ row : List (Option Typed), Analysis.Transfers T (List.map (Typed.renumber T.number))
      (Step.each fill (row.zip types))
      (Step.each fill ((row.map (Option.map (Typed.renumber T.number))).zip types)) := by
    intro row
    rw [List.zip_map_left]
    exact .each _ fun p _ => fill_transfers p
  rw [Step.each_map]
  refine .bind (.each_same typed fun row _ => hfill row) fun filled => .pure ?_
  simp only [List.map_map, Function.comp_def, List.zip_map_left, Prod.map, id, Scalar.renumber_coerce]
  rfl

theorem column_transfers (type : SqlType) :
    Analysis.Transfers T (ColumnInfo.renumber T.number) (column type) (column type) :=
  .bind (Analysis.mint_transfers _) fun _ => .pure rfl

theorem plan_transfers (hscopes : Scopes.Transfers T outer outer') (source : List (List (Expr Q)))
    (h : T.AllowsAll (source.flatten.flatMap Expr.mentions)) :
    Planning.Transfers T T.planned (plan outer source)
      (plan outer' (source.map (List.map (Expr.respell T.spell)))) := by
  refine .bind (Planning.lift_transfers (rows_transfers hscopes source h)) ?_
  rintro ⟨exprs, types⟩
  refine .bind (Planning.lift_transfers (.each_same types fun type _ => column_transfers type)) fun columns => ?_
  have hcarriers := RelationInfo.carriers_renumber (ν := T.number) { columns }
  simp only [RelationInfo.renumber] at hcarriers
  dsimp only
  rw [hcarriers]
  exact .bind (Planning.add_transfers (.values (RelationInfo.carriers { columns }) exprs) []) fun _ => .pure rfl

end Values

end SqlPlan
