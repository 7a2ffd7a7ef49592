import SqlPlan.Proofs.CreatedTables
import SqlPlan.Proofs.ExactNumbers
import SqlPlan.Proofs.WrittenConstants

namespace SqlPlan

open List (Forall₂)

variable {Q : Type} {env : Environment}

/-- Whether a value is of a type: a number by the numbers of the type, a string by its kind and length. -/
inductive Value.Fits : Value → SqlType → Prop where
  | null (t : SqlType) : Fits .null t
  | boolean (b : Bool) : Fits (.boolean b) .boolean
  | integer {w : IntWidth} {n : Int} {t : SqlType} : t.Represents n → Fits (.integer w n) t
  | decimal {d : Decimal} {t : SqlType} : t.Represents d.number → Fits (.decimal d) t
  | real (bits : UInt32) : Fits (.real bits) .real
  | double (bits : UInt64) : Fits (.double bits) .double
  | character {text : String} {varying : Bool} {length : Option Nat} :
      SqlType.LengthLe (some text.length) length → Fits (.character text) (.string .character varying length)
  | octet {bytes : List UInt8} {varying : Bool} {length : Option Nat} :
      SqlType.LengthLe (some bytes.length) length → Fits (.octet bytes) (.string .octet varying length)
  | bit {bits : List Bool} {varying : Bool} {length : Option Nat} :
      SqlType.LengthLe (some bits.length) length → Fits (.bit bits) (.string .bit varying length)
  | date (d : Date) : Fits (.date d) .date
  | time (t : TimeOfDay) : Fits (.time t) (.time false)
  | zonedTime (t : TimeOfDay) (zone : ZoneOffset) : Fits (.zonedTime t zone) (.time true)
  | timestamp (p : TimePoint) : Fits (.timestamp p) (.timestamp false)
  | zonedTimestamp (z : ZonedPoint) : Fits (.zonedTimestamp z) (.timestamp true)

/-- The second type has all values of the first one. -/
inductive SqlType.Extends : SqlType → SqlType → Prop where
  | refl (a : SqlType) : Extends a a
  | exact {a b : SqlType} : a.Ranged → b.Ranged → Widens a b → Extends a b
  | string (k : StringKind) {v w : Bool} {m n : Option Nat} : LengthLe m n →
      Extends (.string k v m) (.string k w n)

theorem Value.Fits.extend {v : Value} {a b : SqlType} (h : v.Fits a) (hab : a.Extends b) : v.Fits b := by
  cases hab with
  | refl => exact h
  | exact ha hb hwidens =>
    cases h with
    | null => exact .null b
    | integer h => exact .integer (h.widen ha hb hwidens)
    | decimal h => exact .decimal (h.widen ha hb hwidens)
    | _ => exact ha.elim
  | string k hle =>
    cases h with
    | null => exact .null _
    | character hlength => exact .character (hlength.trans hle)
    | octet hlength => exact .octet (hlength.trans hle)
    | bit hlength => exact .bit (hlength.trans hle)
    | integer h | decimal h => exact h.elim

namespace Literal

variable {o : Options} {v : Value} {t : SqlType}

theorem holds_integerWidth {n : Int} (h : IntWidth.w64.Holds n) (small : Bool) : (integerWidth small n).Holds n := by
  cases small with
  | true => exact (integerWidth_true h).1
  | false =>
    rw [integerWidth_false]
    split
    · assumption
    · exact h

theorem exactConstant_fits {negative : Bool} {text : String} (h : exactConstant o negative text = .ok (v, t)) :
    v.Fits t := by
  rcases hnumeral : numeral? text with _ | ⟨whole, fraction⟩
  · simp [exactConstant, hnumeral] at h
  · obtain ⟨k, hk, -⟩ := exists_spells hnumeral
    rw [exactConstant_of_spells negative hk] at h
    split_ifs at h with _ hint hsmall
    · cases h
      exact .integer ⟨_, rfl, holds_integerWidth hint.2 _⟩
    · cases h
      exact .decimal (number_decimal k negative ▸ k.hasDigits negative)
    · cases h
      exact .decimal ⟨_, k.scale, number_decimal k negative ▸ k.number_mul negative⟩

theorem bind_eq_ok {ε α β : Type} {x : Except ε α} {f : α → Except ε β} {b : β} :
    x >>= f = .ok b ↔ ∃ a, x = .ok a ∧ f a = .ok b := by
  cases x <;> simp [bind, Except.bind]

theorem temporalValue_fits {zone : Option ZoneOffset} {kind : TemporalKind} {cs : List Char}
    (h : temporalValue zone kind cs = .ok (v, t)) : v.Fits t ∧ t.isExact = false := by
  cases kind with
  | date =>
    obtain ⟨d, -, hpair⟩ := bind_eq_ok.mp h
    cases hpair
    exact ⟨.date d, rfl⟩
  | time zoned =>
    cases zoned with
    | false =>
      obtain ⟨⟨time, zone⟩, -, h⟩ := bind_eq_ok.mp h
      dsimp only at h
      split at h <;> cases h
      exact ⟨.time time, rfl⟩
    | true =>
      obtain ⟨⟨time, zone⟩, -, h⟩ := bind_eq_ok.mp h
      obtain ⟨zone, -, hpair⟩ := bind_eq_ok.mp h
      cases hpair
      exact ⟨.zonedTime time zone, rfl⟩
  | timestamp zoned =>
    cases zoned with
    | false =>
      obtain ⟨⟨point, zone⟩, -, h⟩ := bind_eq_ok.mp h
      dsimp only at h
      split at h <;> cases h
      exact ⟨.timestamp point, rfl⟩
    | true =>
      obtain ⟨⟨point, zone⟩, -, h⟩ := bind_eq_ok.mp h
      obtain ⟨zone, -, h⟩ := bind_eq_ok.mp h
      obtain ⟨zoned, -, hpair⟩ := bind_eq_ok.mp h
      cases hpair
      exact ⟨.zonedTimestamp zoned, rfl⟩

theorem constant_fits {l : Literal} (h : l.constant o = .ok (v, t)) :
    v.Fits t ∧ (t.isExact = true → ∃ negative digits, l = .exact negative digits) := by
  cases l with
  | boolean value =>
    cases h
    cases value
    · exact ⟨.boolean true, Bool.noConfusion⟩
    · exact ⟨.boolean false, Bool.noConfusion⟩
    · exact ⟨.null _, Bool.noConfusion⟩
  | exact negative digits => exact ⟨exactConstant_fits h, fun _ => ⟨negative, digits, rfl⟩⟩
  | approximate negative text =>
    simp only [constant, approximateConstant] at h
    split at h <;> cases h
    exact ⟨.double _, Bool.noConfusion⟩
  | character tokens =>
    cases hc : characters tokens <;> simp only [constant, hc] at h <;> cases h
    exact ⟨.character trivial, Bool.noConfusion⟩
  | bit tokens =>
    cases hb : bits tokens <;> simp only [constant, hb] at h <;> cases h
    exact ⟨.bit trivial, Bool.noConfusion⟩
  | octet tokens =>
    cases ho : octets tokens <;> simp only [constant, ho] at h <;> cases h
    exact ⟨.octet trivial, Bool.noConfusion⟩
  | temporal kind token =>
    simp only [constant, temporalConstant] at h
    split at h
    · cases h
    · split at h
      · next heq =>
        cases h
        obtain ⟨hfits, hexact⟩ := temporalValue_fits heq
        exact ⟨hfits, fun h => Bool.noConfusion (hexact.symm.trans h)⟩
      · cases h
      · cases h
  | null => cases h
  | default => cases h

end Literal

/-- Every placeholder is given a value of its type. -/
def Environment.PlaceholdersFit (env : Environment) : Prop :=
  ∀ name v t, env.placeholder? name = some (v, t) → v.Fits t

theorem Expr.Constant.fits {e : Expr Q} {v : Value} {t : SqlType} (hplaceholders : env.PlaceholdersFit)
    (h : e.Constant env v t) : v.Fits t := by
  induction h with
  | literal h | negated _ h => exact (Literal.constant_fits h).1
  | null t => exact .null t
  | placeholder _ h => exact hplaceholders _ _ _ h
  | cast _ _ ih => exact ih

theorem CreateTable.columnDefault_ok {column : String} {type : SqlType} {e : Expr Q} {v : Value} {n m : Nat}
    (h : columnDefault column type e env n = (.ok v, m)) : ∃ t, e.Constant env v t ∧ t.isAssignable type = true := by
  obtain ⟨x, k, hx, h⟩ := Step.bind_ok.mp h
  unfold defaultValue at h
  rcases hconstant : x.expr.constant? with _ | ⟨w, t⟩
  · simp [hconstant] at h
  · simp only [hconstant, Step.ite_ok, Step.fail_ok, and_false, false_or, Step.pure_ok] at h
    obtain ⟨hassignable, rfl, -⟩ := h
    exact ⟨t, Expr.constant_of_resolve e (by simp) hx hconstant, by simpa using hassignable⟩

namespace ColumnDefinition

/-- The constant that the DEFAULT clause is written with is of the type that the column is written with. -/
def DefaultFits (env : Environment) (d : ColumnDefinition (Expr Q)) : Prop :=
  ∀ e ∈ d.default, ∀ v t u, e.Constant env v t → d.dataType.type env.options = .ok u → v.Fits u

namespace Declares

variable {d : ColumnDefinition (Expr Q)} {c : ColumnDecl}

/-- The default is the constant that it is written with, which may not be of the column's type. -/
theorem written (h : d.Declares env c) :
    Option.Rel (fun e v => ∃ t, e.Constant env v t ∧ t.isAssignable c.type = true ∧
      (env.PlaceholdersFit → v.Fits t ∧ (t.Extends c.type → v.Fits c.type))) d.default c.default := by
  have hdefault := h.default
  generalize d.default = written at hdefault ⊢
  generalize c.default = stored at hdefault ⊢
  obtain ⟨n, m, hrun⟩ | _ := hdefault
  · obtain ⟨t, hconstant, hassignable⟩ := CreateTable.columnDefault_ok hrun
    refine .some ⟨t, hconstant, hassignable, fun hplaceholders => ?_⟩
    have hfits := hconstant.fits hplaceholders
    exact ⟨hfits, hfits.extend⟩
  · exact .none

theorem defaultFits_iff (h : d.Declares env c) : d.DefaultFits env ↔ ∀ v ∈ c.default, v.Fits c.type := by
  have hwritten := h.written
  unfold DefaultFits
  generalize d.default = written at hwritten ⊢
  generalize c.default = stored at hwritten ⊢
  obtain ⟨t, hconstant, -⟩ | _ := hwritten
  · simp only [Option.mem_some_iff, forall_eq']
    constructor
    · intro hfits
      exact hfits _ t c.type hconstant h.type
    · intro hfits v t' u hconstant' htype
      cases h.type.symm.trans htype
      rwa [hconstant'.unique hconstant]
  · simp

end Declares

end ColumnDefinition

/-- A default is the constant that it is written with, of a type that unifies with the column's; it is of the
column's type if its own type extends to that. The defaults of a table are all of their columns' types if and
only if the written constants are. -/
theorem Session.createTable_defaults {s s' : Session} {c : CreateTable (Expr Q)} {schema : String}
    {table : TableDecl} {primary : Option IndexDecl}
    (h : s.resolveStatement (.createTable c) = (.ok (.change (.createTable schema table primary)), s')) :
    Forall₂ (fun d column => Option.Rel (fun e v => ∃ t, e.Constant s.environment v t ∧
      t.isAssignable column.type = true ∧ (s.environment.PlaceholdersFit →
        v.Fits t ∧ (t.Extends column.type → v.Fits column.type))) d.default column.default) c.columns table.columns ∧
    ((∀ column ∈ table.columns, ∀ v ∈ column.default, v.Fits column.type) ↔
      ∀ d ∈ c.columns, d.DefaultFits s.environment) := by
  obtain ⟨m, hm⟩ := resolveStatement_ok h
  have hcolumns := (CreateTable.resolve_wellFormed (ofChange_ok hm)).columns
  refine ⟨hcolumns.imp fun _ _ hdeclares => hdeclares.written, ?_, ?_⟩
  · intro hfits d hd
    obtain ⟨column, hcolumn, hdeclares⟩ := exists_of_forall₂ hcolumns.flip d hd
    exact hdeclares.defaultFits_iff.mpr (hfits column hcolumn)
  · intro hfits column hcolumn
    obtain ⟨d, hd, hdeclares⟩ := exists_of_forall₂ hcolumns column hcolumn
    exact hdeclares.defaultFits_iff.mp (hfits d hd)

namespace Sample

/-- `CREATE TABLE x (a BIGINT DEFAULT -300, b VARCHAR(3) DEFAULT CAST('abc' AS VARCHAR(2)))` -/
def wide : CreateTable (Expr Unit) where
  name := ⟨[.regular "x"]⟩
  columns := [
    { name := .regular "a", dataType := .integer .w64,
      default := some (.unary .minus (.literal (.exact false "300"))) },
    { name := .regular "b", dataType := .string .character true (some (.value 3)),
      default := some (.cast (.literal (.character ["'abc'"])) (.string .character true (some (.value 2)))) }]

/-- `CREATE TABLE x (a TINYINT DEFAULT 300, b DECIMAL(3, 1) DEFAULT 12.345, c VARCHAR(2) DEFAULT 'abc')` -/
def narrow : CreateTable (Expr Unit) where
  name := ⟨[.regular "x"]⟩
  columns := [{ name := .regular "a", dataType := .integer .w8, default := some (.literal (.exact false "300")) },
    { name := .regular "b", dataType := .decimal (some (.value 3)) (some (.value 1)),
      default := some (.literal (.exact false "12.345")) },
    { name := .regular "c", dataType := .string .character true (some (.value 2)),
      default := some (.literal (.character ["'abc'"])) }]

def storesDefaults (columns : List (SqlType × Option Value)) : CatalogChange → Bool
  | .createTable _ table _ => decide (table.columns.map (fun c => (c.type, c.default)) = columns)
  | _ => false

theorem exists_storesDefaults {c : CreateTable (Expr Unit)} {columns : List (SqlType × Option Value)}
    (h : twoSchemas.changeMeets (.createTable c) (storesDefaults columns) = true) :
    ∃ schema table primary s', twoSchemas.resolveStatement (.createTable c) =
      (.ok (.change (.createTable schema table primary)), s') ∧
        table.columns.map (fun c => (c.type, c.default)) = columns := by
  obtain ⟨change, s', h, htest⟩ := Session.exists_change _ h
  cases change with
  | createTable schema table primary => exact ⟨schema, table, primary, s', h, of_decide_eq_true htest⟩
  | _ => cases htest

end Sample

/-- The cast in the second clause does not cut the default, which is of the column's type as it is written. -/
theorem Session.createTable_defaults_wide :
    ∃ schema table primary s', Sample.twoSchemas.resolveStatement (.createTable Sample.wide) =
        (.ok (.change (.createTable schema table primary)), s') ∧
      table.columns.map (·.default) = [some (.integer .w32 (-300)), some (.character "abc")] ∧
      ∀ column ∈ table.columns, ∀ v ∈ column.default, v.Fits column.type := by
  obtain ⟨schema, table, primary, s', h, hcolumns⟩ := Sample.exists_storesDefaults
    (show Sample.twoSchemas.changeMeets (.createTable Sample.wide) (Sample.storesDefaults
      [(.int8, some (.integer .w32 (-300))), (.string .character true (some 3), some (.character "abc"))]) = true by
        decide +kernel)
  obtain ⟨-, hfits⟩ := createTable_defaults h
  refine ⟨schema, table, primary, s', h, ?_, hfits.mpr fun d hd e he v t u hconstant htype => ?_⟩
  · have hdefaults := congrArg (List.map Prod.snd) hcolumns
    rwa [List.map_map] at hdefaults
  · simp only [Sample.wide, List.mem_cons, List.not_mem_nil, or_false] at hd
    obtain rfl | rfl := hd
    · cases he
      cases htype
      have hvalue : v = .integer .w32 (-300) := hconstant.unique (.negated rfl rfl)
      exact hvalue ▸ .integer ⟨-300, rfl, by decide⟩
    · cases he
      cases htype
      have hvalue : v = .character "abc" := hconstant.unique (.cast _ (.literal rfl))
      exact hvalue ▸ .character (show "abc".length ≤ 3 by decide)

/-- None of the three defaults is of the type of its column. -/
theorem Session.createTable_defaults_narrow :
    ∃ schema table primary s', Sample.twoSchemas.resolveStatement (.createTable Sample.narrow) =
        (.ok (.change (.createTable schema table primary)), s') ∧
      table.columns.map (fun c => (c.type, c.default)) = [(.int1, some (.integer .w32 300)),
        (.decimal (some 3) (some 1), some (.decimal ⟨12345, 3⟩)),
        (.string .character true (some 2), some (.character "abc"))] ∧
      ∀ column ∈ table.columns, ∀ v ∈ column.default, ¬v.Fits column.type := by
  obtain ⟨schema, table, primary, s', h, hcolumns⟩ := Sample.exists_storesDefaults
    (show Sample.twoSchemas.changeMeets (.createTable Sample.narrow) (Sample.storesDefaults
      [(.int1, some (.integer .w32 300)), (.decimal (some 3) (some 1), some (.decimal ⟨12345, 3⟩)),
        (.string .character true (some 2), some (.character "abc"))]) = true by decide +kernel)
  refine ⟨schema, table, primary, s', h, hcolumns, fun column hcolumn v hv => ?_⟩
  have hmem : (column.type, some v) ∈ table.columns.map fun c => (c.type, c.default) :=
    List.mem_map.mpr ⟨column, hcolumn, by rw [Option.mem_def.mp hv]⟩
  simp only [hcolumns, List.mem_cons, Prod.mk.injEq, Option.some.injEq, List.not_mem_nil, or_false] at hmem
  obtain ⟨htype, rfl⟩ | ⟨htype, rfl⟩ | ⟨htype, rfl⟩ := hmem <;> rw [htype] <;> intro hfits
  · obtain _ | _ | ⟨n, hn, hholds⟩ := hfits
    obtain rfl : n = 300 := by exact_mod_cast hn.symm
    exact absurd hholds (by decide)
  · obtain _ | _ | _ | ⟨n, hn, -⟩ := hfits
    have hscaled : (12345 : ℚ) = 100 * n := by
      rw [← hn, Decimal.number]
      norm_num
    have hint : (12345 : ℤ) = 100 * n := by exact_mod_cast hscaled
    omega
  · cases hfits with
    | character hlength => exact absurd (show "abc".length ≤ 2 from hlength) (by decide)

end SqlPlan
