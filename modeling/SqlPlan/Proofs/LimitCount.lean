import Mathlib.Tactic.FieldSimp
import SqlPlan.Proofs.BlockShape
import SqlPlan.Proofs.ColumnDefaults
import SqlPlan.Proofs.Vocabulary

namespace SqlPlan

theorem Decimal.number_of_toInt? {d : Decimal} {limit : Nat} {n : Int} (h : d.toInt? limit = some n) :
    d.number = n := by
  have hpow (k : Nat) : ((powerOfTen k : ℤ) : ℚ) = (10 : ℚ) ^ k := by simp [powerOfTen]
  unfold toInt? at h
  split_ifs at h with hzero _ hscale hdvd
  · cases h
    simpa using number_eq_zero.mpr hzero
  · cases h
    rw [number, Int.cast_mul, hpow, ← zpow_natCast, Int.toNat_of_nonneg (by omega)]
  · cases h
    obtain ⟨q, hq⟩ := Int.dvd_of_emod_eq_zero hdvd
    obtain ⟨k, hk⟩ := Int.eq_ofNat_of_zero_le (by omega : 0 ≤ d.scale)
    have hpos : (powerOfTen d.scale.toNat : ℤ) ≠ 0 := by simp [powerOfTen]
    rw [number, hq, Int.mul_ediv_cancel_left _ hpos, hk, Int.toNat_natCast, Int.cast_mul, hpow, zpow_neg, zpow_natCast]
    field_simp

theorem Value.Fits.represents {v : Value} {t : SqlType} {n : Int} (hv : v.Fits t) (h : v.toInt64? = some n) :
    t.Represents n := by
  cases hv with
  | integer hv =>
    cases h
    exact hv
  | decimal hv =>
    obtain ⟨hn, -⟩ := Option.filter_eq_some_iff.mp h
    rwa [Decimal.number_of_toInt? hn] at hv
  | _ => cases h

namespace Scalar

variable {s : Scalar} {t : SqlType} {n : Int} {P : Scalar → Prop}

theorem every_cast {policy : LossPolicy} : (cast policy t s).Every P ↔ P (cast policy t s) ∧ s.Every P := by
  rw [every_iff]
  simp [children]

theorem every_unary {op : UnaryOperator} : (unary op s).Every P ↔ P (unary op s) ∧ s.Every P := by
  rw [every_iff]
  simp [children]

theorem every_binary {op : BinaryOperator} {l r : Scalar} :
    (binary op l r).Every P ↔ P (binary op l r) ∧ l.Every P ∧ r.Every P := by
  rw [every_iff]
  simp [children]

def constantType? (s : Scalar) : Option SqlType := s.typeIn (fun _ => none) []

/-- Evaluation of an integer expression in the types of its parts. A quotient of integers is truncated, and a
quotient of decimals has to be integral. -/
inductive Evaluates : Scalar → SqlType → Int → Prop where
  | immediate {v : Value} {t : SqlType} {n : Int} : v.toInt64? = some n → t.Represents n →
      Evaluates (.immediate v t) t n
  | cast {policy : LossPolicy} {w : IntWidth} {s : Scalar} {u : SqlType} {n : Int} : Evaluates s u n → w.Holds n →
      Evaluates (.cast policy (.integer w) s) (.integer w) n
  | sign {op : UnaryOperator} {s : Scalar} {t : SqlType} {m n : Int} : Evaluates s t m → op.int64? m = some n →
      t.Represents n → Evaluates (.unary op s) t n
  | arithmetic {op : BinaryOperator} {l r : Scalar} {t u v : SqlType} {m n k : Int} : Evaluates l t m →
      Evaluates r u n → t.unify u = some v → op.int64? m n = some k → v.Represents k →
      (op = .divide → v.isInteger = true ∨ n ∣ m) → Evaluates (.binary op l r) v k

/-- An operation whose folded number is not the one that its type gives it. -/
inductive Deviates : Scalar → Prop where
  | overflow {s : Scalar} {t : SqlType} {n : Int} : s.children ≠ [] → s.constantType? = some t →
      s.foldInteger = some n → ¬t.Represents n → Deviates s
  | quotient {l r : Scalar} {t : SqlType} {m n : Int} : (binary .divide l r).constantType? = some t →
      t.isInteger = false → l.foldInteger = some m → r.foldInteger = some n → ¬n ∣ m →
      Deviates (.binary .divide l r)

theorem type_of_sign {op : UnaryOperator} {m n : Int} (h : op.int64? m = some n) (t : SqlType) : op.type t = t := by
  cases op <;> first | rfl | cases h

theorem type_of_arithmetic {op : BinaryOperator} {m n k : Int} (h : op.int64? m n = some k) (t u : SqlType) :
    op.type t u = t.unify u := by
  cases op <;> first | rfl | cases h

theorem represents_integer {w : IntWidth} : SqlType.Represents (.integer w) n ↔ w.Holds n := by
  simp [SqlType.Represents]

namespace Evaluates

theorem folds (h : s.Evaluates t n) : s.foldInteger = some n ∧ s.constantType? = some t ∧ t.Represents n := by
  induction h with
  | immediate hv ht => exact ⟨hv, rfl, ht⟩
  | cast _ hn ih =>
    obtain ⟨hfold, htype, -⟩ := ih
    exact ⟨by simp [foldInteger, SqlType.isInteger, hfold], by simp_all [constantType?, typeIn],
      represents_integer.mpr hn⟩
  | sign _ hop hn ih =>
    obtain ⟨hfold, htype, -⟩ := ih
    exact ⟨by simp [foldInteger, hfold, hop], by simp_all [constantType?, typeIn, type_of_sign hop], hn⟩
  | arithmetic _ _ hunify hop hk _ ihl ihr =>
    obtain ⟨hl, htl, -⟩ := ihl
    obtain ⟨hr, htr, -⟩ := ihr
    refine ⟨by simp [foldInteger, hl, hr, hop], ?_, hk⟩
    simp_all [constantType?, typeIn, type_of_arithmetic hop]

theorem every (h : s.Evaluates t n) : s.Every fun c => ∃ t n, c.Evaluates t n := by
  induction h with
  | immediate hv ht => exact every_iff.mpr ⟨⟨_, _, .immediate hv ht⟩, by simp [children]⟩
  | cast hs hn ih => exact every_cast.mpr ⟨⟨_, _, .cast hs hn⟩, ih⟩
  | sign hs hop hn ih => exact every_unary.mpr ⟨⟨_, _, .sign hs hop hn⟩, ih⟩
  | arithmetic hl hr hunify hop hk hquotient ihl ihr =>
    exact every_binary.mpr ⟨⟨_, _, .arithmetic hl hr hunify hop hk hquotient⟩, ihl, ihr⟩

theorem not_deviates (h : s.Evaluates t n) : ¬s.Deviates := by
  rintro (⟨-, htype, hfold, hout⟩ | ⟨htype, hdecimal, hl, hr, hdvd⟩)
  · obtain ⟨hfold', htype', ht⟩ := h.folds
    cases hfold.symm.trans hfold'
    cases htype.symm.trans htype'
    exact hout ht
  · obtain ⟨-, htype', -⟩ := h.folds
    cases htype.symm.trans htype'
    cases h with
    | arithmetic hl' hr' _ _ _ hquotient =>
      cases hl.symm.trans hl'.folds.1
      cases hr.symm.trans hr'.folds.1
      rcases hquotient rfl with hinteger | h
      · rw [hdecimal] at hinteger
        cases hinteger
      · exact hdvd h

end Evaluates

theorem represents_of_not_deviates (h : ¬s.Deviates) (hs : s.children ≠ []) (hfold : s.foldInteger = some n)
    (htype : s.constantType? = some t) : t.Represents n :=
  by_contra fun hout => h (.overflow hs htype hfold hout)

theorem evaluates_of_folds (hfits : s.Every fun c => ∀ v u, c = .immediate v u → v.Fits u)
    (hexact : s.Every fun c => ¬c.Deviates) (hfold : s.foldInteger = some n) (htype : s.constantType? = some t) :
    s.Evaluates t n := by
  fun_induction foldInteger s generalizing t n with
  | case1 v u =>
    obtain ⟨hfit, -⟩ := every_iff.mp hfits
    cases htype
    exact .immediate hfold ((hfit v _ rfl).represents hfold)
  | case2 policy target s hinteger ih =>
    obtain ⟨hdev, hexact'⟩ := every_cast.mp hexact
    obtain ⟨-, hfits'⟩ := every_cast.mp hfits
    have hn := represents_of_not_deviates hdev (by simp [children]) (by simpa [foldInteger, hinteger]) htype
    obtain ⟨u, hu, rfl⟩ := Option.map_eq_some_iff.mp htype
    obtain ⟨w, rfl⟩ : ∃ w, target = .integer w := by
      cases target <;> simp_all [SqlType.isInteger]
    exact .cast (ih hfits' hexact' hfold hu) (represents_integer.mp hn)
  | case3 => cases hfold
  | case4 op s ih =>
    obtain ⟨hdev, hexact⟩ := every_unary.mp hexact
    obtain ⟨-, hfits⟩ := every_unary.mp hfits
    have hn := represents_of_not_deviates hdev (by simp [children]) hfold htype
    obtain ⟨m, hm, hop⟩ := Option.bind_eq_some_iff.mp hfold
    obtain ⟨u, hu, rfl⟩ := Option.map_eq_some_iff.mp htype
    rw [type_of_sign hop] at hn ⊢
    exact .sign (ih hfits hexact hm hu) hop hn
  | case5 op l r ihl ihr =>
    obtain ⟨hdev, hexactl, hexactr⟩ := every_binary.mp hexact
    obtain ⟨-, hfitsl, hfitsr⟩ := every_binary.mp hfits
    have hk := represents_of_not_deviates hdev (by simp [children]) hfold htype
    obtain ⟨m, hm, hop⟩ := Option.bind_eq_some_iff.mp hfold
    obtain ⟨k, hk', hop⟩ := Option.bind_eq_some_iff.mp hop
    obtain ⟨u, hu, hunify⟩ := Option.bind_eq_some_iff.mp htype
    obtain ⟨v, hv, hunify⟩ := Option.bind_eq_some_iff.mp hunify
    rw [type_of_arithmetic hop] at hunify
    refine .arithmetic (ihl hfitsl hexactl hm hu) (ihr hfitsr hexactr hk' hv) hunify hop hk ?_
    rintro rfl
    by_contra hnot
    obtain ⟨hdecimal, hdvd⟩ := not_or.mp hnot
    exact hdev (.quotient htype (by simpa using hdecimal) hm hk' hdvd)
  | case6 => cases hfold

/-- Evaluation in the types gives the folded number or none. -/
theorem evaluates_iff (hfits : s.Every fun c => ∀ v u, c = .immediate v u → v.Fits u) (hfold : s.foldInteger = some n)
    (htype : s.constantType? = some t) {u : SqlType} {k : Int} :
    s.Evaluates u k ↔ (u = t ∧ k = n) ∧ s.Every fun c => ¬c.Deviates := by
  constructor
  · intro h
    obtain ⟨hfold', htype', -⟩ := h.folds
    refine ⟨⟨Option.some.inj (htype'.symm.trans htype), Option.some.inj (hfold'.symm.trans hfold)⟩, fun p c hc => ?_⟩
    obtain ⟨_, _, hc⟩ := h.every p c hc
    exact hc.not_deviates
  · rintro ⟨⟨rfl, rfl⟩, hexact⟩
    exact evaluates_of_folds hfits hexact hfold htype

end Scalar

variable {Q : Type} {env : Environment} {scopes : Scopes} {p : Position}

theorem Scalar.foldInteger_test {op : UnaryOperator} (h : op.type .unknown = .boolean) (s : Scalar) (k : Int) :
    (unary op s).foldInteger ≠ some k := by
  intro hk
  obtain ⟨m, -, hop⟩ := Option.bind_eq_some_iff.mp hk
  cases (type_of_sign hop .unknown).symm.trans h

theorem Typed.foldInteger_truth {s : Scalar} (hs : ∀ k, s.foldInteger ≠ some k) (negated aggregated : Bool) (k : Int) :
    (truth s negated aggregated).expr.foldInteger ≠ some k := by
  cases negated with
  | false => exact hs k
  | true => exact Scalar.foldInteger_test rfl s k

theorem Elaborates.constantType?_eq {es : List (Expr Q)} {xs : List Typed} {n m : Nat}
    (h : Elaborates env scopes p es n xs m) :
    ∀ x ∈ xs, ∀ k, x.expr.foldInteger = some k → x.expr.constantType? = some x.type := by
  induction h with
  | nil => simp
  | cons _ _ ih ih' => exact List.forall_mem_cons.mpr ⟨ih _ (by simp), ih'⟩
  | literal _ hx | negated _ _ hx =>
    simp only [List.mem_singleton, forall_eq]
    exact fun _ _ => Literal.hasType hx []
  | hostParameter hx =>
    simp only [List.mem_singleton, forall_eq]
    rcases Form.hostParameter_ok hx with ⟨decl, rfl, _⟩ | ⟨v, t, rfl, _⟩
    · simp [Scalar.foldInteger]
    · exact fun _ _ => rfl
  | sign hsign _ _ ih =>
    simp only [List.mem_singleton, forall_eq] at ih ⊢
    intro k hk
    obtain ⟨m, hm, hop⟩ := Option.bind_eq_some_iff.mp hk
    have ht := ih m hm
    simp only [Scalar.constantType?, Scalar.typeIn] at ht ⊢
    simp [ht, Scalar.type_of_sign hop]
  | arithmetic _ _ hshared ih =>
    simp only [List.forall_mem_cons, List.mem_singleton, forall_eq] at ih ⊢
    intro k hk
    obtain ⟨m, hm, hop⟩ := Option.bind_eq_some_iff.mp hk
    obtain ⟨n, hn, hop⟩ := Option.bind_eq_some_iff.mp hop
    have hl := ih.1 m hm
    have hr := ih.2 n hn
    have hu := hshared.unified
    simp only [List.map_cons, List.map_nil, SqlType.unifyAll_pair] at hu
    simp only [Scalar.constantType?, Scalar.typeIn] at hl hr ⊢
    simp [hl, hr, BinaryOp.type_arithmetic, hu]
  | cast ht _ ih =>
    simp only [List.mem_singleton, forall_eq] at ih ⊢
    intro k hk
    simp only [Scalar.foldInteger] at hk
    split at hk
    · have ht := ih k hk
      simp only [Scalar.constantType?, Scalar.typeIn] at ht ⊢
      simp [ht]
    · cases hk
  | logical hop =>
    rcases hop with ⟨-, rfl⟩ | ⟨-, rfl⟩
    · simp [Scalar.foldInteger, BinaryOperator.int64?]
    · simp [Scalar.foldInteger, BinaryOperator.int64?]
  | concat => simp [Scalar.foldInteger, BinaryOperator.int64?]
  | @test op _ _ _ _ _ hop _ =>
    simp only [List.mem_singleton, forall_eq]
    have hboolean : (Form.unaryTest op).1.type .unknown = .boolean := by
      cases op <;> first | rfl | cases hop
    exact fun k hk => (Typed.foldInteger_truth (Scalar.foldInteger_test hboolean _) _ _ _ hk).elim
  | isTest _ hop _ =>
    simp only [List.mem_singleton, forall_eq]
    have hboolean := Form.type_truthTest hop .unknown
    exact fun k hk => (Typed.foldInteger_truth (Scalar.foldInteger_test hboolean _) _ _ _ hk).elim
  | between | betweenSymmetric | inList | pattern | patternEscape =>
    simp only [List.mem_singleton, forall_eq]
    exact fun k hk => (Typed.foldInteger_truth (by simp [Scalar.foldInteger]) _ _ _ hk).elim
  | searchedCase => simp [Scalar.foldInteger, conditionalOf]
  | _ => simp [Scalar.foldInteger]

def Vocabulary.fitting : Vocabulary where
  types _ := True
  constants v t := v.Fits t
  unknown := trivial
  boolean := trivial
  string _ _ _ := trivial
  unify _ _ _ := trivial
  null _ := .null _
  noEscape := .character trivial

theorem Environment.PlaceholdersFit.ofEnvironment (h : env.PlaceholdersFit) : Vocabulary.fitting.OfEnvironment env where
  literals _ _ _ hl := ⟨(Literal.constant_fits hl).1, trivial⟩
  written _ _ _ := trivial
  hostParameters _ _ _ := trivial
  placeholders key v t hp := ⟨h key v t hp, trivial⟩
  schemas _ _ := by constructor <;> simp [Vocabulary.fitting]

theorem Expr.fits_of_resolve (h : env.PlaceholdersFit) {e : Expr Q} {x : Typed} {n m : Nat}
    (hx : e.resolve scopes none env n = (.ok x, m)) :
    x.expr.Every fun c => ∀ v t, c = .immediate v t → v.Fits t := by
  obtain ⟨hgives, -⟩ := Expr.gives_of_resolve h.ofEnvironment (fun _ _ => trivial) (by simp) hx
  rintro p c hc v t rfl
  exact hgives p _ hc

theorem Block.plan_limit {outer : Scopes} {source : Source} {c : SelectClauses (Expr Q)} {e : Expr Q} {d d' : Draft}
    {p : Planned} (hlimit : c.limit = some e) (h : Block.plan outer source c env d = (.ok p, d')) :
    ∃ (x : Typed) (k k' count : Nat) (keys : List SortKey) (g : Graph) (input : Socket),
      e.resolve ({ relations := source.relations } :: outer) none env k = (.ok x, k') ∧ x.type.isInteger = true ∧
      x.expr.foldInteger = some (count : Int) ∧
      g.addChain input [.limit (some count) keys] = (p.output, d'.graph) := by
  simp only [Block.plan, Step.bind_ok, Planning.lift_ok, Step.pure_ok, Prod.exists] at h
  obtain ⟨_, d₂, -, _, d₃, -, clauses, d₄, ⟨hclauses, -⟩, clauses', _, _, d₅, hgroup, _, _, -, _, _, _, -, keys,
    _, _, -, _, _, -, input, d₆, -, output, _, houtput, rfl, rfl⟩ := h
  simp only [Block.clauses, Step.bind_ok, Step.pure_ok] at hclauses
  obtain ⟨_, _, -, _, _, -, _, _, -, _, k, -, limit, k', hcount, rfl, -⟩ := hclauses
  rw [hlimit] at hcount
  rcases Block.optional_ok hcount with ⟨hnone, -⟩ | ⟨_, count, he, rfl, hcount⟩
  · cases hnone
  cases he
  obtain ⟨x, hx, hinteger, hfold⟩ := Block.limitCount_ok hcount
  have hchain := Block.addIf_chain (f := fun l : Option Nat × List SortKey => Operator.limit l.1 l.2)
    (x := (clauses'.limit, keys)) houtput
  rw [(Block.group_keeps hgroup).limit] at hchain
  exact ⟨x, k, k', count, keys, d₆.graph, input, hx, hinteger, hfold, hchain⟩

/-- The number of rows that a block asks for. The block ends with the limit, and its number is what the LIMIT
expression folds to. Evaluation of the expression in its types gives the same number, unless an operation of the
expression deviates from its type, and then it gives none. If no operation does, the number is in the range of the
expression's type, and so is the number of every cast to an integer type in the expression. -/
theorem Query.plan_limitCount {outer : Scopes} {tables : List (TableRef (Expr Q))} {c : SelectClauses (Expr Q)}
    {e : Expr Q} {d d' : Draft} {p : Planned} (hplaceholders : env.PlaceholdersFit) (hlimit : c.limit = some e)
    (h : (Query.select tables c).plan outer env d = (.ok p, d')) :
    ∃ (source : Source) (d₁ : Draft) (x : Typed) (k k' : Nat) (w : IntWidth) (count : Nat) (keys : List SortKey)
        (g : Graph) (input : Socket),
      planFrom outer tables env d = (.ok source, d₁) ∧
      e.resolve ({ relations := source.relations } :: outer) none env k = (.ok x, k') ∧ x.type = .integer w ∧
      g.addChain input [.limit (some count) keys] = (p.output, d'.graph) ∧ x.expr.foldInteger = some (count : Int) ∧
      (∀ t n, x.expr.Evaluates t n ↔ (t = .integer w ∧ n = count) ∧ x.expr.Every fun s => ¬s.Deviates) ∧
      (x.expr.Every (fun s => ¬s.Deviates) → w.Holds count ∧
        ∀ path policy v s, x.expr.at? path = some (.cast policy (.integer v) s) →
          ∃ n, s.foldInteger = some n ∧ v.Holds n) := by
  simp only [Query.plan, Step.bind_ok] at h
  obtain ⟨source, d₁, hsource, h⟩ := h
  obtain ⟨x, k, k', count, keys, g, input, hx, hinteger, hfold, hchain⟩ := Block.plan_limit hlimit h
  obtain ⟨w, hw⟩ : ∃ w, x.type = .integer w := by
    cases ht : x.type <;> simp_all [SqlType.isInteger]
  have hel := Expr.sound env _ e none k x k' hx
  have htype := hel.constantType?_eq x (by simp) count hfold
  rw [hw] at htype
  have hfits := Expr.fits_of_resolve hplaceholders hx
  refine ⟨source, d₁, x, k, k', w, count, keys, g, input, hsource, hx, hw, hchain, hfold,
    fun t n => Scalar.evaluates_iff hfits hfold htype, fun hexact => ?_⟩
  have heval := Scalar.evaluates_of_folds hfits hexact hfold htype
  refine ⟨Scalar.represents_integer.mp heval.folds.2.2, fun path policy v s hs => ?_⟩
  obtain ⟨_, n, hcast⟩ := heval.every path _ hs
  cases hcast with
  | cast hs hn => exact ⟨n, hs.folds.1, hn⟩

namespace Sample

/-- `SELECT 1 ... LIMIT CAST(... AS TINYINT)` -/
def tinyLimit (digits : String) : SelectClauses (Expr Unit) where
  items := [.expr (literal "1") none]
  limit := some (.cast (literal digits) (.integer .w8))

def tinyCount (n : Int) : Typed := ⟨.cast .ignore .int1 (.immediate (.integer .w32 n) .int4), .int1, false⟩

theorem resolve_tiny {digits : String} {n : Int} (h : Literal.constant {} (.exact false digits) =
    .ok (.integer .w32 n, .int4)) (scopes : Scopes) (k : Nat) :
    (Expr.cast (literal digits) (.integer .w8)).resolve scopes none sums.environment k = (.ok (tinyCount n), k) := by
  have hliteral : (literal digits).resolve scopes none sums.environment k =
      (.ok (.constant (.integer .w32 n) .int4), k) := by
    refine Literal.resolve_ok.mpr ⟨?_, rfl⟩
    rw [Literal.typed_eq_map (by simp) (by simp)]
    exact congrArg _ h
  exact Step.bind_eq_of_ok hliteral

end Sample

theorem Query.plan_limitCount_tiny : ∃ (p : Planned) (d' : Draft) (keys : List SortKey) (g : Graph) (input : Socket),
    (Query.select [] (Sample.tinyLimit "100")).plan [] Sample.sums.environment ⟨0, .empty⟩ = (.ok p, d') ∧
      g.addChain input [.limit (some 100) keys] = (p.output, d'.graph) ∧
      (Sample.tinyCount 100).expr.Evaluates .int1 100 ∧ IntWidth.w8.Holds 100 := by
  have hok : ((Query.select [] (Sample.tinyLimit "100")).plan [] Sample.sums.environment ⟨0, .empty⟩).1.isOk =
      true := by
    decide +kernel
  obtain ⟨p, d', h⟩ := Step.exists_ok hok
  obtain ⟨source, d₁, x, k, k', w, count, keys, g, input, -, hx, hw, hchain, hfold, hevaluates, hrange⟩ :=
    plan_limitCount (fun _ _ _ hp => by cases hp) rfl h
  have hconstant : Literal.constant {} (.exact false "100") = .ok (.integer .w32 100, .int4) := by decide +kernel
  cases (Sample.resolve_tiny hconstant _ k).symm.trans hx
  cases hfold
  cases hw
  have heval : (Sample.tinyCount 100).expr.Evaluates .int1 100 :=
    .cast (.immediate rfl (Scalar.represents_integer.mpr (by decide))) (by decide)
  exact ⟨p, d', keys, g, input, h, hchain, heval, (hrange ((hevaluates _ _).mp heval).2).1⟩

/-- A LIMIT of more rows than its type has numbers for. -/
theorem Query.limit_outOfRange : ∃ (p : Planned) (d' : Draft) (keys : List SortKey) (g : Graph) (input : Socket),
    (Query.select [] (Sample.tinyLimit "300")).plan [] Sample.sums.environment ⟨0, .empty⟩ = (.ok p, d') ∧
      g.addChain input [.limit (some 300) keys] = (p.output, d'.graph) ∧
      (∀ scopes k, (Expr.cast (Sample.literal "300") (.integer .w8)).resolve scopes none Sample.sums.environment k =
        (.ok (Sample.tinyCount 300), k)) ∧ ¬IntWidth.w8.Holds 300 := by
  have hok : ((Query.select [] (Sample.tinyLimit "300")).plan [] Sample.sums.environment ⟨0, .empty⟩).1.isOk =
      true := by
    decide +kernel
  obtain ⟨p, d', h⟩ := Step.exists_ok hok
  have hplan := h
  simp only [Query.plan, Step.bind_ok] at hplan
  obtain ⟨source, d₁, -, hplan⟩ := hplan
  obtain ⟨x, k, k', count, keys, g, input, hx, -, hfold, hchain⟩ := Block.plan_limit rfl hplan
  have hconstant : Literal.constant {} (.exact false "300") = .ok (.integer .w32 300, .int4) := by decide +kernel
  cases (Sample.resolve_tiny hconstant _ k).symm.trans hx
  cases hfold
  exact ⟨p, d', keys, g, input, h, hchain, Sample.resolve_tiny hconstant, by decide⟩

end SqlPlan
