import SqlPlan.Plan.Scalar

namespace SqlPlan

def int64? (n : Int) : Option Int := if IntWidth.w64.Holds n then some n else none

/-- An arithmetic operator on 64-bit integers. Division truncates, and it has no result where its
quotient is out of range; neither has the remainder then. -/
def BinaryOperator.int64? (op : BinaryOperator) (m n : Int) : Option Int :=
  match op with
  | .add => SqlPlan.int64? (m + n)
  | .subtract => SqlPlan.int64? (m - n)
  | .multiply => SqlPlan.int64? (m * n)
  | .divide => if n = 0 then none else SqlPlan.int64? (m.tdiv n)
  | .remainder => if n = 0 then none else (SqlPlan.int64? (m.tdiv n)).map fun _ => m.tmod n
  | _ => none

def UnaryOperator.int64? (op : UnaryOperator) (n : Int) : Option Int :=
  match op with
  | .plus => some n
  | .signInversion => SqlPlan.int64? (-n)
  | _ => none

/-- The value of an expression of immediates, signs, arithmetic and integer casts. -/
def Scalar.foldInteger : Scalar → Option Int
  | immediate value _ => value.toInt64?
  | cast _ target s => if target.isInteger then s.foldInteger else none
  | unary op s => s.foldInteger.bind op.int64?
  | binary op l r => do
    let m ← l.foldInteger
    let n ← r.foldInteger
    op.int64? m n
  | _ => none

end SqlPlan
