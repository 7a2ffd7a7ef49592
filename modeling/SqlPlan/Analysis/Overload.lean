import SqlPlan.Analysis.Step
import SqlPlan.Type.Conversion

namespace SqlPlan

class Overloaded (D : Type) where
  parameters : D → List SqlType
  signature : D → String

instance : Overloaded FunctionDecl := ⟨FunctionDecl.parameters, FunctionDecl.signature⟩

instance : Overloaded AggregateDecl := ⟨AggregateDecl.parameters, AggregateDecl.signature⟩

namespace Overload

variable {D : Type} [Overloaded D]

def totalCost : List SqlType → List SqlType → Option Nat
  | [], [] => some 0
  | a :: arguments, p :: parameters => do
    let cost ← a.conversionCost p
    let rest ← totalCost arguments parameters
    return cost + rest
  | _, _ => none

def callCost (arguments : List SqlType) (d : D) : Option Nat :=
  totalCost arguments (Overloaded.parameters d)

def commonParameter? (candidates : List D) (position : Nat) : Option SqlType :=
  match candidates.map fun d => (Overloaded.parameters d)[position]? with
  | some t :: rest => if rest.all fun u => u == some t then some t else none
  | _ => none

def ranked (arguments : List SqlType) (candidates : List D) : List (Nat × D) :=
  candidates.filterMap fun d => (callCost arguments d).map (·, d)

def cheapest (arguments : List SqlType) (candidates : List D) : List D :=
  let costs := ranked arguments candidates
  match (costs.map (·.1)).min? with
  | none => []
  | some best => (costs.filter fun (cost, _) => cost == best).map (·.2)

def select {σ : Type} (name : String) (candidates : List D) (arguments : List SqlType)
    (location : Option Span) : Step σ D :=
  let call := "function " ++ name ++ "(" ++ typeListText arguments ++ ")"
  match cheapest arguments candidates with
  | [] => Step.fail .functionNotFound location (call ++ " is not found")
  | [d] => pure d
  | winners => Step.fail .functionAmbiguous location (call ++ " is ambiguous between " ++
      Text.joinWith ", " (winners.map Overloaded.signature))

end Overload

end SqlPlan
