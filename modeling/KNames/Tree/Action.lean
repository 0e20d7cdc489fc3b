import KNames.Tree.Kind

set_option autoImplicit false

namespace KNames

inductive Action where
  | moveTo (position : Nat)
  | openNode (kind : Kind) (start : Nat)
  | leaf (kind : Kind) (span : Span)
  /-- Ends the innermost open node; the root is not ended so. -/
  | close (stop : Nat)
deriving DecidableEq, Repr

structure Builder (State : Type) where
  cursor : State → Nat
  act : State → Action → State

namespace Builder

variable {State : Type}

def perform (b : Builder State) (s : State) (actions : List Action) : State :=
  actions.foldl b.act s

end Builder

end KNames
