import ResourceQuery.Enumeration.Token

namespace ResourceQuery.Enumeration

structure Rack where
  board : Switchboard
  tokens : List Token

namespace Rack

-- Whether a token is cancelled from here or from another thread makes no difference.
inductive Action
  | issue
  | clone (place : Nat)
  | cancel (place : Nat)
  deriving DecidableEq, Repr

-- The place of the token that was made, or whether a cancellation was the first.
inductive Result
  | place (place : Nat)
  | first (value : Bool)
  deriving DecidableEq, Repr

-- One token.
def initial : Rack :=
  let (t, board) := ({} : Switchboard).issue
  { board, tokens := [t] }

def states (r : Rack) : List Bool :=
  r.tokens.map r.board.isCancelled

-- Nothing happens if there is no token at the place.
def perform (r : Rack) : Action → Option (Result × Rack)
  | .issue =>
    let (t, board) := r.board.issue
    some (.place r.tokens.length, { board, tokens := r.tokens ++ [t] })
  | .clone place => do
    let t ← r.tokens[place]?
    return (.place r.tokens.length, { r with tokens := r.tokens ++ [t] })
  | .cancel place => do
    let t ← r.tokens[place]?
    let (first, board) := r.board.cancel t
    return (.first first, { r with board })

-- The result of each action, with the states of all tokens after it.
def run (r : Rack) : List Action → Option (List (Result × List Bool))
  | [] => some []
  | a :: as => do
    let (result, r) ← r.perform a
    return (result, r.states) :: (← run r as)

end Rack

end ResourceQuery.Enumeration
