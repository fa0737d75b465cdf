import ResourceQuery.Enumeration.Rack

namespace ResourceQuery.Enumeration

-- How far a call has come. It is over at once if the flag was raised before.
inductive Stage
  | started
  | raised
  | returned (first : Bool)
  deriving DecidableEq, Repr

namespace Stage

def afterRaise (first : Bool) : Stage :=
  if first then raised else returned false

def isOver : Stage → Bool
  | returned _ => true
  | _ => false

end Stage

-- A call that cancels a token.
structure Cancelling where
  token : Token
  stage : Stage
  deriving DecidableEq, Repr

-- The tokens that are alive, each as often as it has clones, and all calls that were ever started.
structure Race where
  board : Switchboard := {}
  tokens : List Token := []
  calls : List Cancelling := []

namespace Race

-- The trigger goes when it is removed, or with the last of the clones that share it.
def Disconnected (r : Race) (t : Token) : Prop :=
  (r.board.state t).armed = false ∨ t ∉ r.tokens

-- What a single step makes of a race, and the token that it makes or acts on. Between the two steps
-- of a call all others may move. A token may be given up even while a call goes through it, which
-- is more than can happen.
inductive Step : Race → Token → Race → Prop
  | issue {r} :
    Step r r.board.issue.1
      { r with board := r.board.issue.2, tokens := r.tokens ++ [r.board.issue.1] }
  | clone {r t} : t ∈ r.tokens → Step r t { r with tokens := r.tokens ++ [t] }
  | giveUp {r t} : t ∈ r.tokens → Step r t { r with tokens := r.tokens.erase t }
  | start {r t} : t ∈ r.tokens → Step r t { r with calls := r.calls ++ [⟨t, .started⟩] }
  | raise {r t before after} : r.calls = before ++ ⟨t, .started⟩ :: after →
    Step r t { r with
      board := r.board.put t (r.board.state t).raise.2
      calls := before ++ ⟨t, .afterRaise (r.board.state t).raise.1⟩ :: after }
  | disarm {r t before after} : r.calls = before ++ ⟨t, .raised⟩ :: after →
    Step r t { r with
      board := r.board.put t (r.board.state t).disarm
      calls := before ++ ⟨t, .returned true⟩ :: after }

-- What a run makes of a race, and the tokens of its steps.
inductive Reaches : Race → List Token → Race → Prop
  | refl {r} : Reaches r [] r
  | tail {r r₁ r₂ turns t} : Reaches r turns r₁ → Step r₁ t r₂ → Reaches r (turns ++ [t]) r₂

namespace Reaches

variable {r r₁ r₂ : Race} {turns : List Token}

theorem trans {further : List Token} (h₁ : Reaches r turns r₁) (h₂ : Reaches r₁ further r₂) :
    Reaches r (turns ++ further) r₂ := by
  induction h₂ with
  | refl => simpa using h₁
  | tail _ s ih => simpa using ih.tail s

end Reaches

end Race

end ResourceQuery.Enumeration
