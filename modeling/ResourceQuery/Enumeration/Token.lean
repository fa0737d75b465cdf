namespace ResourceQuery.Enumeration

-- What all clones of a token share: the flag that says that it is cancelled, and the trigger whose
-- removal wakes those who wait for that.
structure Switch where
  cancelled : Bool := false
  armed : Bool := true
  deriving DecidableEq, Repr

namespace Switch

-- Raises the flag, and tells whether it was down before.
def raise (s : Switch) : Bool × Switch :=
  (!s.cancelled, { s with cancelled := true })

-- Removes the trigger.
def disarm (s : Switch) : Switch :=
  { s with armed := false }

-- Both parts of a cancellation, and whether it was the first.
def cancel (s : Switch) : Bool × Switch :=
  let (first, s) := s.raise
  (first, if first then s.disarm else s)

theorem cancelled_cancel (s : Switch) : s.cancel.2.cancelled = true := by
  obtain ⟨cancelled, armed⟩ := s
  cases cancelled <;> rfl

end Switch

-- A handle on a switch. Clones are equal.
structure Token where
  index : Nat
  deriving DecidableEq, Repr

-- The switches of all tokens that were ever issued.
structure Switchboard where
  switches : List Switch := []
  deriving DecidableEq, Repr

namespace Switchboard

-- A token of a new switch.
def issue (b : Switchboard) : Token × Switchboard :=
  (⟨b.switches.length⟩, { b with switches := b.switches ++ [{}] })

def state (b : Switchboard) (t : Token) : Switch :=
  b.switches.getD t.index {}

def put (b : Switchboard) (t : Token) (s : Switch) : Switchboard :=
  { b with switches := b.switches.set t.index s }

def cancel (b : Switchboard) (t : Token) : Bool × Switchboard :=
  let (first, s) := (b.state t).cancel
  (first, b.put t s)

def isCancelled (b : Switchboard) (t : Token) : Bool :=
  (b.state t).cancelled

end Switchboard

end ResourceQuery.Enumeration
