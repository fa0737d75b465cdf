namespace ResourceQuery

-- The entries are in the order of use, the latest first, and hold no key twice.
structure Recent (α : Type) where
  capacity : Nat
  entries : List (String × α)

namespace Recent

variable {α : Type}

-- At least one entry has room.
def empty (capacity : Nat) : Recent α :=
  { capacity := max capacity 1, entries := [] }

def size (r : Recent α) : Nat :=
  r.entries.length

def keys (r : Recent α) : List String :=
  r.entries.map (·.1)

-- Looks a key up without using it.
def find? (r : Recent α) (key : String) : Option α :=
  r.entries.lookup key

def erase (r : Recent α) (key : String) : Recent α :=
  { r with entries := r.entries.filter (·.1 != key) }

-- Puts a value under a key, which is the latest from then on. A full map gives up the key that was
-- used the longest time ago.
def insert (r : Recent α) (key : String) (value : α) : Recent α :=
  { r with entries := ((key, value) :: (r.erase key).entries).take r.capacity }

-- Makes a key the latest.
def touch (r : Recent α) (key : String) : Recent α :=
  match r.find? key with
  | none => r
  | some value => r.insert key value

def clear (r : Recent α) : Recent α :=
  { r with entries := [] }

end Recent

end ResourceQuery
