import ResourceQuery.Enumeration.Service

namespace ResourceQuery.Enumeration

-- The client's end of an enumeration. It holds the latest context until it is finished.
structure Cursor where
  context : Option String := none
  maxElements : Nat
  total : Option Nat := none
  finished : Bool := false
  deriving DecidableEq

-- What a pull leaves behind.
structure Pulled (ι : Type) where
  outcome : Outcome (List ι)
  cursor : Cursor
  service : Service ι
  cancels : Bool := false

namespace Cursor

variable {ι : Type}

-- Takes over the context of an answer. The service has no use for a context after the end.
def advance (c : Cursor) (context : Option String) (endOfSequence : Bool) :
    Outcome Unit × Cursor :=
  if endOfSequence then
    (.ok (), { c with finished := true })
  else
    match context with
    | some context => (.ok (), { c with context := some context })
    | none => (.error .missingContext, { c with finished := true })

-- A cursor on the enumeration that an answer opens, and the items of its first page.
def ofAnswer (answer : Answer ι) (maxElements : Nat) : Outcome (Cursor × List ι) :=
  match advance { maxElements, total := answer.total } answer.context answer.endOfSequence with
  | (.ok (), c) => .ok (c, answer.items)
  | (.error error, _) => .error error

def release (c : Cursor) (s : Service ι) : Cursor × Service ι :=
  match c.context with
  | none => ({ c with finished := true }, s)
  | some context => ({ c with context := none, finished := true }, s.releaseQuietly context)

-- The next page. The context is superseded by an answer, whatever the answer brings, and released
-- if there is none.
def pull (c : Cursor) (s : Service ι) : Pulled ι :=
  match c.context with
  | none => { outcome := .error .exhausted, cursor := c, service := s }
  | some context =>
    match (s.note (.pulling context c.maxElements)).pull context c.maxElements with
    | (⟨.ok answer, cancels⟩, s) =>
      let s := s.note (.pulled answer.items.length answer.endOfSequence)
      match { c with context := none }.advance answer.context answer.endOfSequence with
      | (.ok (), c) => { outcome := .ok answer.items, cursor := c, service := s, cancels }
      | (.error error, c) => { outcome := .error error, cursor := c, service := s, cancels }
    | (⟨.error error, cancels⟩, s) =>
      let (c, s) := c.release (s.note (.pullFailed error))
      { outcome := .error error, cursor := c, service := s, cancels }

-- Gives a cursor up, wherever it stands.
def drop (c : Cursor) (s : Service ι) : Service ι :=
  match c.context with
  | none => s
  | some _ => (c.release (s.note .abandoned)).2

end Cursor

namespace Service

variable {ι : Type}

@[simp]
theorem pulls_note (s : Service ι) (n : Note) : (s.note n).pulls = s.pulls :=
  rfl

@[simp]
theorem pulls_releaseQuietly (s : Service ι) (context : String) :
    (s.releaseQuietly context).pulls = s.pulls := by
  unfold releaseQuietly
  split <;> simp_all [release, note, recordCall, Prod.ext_iff, Service.ext_iff]

end Service

namespace Cursor

variable {ι : Type}

@[simp]
theorem pulls_release (c : Cursor) (s : Service ι) : (c.release s).2.pulls = s.pulls := by
  unfold release
  cases c.context <;> simp

-- A pull takes an answer off the script, if there is one.
theorem pulls_pull (c : Cursor) (s : Service ι) :
    (c.pull s).service.pulls = if c.context = none then s.pulls else s.pulls.tail := by
  unfold pull
  cases hc : c.context with
  | none => simp
  | some context =>
    simp only [reduceCtorEq, if_false]
    split
    next h =>
      simp only [Service.pull, Prod.mk.injEq] at h
      obtain ⟨-, rfl⟩ := h
      split <;> rfl
    next h =>
      simp only [Service.pull, Prod.mk.injEq] at h
      obtain ⟨-, rfl⟩ := h
      simp [Service.recordCall]

theorem length_pulls_le (c : Cursor) (s : Service ι) :
    (c.pull s).service.pulls.length ≤ s.pulls.length := by
  rw [pulls_pull]
  split <;> simp

-- Every page uses up an answer of the script.
theorem length_pulls_lt_of_ok {c : Cursor} {s : Service ι} {items : List ι}
    (h : (c.pull s).outcome = .ok items) : (c.pull s).service.pulls.length < s.pulls.length := by
  have hp : s.pulls ≠ [] := by
    intro hp
    revert h
    unfold pull
    cases c.context <;> simp [Service.pull, Service.note, hp]
  have hc : c.context ≠ none := by
    intro hc
    simp [pull, hc] at h
  rw [pulls_pull, if_neg hc, List.length_tail]
  have := List.length_pos_iff.mpr hp
  omega

end Cursor

end ResourceQuery.Enumeration
