import ResourceQuery.Enumeration.Cursor

namespace ResourceQuery.Enumeration

variable {ι : Type}

namespace Service

variable (s t : Service ι) (n : Note) (context : String)

@[simp]
theorem calls_note : (s.note n).calls = s.calls :=
  rfl

@[simp]
theorem decoded_note : (s.note n).decoded = s.decoded :=
  rfl

@[simp]
theorem calls_forgetNotesSince : (s.forgetNotesSince t).calls = s.calls :=
  rfl

@[simp]
theorem pulls_forgetNotesSince : (s.forgetNotesSince t).pulls = s.pulls :=
  rfl

@[simp]
theorem decoded_forgetNotesSince : (s.forgetNotesSince t).decoded = s.decoded :=
  rfl

@[simp]
theorem calls_recordDecoding (item : ι) : (s.recordDecoding item).calls = s.calls :=
  rfl

@[simp]
theorem pulls_recordDecoding (item : ι) : (s.recordDecoding item).pulls = s.pulls :=
  rfl

@[simp]
theorem decoded_recordDecoding (item : ι) :
    (s.recordDecoding item).decoded = s.decoded ++ [item] :=
  rfl

@[simp]
theorem calls_releaseQuietly :
    (s.releaseQuietly context).calls = s.calls ++ [.release context] := by
  rw [releaseQuietly]
  split <;> simp_all [release, note, recordCall, Prod.ext_iff, Service.ext_iff]

@[simp]
theorem decoded_releaseQuietly : (s.releaseQuietly context).decoded = s.decoded := by
  rw [releaseQuietly]
  split <;> simp_all [release, note, recordCall, Prod.ext_iff, Service.ext_iff]

-- The answer that the next pull gets.
def nextAnswer (s : Service ι) : Outcome (Answer ι) :=
  (s.pulls.headD { outcome := .error scriptExhausted }).outcome

end Service

-- The context with which an enumeration goes on after an answer. The context of a last answer is
-- of no use.
def Answer.held (a : Answer ι) : Option String :=
  if a.endOfSequence then none else a.context

-- The items of an answer, unless it leaves open how to go on.
def Answer.page (a : Answer ι) : Outcome (List ι) :=
  if a.endOfSequence ∨ a.context.isSome then .ok a.items else .error .missingContext

def heldAfter : Outcome (Answer ι) → Option String
  | .ok a => a.held
  | .error _ => none

def pageOf : Outcome (Answer ι) → Outcome (List ι)
  | .ok a => a.page
  | .error error => .error error

-- The context that is released when a pull fails.
def abandoned (context : String) : Outcome (Answer ι) → Option String
  | .ok _ => none
  | .error _ => some context

theorem heldAfter_eq_none_of_pageOf {answer : Outcome (Answer ι)} {error : EnumerationError}
    (h : pageOf answer = .error error) : heldAfter answer = none := by
  cases answer
  case error => rfl
  case ok a =>
    simp only [pageOf, Answer.page] at h
    split at h
    case isTrue => cases h
    case isFalse hn => simp_all [heldAfter, Answer.held]

theorem abandoned_eq_none {answer : Outcome (Answer ι)} {x y : String}
    (h : heldAfter answer = some y) : abandoned x answer = none := by
  cases answer
  case ok => rfl
  case error => cases h

theorem abandoned_eq_none_of_pageOf {answer : Outcome (Answer ι)} {items : List ι} {x : String}
    (h : pageOf answer = .ok items) : abandoned x answer = none := by
  cases answer
  case ok => rfl
  case error => cases h

namespace Cursor

-- A cursor is finished exactly if there is nothing to be released.
def Coherent (c : Cursor) : Prop :=
  c.finished = c.context.isNone

def holding (c : Cursor) (context : Option String) : Cursor :=
  { c with context, finished := context.isNone }

@[simp]
theorem coherent_holding (c : Cursor) (context : Option String) : (c.holding context).Coherent :=
  rfl

@[simp]
theorem context_holding (c : Cursor) (context : Option String) :
    (c.holding context).context = context :=
  rfl

@[simp]
theorem maxElements_holding (c : Cursor) (context : Option String) :
    (c.holding context).maxElements = c.maxElements :=
  rfl

theorem ofAnswer_eq (a : Answer ι) (maxElements : Nat) :
    ofAnswer a maxElements =
      a.page.map (Cursor.holding { maxElements, total := a.total } a.held, ·) := by
  unfold ofAnswer advance Answer.page Answer.held
  cases a.endOfSequence <;> cases a.context <;> simp [Except.map, holding]

variable {c : Cursor} {s : Service ι} {x : String}

theorem release_eq_of_none (hx : c.context = none) : (c.release s).2 = s := by
  simp [release, hx]

theorem release_fst (c : Cursor) (s : Service ι) : (c.release s).1 = c.holding none := by
  cases hx : c.context <;> simp [release, hx, holding]

theorem calls_release (c : Cursor) (s : Service ι) :
    (c.release s).2.calls = s.calls ++ c.context.toList.map .release := by
  cases hx : c.context <;> simp [release, hx]

@[simp]
theorem decoded_release (c : Cursor) (s : Service ι) : (c.release s).2.decoded = s.decoded := by
  cases hx : c.context <;> simp [release, hx]

theorem pull_eq_of_none (hx : c.context = none) :
    c.pull s = { outcome := .error .exhausted, cursor := c, service := s } := by
  simp [pull, hx]

-- What a pull with a context does.
structure Pulls (c : Cursor) (s : Service ι) (context : String) (p : Pulled ι) : Prop where
  outcome_eq : p.outcome = pageOf s.nextAnswer
  cursor_eq : p.cursor = c.holding (heldAfter s.nextAnswer)
  calls_eq : p.service.calls =
    s.calls ++ .pull context c.maxElements :: (abandoned context s.nextAnswer).toList.map .release
  pulls_eq : p.service.pulls = s.pulls.tail
  decoded_eq : p.service.decoded = s.decoded

theorem pulls_pull_of_some (hc : c.Coherent) (hx : c.context = some x) :
    c.Pulls s x (c.pull s) := by
  have hf : c.finished = false := by simpa [Coherent, hx] using hc
  cases ha : s.pulls.headD { outcome := .error Service.scriptExhausted } with
  | mk outcome cancels =>
    have hn : s.nextAnswer = outcome := by simp only [Service.nextAnswer, ha]
    simp only [pull, hx, Service.pull, Service.pulls_note, ha]
    cases outcome with
    | error error =>
      constructor <;> simp [hn, pageOf, heldAfter, abandoned, release_fst, calls_release, hx,
        Service.recordCall]
    | ok a =>
      cases he : a.endOfSequence <;> cases hc : a.context <;> constructor <;>
        simp [hn, pageOf, heldAfter, abandoned, advance, Answer.page, Answer.held, he, hc, hf,
          holding, Service.recordCall]

theorem Coherent.exists_context (h : c.Coherent) (hf : c.finished = false) :
    ∃ x, c.context = some x := by
  simpa [Coherent, hf, Option.isSome_iff_exists] using h

theorem coherent_release (c : Cursor) (s : Service ι) : (c.release s).1.Coherent :=
  release_fst c s ▸ coherent_holding c none

theorem coherent_pull (h : c.Coherent) : (c.pull s).cursor.Coherent := by
  cases hx : c.context
  case none => exact pull_eq_of_none hx ▸ h
  case some => exact (pulls_pull_of_some h hx).cursor_eq ▸ coherent_holding c _

-- A pull by itself cancels nothing.
theorem cancels_pull (c : Cursor) (h : ∀ answer ∈ s.pulls, answer.cancels = false) :
    (c.pull s).cancels = false := by
  have hn : (s.pulls.headD { outcome := .error Service.scriptExhausted }).cancels = false := by
    cases hp : s.pulls with
    | nil => rfl
    | cons answer answers => exact h answer (by simp [hp])
  rw [pull]
  split
  case h_1 => rfl
  case h_2 =>
    split <;> rename_i hs <;> simp only [Service.pull, Service.pulls_note, Prod.mk.injEq] at hs <;>
      rw [hs.left] at hn
    case h_1 => dsimp only; split <;> exact hn
    case h_2 => exact hn

end Cursor

end ResourceQuery.Enumeration
