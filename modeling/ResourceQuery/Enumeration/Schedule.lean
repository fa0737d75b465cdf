import ResourceQuery.Enumeration.Stream

namespace ResourceQuery.Enumeration.Flow

variable {ι ρ : Type}

def raise (f : Flow ι ρ) : Flow ι ρ :=
  { f with switch := f.switch.raise.2 }

def disarm (f : Flow ι ρ) : Flow ι ρ :=
  { f with switch := f.switch.disarm }

def leave (f : Flow ι ρ) : Flow ι ρ :=
  { f with stream.attended := false }

def note (f : Flow ι ρ) (n : Note) : Flow ι ρ :=
  { f with service := f.service.note n }

-- What a single move makes of a stream, and what the consumer receives by it. Raising the flag and
-- removing the trigger are separate moves, and a worker that could hand over a record may notice
-- instead that the trigger is gone.
inductive Step (d : Decoder ι ρ) : Flow ι ρ → Option (Outcome ρ) → Flow ι ρ → Prop
  | work {f g} : f.step? d = some g → Step d f none g
  | wake {f cursor record items} :
    f.stream.worker = .offering cursor record items → f.switch.armed = false →
    Step d f none (f.withWorker (.stopping cursor false))
  | receive {f g record} :
    f.stream.attended → f.receive = (some record, g) → Step d f (some record) g
  | raise {f} : Step d f none f.raise
  | disarm {f} : f.switch.cancelled → Step d f none f.disarm
  -- A consumer cancels the token before it goes.
  | leave {f} : f.switch.cancelled → Step d f none f.leave
  | note {f n} : Step d f none (f.note n)

-- What so many steps of the worker make of a stream, unless it waits or has exited before.
def workFor? (d : Decoder ι ρ) : Nat → Flow ι ρ → Option (Flow ι ρ)
  | 0, f => some f
  | n + 1, f => (f.step? d).bind (workFor? d n)

-- What a run makes of a stream, and all that the consumer receives on the way.
inductive Reaches (d : Decoder ι ρ) : Flow ι ρ → List (Outcome ρ) → Flow ι ρ → Prop
  | refl {f} : Reaches d f [] f
  | tail {f g h received record} :
    Reaches d f received g → Step d g record h → Reaches d f (received ++ record.toList) h

namespace Reaches

variable {d : Decoder ι ρ} {f g h : Flow ι ρ} {received : List (Outcome ρ)}

theorem single {record : Option (Outcome ρ)} (s : Step d f record g) :
    Reaches d f record.toList g :=
  .tail .refl s

theorem silent (r : Reaches d f received g) (s : Step d g none h) : Reaches d f received h := by
  simpa using r.tail s

theorem trans {further : List (Outcome ρ)} (r₁ : Reaches d f received g)
    (r₂ : Reaches d g further h) : Reaches d f (received ++ further) h := by
  induction r₂ with
  | refl => simpa using r₁
  | tail _ s ih => simpa using ih.tail s

theorem works {n : Nat} (r : Reaches d f received g) (e : g.workFor? d n = some h) :
    Reaches d f received h := by
  induction n generalizing g with
  | zero => exact Option.some.inj e ▸ r
  | succ n ih =>
    have ⟨_, hs, hw⟩ := Option.bind_eq_some_iff.mp e
    exact ih (r.silent (.work hs)) hw

theorem settle (d : Decoder ι ρ) (f : Flow ι ρ) : Reaches d f [] (f.settle d) := by
  fun_induction Flow.settle d f with
  | case1 => exact .refl
  | case2 f g h ih => exact (single (.work h)).trans ih

theorem cancelSwitch (d : Decoder ι ρ) (f : Flow ι ρ) :
    Reaches d f [] { f with switch := f.switch.cancel.2 } := by
  have hr : Reaches d f [] f.raise := single .raise
  cases hc : f.switch.cancelled with
  | true => simpa [Switch.cancel, Switch.raise, Flow.raise, hc] using hr
  | false =>
    have hd : Reaches d f [] f.raise.disarm := hr.silent (.disarm rfl)
    simpa [Switch.cancel, Switch.raise, Flow.raise, Flow.disarm, hc] using hd

theorem cancel (d : Decoder ι ρ) (f : Flow ι ρ) : Reaches d f [] (f.cancel d) := by
  have hc := cancelSwitch d f
  unfold Flow.cancel
  split
  rename_i first switch hs
  cases first <;> simp only [hs] at hc
  case false => exact hc.trans (settle d _)
  case true => exact (hc.silent .note).trans (settle d _)

theorem wait (d : Decoder ι ρ) (f : Flow ι ρ) : Reaches d f [] (f.wait d) :=
  (cancelSwitch d f).trans (settle d _)

theorem drop (d : Decoder ι ρ) (f : Flow ι ρ) : Reaches d f [] (f.drop d) :=
  ((cancelSwitch d f).silent (.leave f.switch.cancelled_cancel)).trans (settle d _)

theorem next (d : Decoder ι ρ) {f : Flow ι ρ} (h : f.stream.attended) :
    Reaches d f (f.next d).1.toList (f.next d).2 := by
  have hr : Reaches d f f.receive.1.toList f.receive.2 := by
    cases hq : f.receive with
    | mk record g =>
      cases record with
      | some record => exact single (.receive h hq)
      | none =>
        unfold receive at hq
        split at hq <;> cases hq
        exact .refl
  simpa [Flow.next] using hr.trans (settle d f.receive.2)

end Reaches

end ResourceQuery.Enumeration.Flow
