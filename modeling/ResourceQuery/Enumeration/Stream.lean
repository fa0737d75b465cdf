import ResourceQuery.Enumeration.Cursor
import ResourceQuery.Enumeration.Decoder
import ResourceQuery.Enumeration.Token

namespace ResourceQuery.Enumeration

-- Where a worker stands, with the items of its page that are still to be decoded.
inductive Worker (ι ρ : Type)
  -- A page has arrived.
  | arrived (cursor : Cursor) (items : List ι)
  -- The next item is to be decoded.
  | decoding (cursor : Cursor) (items : List ι)
  -- A record or a failure is ready.
  | ready (cursor : Cursor) (record : Outcome ρ) (items : List ι)
  -- A record or a failure is being handed over.
  | offering (cursor : Cursor) (record : Outcome ρ) (items : List ι)
  -- The page is used up.
  | turning (cursor : Cursor)
  -- The next page is to be pulled.
  | pulling (cursor : Cursor)
  -- The cursor is to be released.
  | stopping (cursor : Cursor) (panicked : Bool)
  -- The queue is to be closed.
  | closing (panicked : Bool)
  | exited (panicked : Bool)

namespace Worker

variable {ι ρ : Type}

def hasExited : Worker ι ρ → Bool
  | exited _ => true
  | _ => false

def hasPanicked : Worker ι ρ → Bool
  | exited panicked => panicked
  | _ => false

-- Where a worker stands once the queue has taken a record or a failure.
def handedOver (cursor : Cursor) (record : Outcome ρ) (items : List ι) : Worker ι ρ :=
  match record with
  | .ok _ => decoding cursor items
  | .error _ => stopping cursor false

-- Each step that takes no answer off the script brings the worker closer to its exit.
def distance : Worker ι ρ → Nat
  | arrived _ items => 8 + 3 * items.length
  | decoding _ items => 7 + 3 * items.length
  | ready _ (.ok _) items => 9 + 3 * items.length
  | ready _ (.error _) _ => 4
  | offering _ (.ok _) items => 8 + 3 * items.length
  | offering _ (.error _) _ => 3
  | turning _ => 6
  | pulling _ => 5
  | stopping _ _ => 2
  | closing _ => 1
  | exited _ => 0

end Worker

-- The consumer is attending as long as it may still read from the queue.
structure Stream (ι ρ : Type) where
  worker : Worker ι ρ
  queue : List (Outcome ρ) := []
  capacity : Nat
  attended : Bool := true

-- A stream together with what the worker shares with others.
structure Flow (ι ρ : Type) where
  service : Service ι
  switch : Switch
  stream : Stream ι ρ

namespace Stream

variable {ι ρ : Type}

-- The queue has room for one record at least.
def new (cursor : Cursor) (initial : List ι) (capacity : Nat) : Stream ι ρ where
  worker := .arrived cursor initial
  capacity := max capacity 1

def hasRoom (s : Stream ι ρ) : Bool :=
  s.queue.length < s.capacity

end Stream

namespace Flow

variable {ι ρ : Type}

def withWorker (f : Flow ι ρ) (w : Worker ι ρ) : Flow ι ρ :=
  { f with stream.worker := w }

-- Lets the worker go on, unless the token says that it has to stop.
def unlessCancelled (f : Flow ι ρ) (cursor : Cursor) (w : Worker ι ρ) : Flow ι ρ :=
  f.withWorker (if f.switch.cancelled then .stopping cursor false else w)

-- The switch is cancelled from within a call.
def cancelledIf (f : Flow ι ρ) (cancels : Bool) : Flow ι ρ :=
  if cancels then { f with switch := f.switch.cancel.2 } else f

def decode (d : Decoder ι ρ) (f : Flow ι ρ) (cursor : Cursor) (item : ι) (items : List ι) :
    Flow ι ρ :=
  ({ f with service := f.service.recordDecoding item }.cancelledIf (d.cancels item)).withWorker <|
    if d.panics item then .stopping cursor true else .ready cursor (d.decode item) items

-- Pulls the next page. The worker's notes are not kept.
def pull (f : Flow ι ρ) (cursor : Cursor) : Flow ι ρ :=
  let p := cursor.pull f.service
  ({ f with service := p.service.forgetNotesSince f.service }.cancelledIf p.cancels).withWorker <|
    match p.outcome with
    | .ok items => .arrived p.cursor items
    | .error error => .ready p.cursor (.error error) []

-- Releases the cursor. The worker's notes are not kept.
def release (f : Flow ι ρ) (cursor : Cursor) (panicked : Bool) : Flow ι ρ :=
  let (_, service) := cursor.release f.service
  { f with service := service.forgetNotesSince f.service }.withWorker (.closing panicked)

def enqueue (f : Flow ι ρ) (record : Outcome ρ) : Flow ι ρ :=
  { f with stream.queue := f.stream.queue ++ [record] }

-- Hands a record over if the queue has room. Without a consumer, or when the token wakes it, the
-- worker stops; otherwise it waits.
def offer? (f : Flow ι ρ) (cursor : Cursor) (record : Outcome ρ) (items : List ι) :
    Option (Flow ι ρ) :=
  if !f.stream.attended then some (f.withWorker (.stopping cursor false))
  else if f.stream.hasRoom then
    some ((f.enqueue record).withWorker (.handedOver cursor record items))
  else if !f.switch.armed then some (f.withWorker (.stopping cursor false))
  else none

-- The next step of the worker, unless it waits or has exited.
def step? (d : Decoder ι ρ) (f : Flow ι ρ) : Option (Flow ι ρ) :=
  match f.stream.worker with
  | .arrived cursor items =>
    some (f.unlessCancelled cursor (.decoding cursor items))
  | .decoding cursor [] => some (f.withWorker (.turning cursor))
  | .decoding cursor (item :: items) => some (f.decode d cursor item items)
  | .ready cursor record items =>
    some (f.unlessCancelled cursor (.offering cursor record items))
  | .offering cursor record items => f.offer? cursor record items
  | .turning cursor =>
    some (if cursor.finished then f.withWorker (.closing false)
      else f.unlessCancelled cursor (.pulling cursor))
  | .pulling cursor => some (f.pull cursor)
  | .stopping cursor panicked => some (f.release cursor panicked)
  | .closing panicked => some (f.withWorker (.exited panicked))
  | .exited _ => none

-- What a stream can still do is bounded by the pulls that the script answers, and after the last of
-- them by the worker's distance from its exit and the records in the queue.
def bound (f : Flow ι ρ) : Nat × Nat :=
  (f.service.pulls.length, 2 * f.stream.worker.distance + f.stream.queue.length)

@[simp]
theorem service_cancelledIf (f : Flow ι ρ) (cancels : Bool) :
    (f.cancelledIf cancels).service = f.service := by
  cases cancels <;> rfl

@[simp]
theorem stream_cancelledIf (f : Flow ι ρ) (cancels : Bool) :
    (f.cancelledIf cancels).stream = f.stream := by
  cases cancels <;> rfl

theorem bound_withWorker_lt {f : Flow ι ρ} {w : Worker ι ρ}
    (h : w.distance < f.stream.worker.distance) :
    Prod.Lex (· < ·) (· < ·) (f.withWorker w).bound f.bound := by
  simp [bound, withWorker, Prod.lex_def]
  omega

theorem bound_unlessCancelled_lt {f : Flow ι ρ} {cursor : Cursor} {w : Worker ι ρ}
    (hs : 2 < f.stream.worker.distance) (hw : w.distance < f.stream.worker.distance) :
    Prod.Lex (· < ·) (· < ·) (f.unlessCancelled cursor w).bound f.bound := by
  apply bound_withWorker_lt
  split
  · exact hs
  · exact hw

theorem bound_offer {f g : Flow ι ρ} {cursor : Cursor} {record : Outcome ρ}
    {items : List ι} (hw : f.stream.worker = .offering cursor record items)
    (h : f.offer? cursor record items = some g) :
    Prod.Lex (· < ·) (· < ·) g.bound f.bound := by
  have hs : (Worker.stopping cursor false : Worker ι ρ).distance < f.stream.worker.distance := by
    rw [hw]
    cases record <;> simp [Worker.distance]
    omega
  unfold offer? at h
  split at h
  next => cases h; exact bound_withWorker_lt hs
  next =>
    split at h
    next =>
      cases h
      simp only [bound, withWorker, enqueue, hw, Prod.lex_def]
      cases record <;> simp [Worker.distance, Worker.handedOver] <;> omega
    next =>
      split at h
      next => cases h; exact bound_withWorker_lt hs
      next => cases h

-- Every step brings the stream closer to its end.
theorem bound_step {d : Decoder ι ρ} {f g : Flow ι ρ} (h : f.step? d = some g) :
    Prod.Lex (· < ·) (· < ·) g.bound f.bound := by
  unfold step? at h
  split at h
  case h_1 cursor items hw =>
    cases h
    apply bound_unlessCancelled_lt <;> simp [hw, Worker.distance]
    omega
  case h_2 cursor hw =>
    cases h
    exact bound_withWorker_lt (by simp [hw, Worker.distance])
  case h_3 cursor item items hw =>
    cases h
    simp only [decode, bound, withWorker, service_cancelledIf, stream_cancelledIf,
      Service.recordDecoding, hw, Prod.lex_def]
    split
    · simp [Worker.distance]
      omega
    · cases d.decode item <;> simp [Worker.distance] <;> omega
  case h_4 cursor record items hw =>
    cases h
    apply bound_unlessCancelled_lt <;> cases record <;> simp [hw, Worker.distance]
    omega
  case h_5 cursor record items hw => exact bound_offer hw h
  case h_6 cursor hw =>
    cases h
    split
    · exact bound_withWorker_lt (by simp [hw, Worker.distance])
    · exact bound_unlessCancelled_lt (by simp [hw, Worker.distance]) (by simp [hw, Worker.distance])
  case h_7 cursor hw =>
    cases h
    simp only [pull, bound, withWorker, service_cancelledIf, stream_cancelledIf,
      Service.forgetNotesSince, hw, Prod.lex_def]
    split
    next items ho => exact .inl (Cursor.length_pulls_lt_of_ok ho)
    next error ho =>
      have := cursor.length_pulls_le f.service
      simp [Worker.distance]
      omega
  case h_8 cursor panicked hw =>
    cases h
    simp [release, bound, withWorker, Service.forgetNotesSince, hw, Prod.lex_def, Worker.distance]
  case h_9 panicked hw =>
    cases h
    exact bound_withWorker_lt (by simp [hw, Worker.distance])
  case h_10 => cases h

-- Lets the worker work until it waits or has exited.
def settle (d : Decoder ι ρ) (f : Flow ι ρ) : Flow ι ρ :=
  match _h : f.step? d with
  | none => f
  | some f => settle d f
termination_by f.bound
decreasing_by exact bound_step _h

theorem bound_settle (d : Decoder ι ρ) (f : Flow ι ρ) :
    (f.settle d).bound = f.bound ∨ Prod.Lex (· < ·) (· < ·) (f.settle d).bound f.bound := by
  fun_induction settle d f with
  | case1 => exact .inl rfl
  | case2 f g h ih =>
    have hs := Prod.lex_def.mp (bound_step h)
    rw [Prod.lex_def] at ih ⊢
    rw [Prod.ext_iff] at ih
    omega

-- Takes the first record off the queue.
def receive (f : Flow ι ρ) : Option (Outcome ρ) × Flow ι ρ :=
  match f.stream.queue with
  | [] => (none, f)
  | record :: queue =>
    (some record, { f with stream.queue := queue, service := f.service.note .dequeued })

theorem bound_receive {f : Flow ι ρ} (h : f.receive.1.isSome) :
    Prod.Lex (· < ·) (· < ·) f.receive.2.bound f.bound := by
  unfold receive at h ⊢
  split
  next hq => simp [hq] at h
  next hq => simp [bound, Service.note, hq, Prod.lex_def]

-- The next record or failure, or nothing after the end. The worker then makes use of the room.
def next (d : Decoder ι ρ) (f : Flow ι ρ) : Option (Outcome ρ) × Flow ι ρ :=
  let (record, f) := f.receive
  (record, f.settle d)

theorem bound_next {d : Decoder ι ρ} {f : Flow ι ρ} (h : (f.next d).1.isSome) :
    Prod.Lex (· < ·) (· < ·) (f.next d).2.bound f.bound := by
  have hr := Prod.lex_def.mp (bound_receive h)
  have hs := bound_settle d f.receive.2
  simp only [next]
  rw [Prod.lex_def] at hs ⊢
  rw [Prod.ext_iff] at hs
  omega

-- The results of the given number of calls.
def nextMany (d : Decoder ι ρ) : Nat → Flow ι ρ → List (Option (Outcome ρ)) × Flow ι ρ
  | 0, f => ([], f)
  | n + 1, f =>
    let (record, f) := f.next d
    let (records, f) := nextMany d n f
    (record :: records, f)

-- All results that are left.
def drain (d : Decoder ι ρ) (f : Flow ι ρ) : List (Outcome ρ) × Flow ι ρ :=
  match _h : f.next d with
  | (none, f) => ([], f)
  | (some record, g) =>
    let (records, f) := drain d g
    (record :: records, f)
termination_by f.bound
decreasing_by
  have := bound_next (d := d) (f := f)
  simp only [_h] at this
  exact this rfl

-- Cancels the token, and notes whether that was the first time.
def cancel (d : Decoder ι ρ) (f : Flow ι ρ) : Flow ι ρ :=
  let (first, switch) := f.switch.cancel
  settle d { f with switch, service := if first then f.service.note .cancelled else f.service }

-- Cancels the token and lets the worker come to its exit.
def wait (d : Decoder ι ρ) (f : Flow ι ρ) : Flow ι ρ :=
  settle d { f with switch := f.switch.cancel.2 }

-- Gives the stream up: cancels the token, leaves the queue unread, and lets the worker come to its
-- exit.
def drop (d : Decoder ι ρ) (f : Flow ι ρ) : Flow ι ρ :=
  settle d { f with switch := f.switch.cancel.2, stream.attended := false }

end Flow

end ResourceQuery.Enumeration
