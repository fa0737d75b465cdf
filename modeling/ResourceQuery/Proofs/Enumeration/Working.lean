import ResourceQuery.Enumeration.Schedule
import ResourceQuery.Proofs.Enumeration.Cursor

namespace ResourceQuery.Enumeration

variable {ι ρ : Type}

-- The cursor in the hands of a worker.
def Worker.cursor? : Worker ι ρ → Option Cursor
  | .arrived cursor _ | .decoding cursor _ | .ready cursor _ _ | .offering cursor _ _
  | .turning cursor | .pulling cursor | .stopping cursor _ => some cursor
  | .closing _ | .exited _ => none

-- Whether a worker has stopped to give results.
def Worker.isStopping : Worker ι ρ → Bool
  | .stopping _ _ | .closing _ | .exited _ => true
  | _ => false

@[simp]
theorem Worker.cursor?_handedOver (cursor : Cursor) (record : Outcome ρ) (items : List ι) :
    (handedOver cursor record items).cursor? = some cursor := by
  cases record <;> rfl

namespace Flow

-- Why a worker may stop before it has come to the end.
def MayStop (f : Flow ι ρ) : Prop :=
  f.switch.cancelled = true ∨ f.stream.attended = false ∨ f.switch.armed = false

section Fields

variable (f : Flow ι ρ) (w : Worker ι ρ) (record : Outcome ρ) (cancels : Bool)

@[simp]
theorem service_withWorker : (f.withWorker w).service = f.service :=
  rfl

@[simp]
theorem switch_withWorker : (f.withWorker w).switch = f.switch :=
  rfl

@[simp]
theorem worker_withWorker : (f.withWorker w).stream.worker = w :=
  rfl

@[simp]
theorem queue_withWorker : (f.withWorker w).stream.queue = f.stream.queue :=
  rfl

@[simp]
theorem service_enqueue : (f.enqueue record).service = f.service :=
  rfl

@[simp]
theorem queue_enqueue : (f.enqueue record).stream.queue = f.stream.queue ++ [record] :=
  rfl

theorem cancelled_cancelledIf (h : f.switch.cancelled = true) :
    (f.cancelledIf cancels).switch.cancelled = true := by
  cases cancels
  case false => exact h
  case true => exact f.switch.cancelled_cancel

-- Whoever removes the trigger has raised the flag.
theorem cancelled_of_disarmed_cancelledIf
    (h : f.switch.armed = false → f.switch.cancelled = true) :
    (f.cancelledIf cancels).switch.armed = false →
      (f.cancelledIf cancels).switch.cancelled = true := by
  cases cancels
  case false => exact h
  case true => exact fun _ => f.switch.cancelled_cancel

@[simp]
theorem queue_decode (d : Decoder ι ρ) (cursor : Cursor) (item : ι) (items : List ι) :
    (f.decode d cursor item items).stream.queue = f.stream.queue := by
  simp [decode]

@[simp]
theorem service_decode (d : Decoder ι ρ) (cursor : Cursor) (item : ι) (items : List ι) :
    (f.decode d cursor item items).service = f.service.recordDecoding item := by
  simp [decode]

theorem worker_decode (d : Decoder ι ρ) (cursor : Cursor) (item : ι) (items : List ι) :
    (f.decode d cursor item items).stream.worker =
      if d.panics item then .stopping cursor true else .ready cursor (d.decode item) items :=
  rfl

@[simp]
theorem cursor?_decode (d : Decoder ι ρ) (cursor : Cursor) (item : ι) (items : List ι) :
    (f.decode d cursor item items).stream.worker.cursor? = some cursor := by
  rw [worker_decode]
  split <;> rfl

@[simp]
theorem service_pull (cursor : Cursor) :
    (f.pull cursor).service = (cursor.pull f.service).service.forgetNotesSince f.service := by
  simp [pull]

@[simp]
theorem queue_pull (cursor : Cursor) : (f.pull cursor).stream.queue = f.stream.queue := by
  simp [pull]

theorem worker_pull (cursor : Cursor) :
    (f.pull cursor).stream.worker =
      match (cursor.pull f.service).outcome with
      | .ok items => .arrived (cursor.pull f.service).cursor items
      | .error error => .ready (cursor.pull f.service).cursor (.error error) [] :=
  rfl

@[simp]
theorem cursor?_pull (cursor : Cursor) :
    (f.pull cursor).stream.worker.cursor? = some (cursor.pull f.service).cursor := by
  rw [worker_pull]
  split <;> rfl

end Fields

inductive Work (d : Decoder ι ρ) (f : Flow ι ρ) : Flow ι ρ → Prop
  | begin {cursor items} :
    f.stream.worker = .arrived cursor items → f.switch.cancelled = false →
    Work d f (f.withWorker (.decoding cursor items))
  | turn {cursor} :
    f.stream.worker = .decoding cursor [] → Work d f (f.withWorker (.turning cursor))
  | decode {cursor item items} :
    f.stream.worker = .decoding cursor (item :: items) → Work d f (f.decode d cursor item items)
  | offer {cursor record items} :
    f.stream.worker = .ready cursor record items → f.switch.cancelled = false →
    Work d f (f.withWorker (.offering cursor record items))
  | handOver {cursor record items} :
    f.stream.worker = .offering cursor record items → f.stream.attended = true →
    f.stream.hasRoom = true →
    Work d f ((f.enqueue record).withWorker (.handedOver cursor record items))
  | finish {cursor} :
    f.stream.worker = .turning cursor → cursor.finished = true →
    Work d f (f.withWorker (.closing false))
  | proceed {cursor} :
    f.stream.worker = .turning cursor → cursor.finished = false → f.switch.cancelled = false →
    Work d f (f.withWorker (.pulling cursor))
  | pull {cursor} : f.stream.worker = .pulling cursor → Work d f (f.pull cursor)
  | stop {cursor} :
    f.stream.worker.cursor? = some cursor → f.MayStop →
    Work d f (f.withWorker (.stopping cursor false))
  | release {cursor panicked} :
    f.stream.worker = .stopping cursor panicked → Work d f (f.release cursor panicked)
  | close {panicked} :
    f.stream.worker = .closing panicked → Work d f (f.withWorker (.exited panicked))

variable {d : Decoder ι ρ} {f g : Flow ι ρ}

theorem work_of_step (h : f.step? d = some g) : f.Work d g := by
  rw [step?] at h
  split at h
  case h_1 cursor items hw =>
    cases h
    rw [unlessCancelled]
    split
    case isTrue hc => exact .stop (by rw [hw]; rfl) (.inl hc)
    case isFalse hc => exact .begin hw (by simpa using hc)
  case h_2 cursor hw =>
    cases h
    exact .turn hw
  case h_3 cursor item items hw =>
    cases h
    exact .decode hw
  case h_4 cursor record items hw =>
    cases h
    rw [unlessCancelled]
    split
    case isTrue hc => exact .stop (by rw [hw]; rfl) (.inl hc)
    case isFalse hc => exact .offer hw (by simpa using hc)
  case h_5 cursor record items hw =>
    have hc : f.stream.worker.cursor? = some cursor := by rw [hw]; rfl
    rw [offer?] at h
    split at h
    case isTrue ha =>
      cases h
      exact .stop hc (.inr (.inl (by simpa using ha)))
    case isFalse ha =>
      split at h
      case isTrue hr =>
        cases h
        exact .handOver hw (by simpa using ha) hr
      case isFalse =>
        split at h <;> cases h
        exact .stop hc (.inr (.inr (by simp_all)))
  case h_6 cursor hw =>
    cases h
    split
    case isTrue hf => exact .finish hw hf
    case isFalse hf =>
      rw [unlessCancelled]
      split
      case isTrue hc => exact .stop (by rw [hw]; rfl) (.inl hc)
      case isFalse hc => exact .proceed hw (by simpa using hf) (by simpa using hc)
  case h_7 cursor hw =>
    cases h
    exact .pull hw
  case h_8 cursor panicked hw =>
    cases h
    exact .release hw
  case h_9 panicked hw =>
    cases h
    exact .close hw
  case h_10 => cases h

theorem work_of_wake {cursor : Cursor} {record : Outcome ρ} {items : List ι}
    (hw : f.stream.worker = .offering cursor record items) (ha : f.switch.armed = false) :
    f.Work d (f.withWorker (.stopping cursor false)) :=
  .stop (by rw [hw]; rfl) (.inr (.inr ha))

-- A stream before and after its consumer has received a record or a failure.
theorem receive_eq_some_iff {record : Outcome ρ} :
    f.receive = (some record, g) ↔ ∃ queue, f.stream.queue = record :: queue ∧
      g = { f with stream.queue := queue, service := f.service.note .dequeued } := by
  rw [receive]
  cases f.stream.queue <;> simp [eq_comm, and_assoc]

-- What every move keeps is kept by all runs.
theorem Reaches.keeps {P : Flow ι ρ → Prop} {received : List (Outcome ρ)}
    (step : ∀ {f g : Flow ι ρ} {record : Option (Outcome ρ)}, P f → Step d f record g → P g)
    (r : Reaches d f received g) (h : P f) : P g := by
  induction r with
  | refl => exact h
  | tail _ e ih => exact step ih e

structure Sound (f : Flow ι ρ) : Prop where
  coherent : ∀ c, f.stream.worker.cursor? = some c → c.Coherent
  unfinished : ∀ c, f.stream.worker = .pulling c → c.finished = false
  cancelled_of_unattended : f.stream.attended = false → f.switch.cancelled = true
  cancelled_of_disarmed : f.switch.armed = false → f.switch.cancelled = true

theorem sound_new {cursor : Cursor} (h : cursor.Coherent) (s : Service ι) (items : List ι)
    (capacity : Nat) : Sound (⟨s, {}, .new cursor items capacity⟩ : Flow ι ρ) where
  coherent _ hc := Option.some.inj hc ▸ h
  unfinished := nofun
  cancelled_of_unattended := nofun
  cancelled_of_disarmed := nofun

namespace Sound

theorem coherent_of_worker {w : Worker ι ρ} {c : Cursor} (h : f.Sound)
    (hw : f.stream.worker = w) (hc : w.cursor? = some c) : c.Coherent :=
  h.coherent c (hw ▸ hc)

theorem cancelled_of_mayStop (h : f.Sound) (hs : f.MayStop) : f.switch.cancelled = true := by
  rcases hs with hc | ha | ha
  · exact hc
  · exact h.cancelled_of_unattended ha
  · exact h.cancelled_of_disarmed ha

theorem withService (h : f.Sound) (s : Service ι) : Sound { f with service := s } :=
  ⟨h.coherent, h.unfinished, h.cancelled_of_unattended, h.cancelled_of_disarmed⟩

theorem withWorker {w : Worker ι ρ} (h : f.Sound)
    (hc : ∀ c, w.cursor? = some c → c.Coherent) (hu : ∀ c, w = .pulling c → c.finished = false) :
    (f.withWorker w).Sound :=
  ⟨hc, hu, h.cancelled_of_unattended, h.cancelled_of_disarmed⟩

-- The worker goes on with the cursor it has.
theorem goOn {v w : Worker ι ρ} (h : f.Sound) (hv : f.stream.worker = v)
    (hc : w.cursor? = v.cursor?) (hu : ∀ c, w = .pulling c → c.finished = false) :
    (f.withWorker w).Sound :=
  h.withWorker (fun _ hw => h.coherent_of_worker hv (hc ▸ hw)) hu

theorem cancelledIf (h : f.Sound) (cancels : Bool) : (f.cancelledIf cancels).Sound where
  coherent := by simpa using h.coherent
  unfinished := by simpa using h.unfinished
  cancelled_of_unattended := by
    intro ha
    rw [stream_cancelledIf] at ha
    exact f.cancelled_cancelledIf cancels (h.cancelled_of_unattended ha)
  cancelled_of_disarmed := f.cancelled_of_disarmed_cancelledIf cancels h.cancelled_of_disarmed

theorem work (h : f.Sound) (e : f.Work d g) : g.Sound := by
  cases e
  case begin hw _ => exact h.goOn hw rfl nofun
  case turn hw => exact h.goOn hw rfl nofun
  case decode c item items hw =>
    have hd := (h.withService (f.service.recordDecoding item)).cancelledIf (d.cancels item)
    refine hd.goOn (by simpa using hw) ?_ ?_ <;> split
    · rfl
    · rfl
    · exact nofun
    · exact nofun
  case offer hw _ => exact h.goOn hw rfl nofun
  case handOver record items hw _ _ =>
    have he : (f.enqueue record).Sound :=
      ⟨h.coherent, h.unfinished, h.cancelled_of_unattended, h.cancelled_of_disarmed⟩
    cases record
    case ok => exact he.goOn hw rfl nofun
    case error => exact he.goOn hw rfl nofun
  case finish => exact h.withWorker nofun nofun
  case proceed hw hf _ => exact h.goOn hw rfl fun _ hc => by cases hc; exact hf
  case pull c hw =>
    have hc : (c.pull f.service).cursor.Coherent :=
      Cursor.coherent_pull (h.coherent_of_worker hw rfl)
    refine ((h.withService _).cancelledIf _).withWorker ?_ ?_ <;> split
    · exact fun _ he => Option.some.inj he ▸ hc
    · exact fun _ he => Option.some.inj he ▸ hc
    · exact nofun
    · exact nofun
  case stop hw _ => exact h.withWorker (fun _ hc => h.coherent _ (hw.trans hc)) nofun
  case release => exact (h.withService _).withWorker nofun nofun
  case close => exact h.withWorker nofun nofun

theorem step {record : Option (Outcome ρ)} (h : f.Sound) (e : Step d f record g) : g.Sound := by
  cases e
  case work hs => exact h.work (work_of_step hs)
  case wake hw ha => exact h.work (d := d) (work_of_wake hw ha)
  case receive hr =>
    have ⟨_, _, hg⟩ := receive_eq_some_iff.mp hr
    exact hg ▸ ⟨h.coherent, h.unfinished, h.cancelled_of_unattended, h.cancelled_of_disarmed⟩
  case raise => exact ⟨h.coherent, h.unfinished, fun _ => rfl, fun _ => rfl⟩
  case disarm hc => exact ⟨h.coherent, h.unfinished, h.cancelled_of_unattended, fun _ => hc⟩
  case leave hc => exact ⟨h.coherent, h.unfinished, fun _ => hc, h.cancelled_of_disarmed⟩
  case note =>
    exact ⟨h.coherent, h.unfinished, h.cancelled_of_unattended, h.cancelled_of_disarmed⟩

theorem reaches {received : List (Outcome ρ)} (r : Reaches d f received g) (h : f.Sound) :
    g.Sound :=
  r.keeps step h

end Sound

end Flow

end ResourceQuery.Enumeration
