import ResourceQuery.Proofs.Enumeration.Opening
import ResourceQuery.Proofs.Enumeration.Progress

namespace ResourceQuery.Enumeration

variable {ι ρ : Type}

namespace Flow

variable {d : Decoder ι ρ} {f g : Flow ι ρ} {received : List (Outcome ρ)}

-- The moves of the worker, among those of a schedule.
inductive Moves (d : Decoder ι ρ) (f : Flow ι ρ) : Flow ι ρ → Prop
  | work {g : Flow ι ρ} : f.step? d = some g → Moves d f g
  | wake {cursor record items} :
    f.stream.worker = .offering cursor record items → f.switch.armed = false →
    Moves d f (f.withWorker (.stopping cursor false))

-- The queue is closed by the last move of the worker.
def isOpen (f : Flow ι ρ) : Bool :=
  !f.stream.worker.hasExited

-- The worker has not come to its exit, and cannot move.
structure Blocked (d : Decoder ι ρ) (f : Flow ι ρ) : Prop where
  isOpen : f.isOpen = true
  stuck : ∀ g, ¬f.Moves d g

-- The consumer finds the queue empty, and waits because it is open.
structure Awaited (f : Flow ι ρ) : Prop where
  attended : f.stream.attended = true
  isOpen : f.isOpen = true
  queue_eq : f.stream.queue = []

def Fits (f : Flow ι ρ) : Prop :=
  f.stream.queue.length ≤ f.stream.capacity

namespace Fits

theorem work (h : f.Fits) (e : f.Work d g) : g.Fits := by
  rw [Fits, capacity_of_work e]
  cases e
  case decode => simpa [Fits] using h
  case handOver hr =>
    simp only [Stream.hasRoom, decide_eq_true_eq] at hr
    simpa [Fits] using Nat.succ_le_of_lt hr
  case pull => simpa [Fits] using h
  all_goals exact h

theorem step {record : Option (Outcome ρ)} (h : f.Fits) (e : Step d f record g) : g.Fits := by
  cases e
  case work hs => exact h.work (work_of_step hs)
  case wake hw ha => exact h.work (d := d) (work_of_wake hw ha)
  case receive hr =>
    obtain ⟨queue, hq, hg⟩ := receive_eq_some_iff.mp hr
    rw [Fits, hq, List.length_cons] at h
    exact hg ▸ Nat.le_of_succ_le h
  all_goals exact h

theorem reaches (r : Reaches d f received g) (h : f.Fits) : g.Fits :=
  r.keeps step h

end Fits

theorem blocked_iff_step?_eq_none : f.Blocked d ↔ f.isOpen = true ∧ f.step? d = none := by
  constructor
  case mp =>
    intro h
    exact ⟨h.isOpen, Option.eq_none_iff_forall_ne_some.mpr fun g hs => h.stuck g (.work hs)⟩
  case mpr =>
    intro ⟨ho, hn⟩
    refine ⟨ho, fun g m => ?_⟩
    cases m
    case work hs => simp [hn] at hs
    case wake hw ha =>
      -- A worker that can wake up can also go on by itself.
      rcases step?_eq_none_iff.mp hn with he | ⟨_, _, _, _, _, _, harmed⟩
      · simp [hw, Worker.hasExited] at he
      · simp [harmed] at ha

-- What a blocked worker is about, and what would end its waiting.
theorem Fits.blocked_iff (h : f.Fits) :
    f.Blocked d ↔ ∃ cursor record items, f.stream.worker = .offering cursor record items ∧
      f.stream.attended = true ∧ f.stream.queue.length = f.stream.capacity ∧
      f.switch.armed = true := by
  have hfull : f.stream.hasRoom = false ↔ f.stream.queue.length = f.stream.capacity := by
    rw [Fits] at h
    simp only [Stream.hasRoom, decide_eq_false_iff_not]
    omega
  rw [blocked_iff_step?_eq_none, step?_eq_none_iff, ← hfull]
  constructor
  case mp =>
    rintro ⟨ho, hn⟩
    exact hn.resolve_left (by simpa [isOpen] using ho)
  case mpr =>
    intro hw
    refine ⟨?_, .inr hw⟩
    obtain ⟨_, _, _, he, _⟩ := hw
    simp [isOpen, he, Worker.hasExited]

theorem Fits.queue_ne_nil_of_blocked (h : f.Fits) (hc : 0 < f.stream.capacity)
    (hb : f.Blocked d) : f.stream.queue ≠ [] := by
  have ⟨_, _, _, _, _, hl, _⟩ := h.blocked_iff.mp hb
  exact List.ne_nil_of_length_pos (hl ▸ hc)

-- Left alone, a worker works until its exit, or until it is blocked.
theorem closed_or_blocked_settle (d : Decoder ι ρ) (f : Flow ι ρ) :
    (f.settle d).isOpen = false ∨ (f.settle d).Blocked d := by
  cases ho : (f.settle d).isOpen
  case false => exact .inl rfl
  case true => exact .inr (blocked_iff_step?_eq_none.mpr ⟨ho, step?_settle d f⟩)

theorem exists_move_of_not_blocked (ho : f.isOpen = true) (h : ¬f.Blocked d) :
    ∃ g, f.Moves d g := by
  cases hs : f.step? d with
  | none => exact absurd (blocked_iff_step?_eq_none.mpr ⟨ho, hs⟩) h
  | some g => exact ⟨g, .work hs⟩

-- The trigger is removed, or the consumer is gone.
def Freed (f : Flow ι ρ) : Prop :=
  f.switch.armed = false ∨ f.stream.attended = false

theorem armed_cancelledIf (cancels : Bool) (h : f.switch.armed = false) :
    (f.cancelledIf cancels).switch.armed = false := by
  cases cancels
  case false => exact h
  case true =>
    cases hc : f.switch.cancelled <;>
      simp [cancelledIf, Switch.cancel, Switch.raise, Switch.disarm, h, hc]

namespace Freed

theorem work (h : f.Freed) (e : f.Work d g) : g.Freed := by
  refine h.imp (fun ha => ?_) fun ha => (attended_of_work e).trans ha
  cases e
  case decode => exact armed_cancelledIf _ ha
  case pull => exact armed_cancelledIf _ ha
  all_goals exact ha

theorem step {record : Option (Outcome ρ)} (h : f.Freed) (e : Step d f record g) : g.Freed := by
  cases e
  case work hs => exact h.work (work_of_step hs)
  case wake hw ha => exact h.work (d := d) (work_of_wake hw ha)
  case receive hr =>
    have ⟨_, _, hg⟩ := receive_eq_some_iff.mp hr
    exact hg ▸ h
  case disarm => exact .inl rfl
  case leave => exact .inr rfl
  all_goals exact h

theorem reaches (r : Reaches d f received g) (h : f.Freed) : g.Freed :=
  r.keeps step h

theorem not_blocked (h : f.Freed) : ¬f.Blocked d := by
  intro hb
  have ⟨ho, hn⟩ := blocked_iff_step?_eq_none.mp hb
  rcases step?_eq_none_iff.mp hn with he | ⟨_, _, _, _, ha, _, harmed⟩
  · simp [isOpen, he] at ho
  · rcases h with hd | hl
    · simp [harmed] at hd
    · simp [ha] at hl

theorem settle (h : f.Freed) : (f.settle d).isOpen = false :=
  (closed_or_blocked_settle d f).resolve_right (h.reaches (Reaches.settle d f)).not_blocked

end Freed

theorem next_of_closed (h : f.isOpen = false) : f.next d = f.receive := by
  have he : f.receive.2.stream.worker.hasExited := by
    rw [receive]
    split <;> simpa [isOpen] using h
  have hs := settle_eq_of_step?_eq_none (step?_eq_none_iff (d := d).mpr (.inl he))
  exact Prod.ext rfl hs

-- Those who read on get what is left in the queue, and then the end.
theorem drain_of_closed (h : f.isOpen = false) :
    (f.drain d).1 = f.stream.queue ∧ (f.drain d).2.Ended ∧
      (f.drain d).2.next d = (none, (f.drain d).2) := by
  fun_induction drain d f with
  | case1 f g hn =>
    rw [next_of_closed h, receive] at hn
    split at hn <;> cases hn
    case h_1 hq =>
      refine ⟨hq.symm, ⟨by simpa [isOpen] using h, hq⟩, ?_⟩
      rw [next_of_closed h, receive, hq]
  | case2 f record g hn records e hd ih =>
    rw [next_of_closed h, receive] at hn
    split at hn <;> cases hn
    case h_2 queue hq =>
      rw [hd] at ih
      obtain ⟨hr, he⟩ := ih h
      exact ⟨(congrArg (record :: ·) hr).trans hq.symm, he⟩

end Flow

-- The state of a stream at any time, whatever its worker, its consumer and the holders of its token
-- have done. A worker is blocked only by a full queue that can still be read, and not after the
-- first cancellation has removed the trigger or the consumer has gone.
theorem streams_never_deadlock {config : Config} {search : Search} {d : Decoder ι ρ}
    {s₀ s : Service ι} {stream : Stream ι ρ} {total : Option Nat} {received : List (Outcome ρ)}
    {f : Flow ι ρ} (h : Client.searchStreaming config search s₀ = (.ok (stream, total), s))
    (r : Flow.Reaches d ⟨s, {}, stream⟩ received f) :
    (f.Awaited → (∃ g, f.Moves d g) ∧
      ((f.settle d).isOpen = false ∨ (f.settle d).stream.queue ≠ [])) ∧
    (f.Blocked d ↔ ∃ cursor record items, f.stream.worker = .offering cursor record items ∧
      f.stream.attended = true ∧ f.stream.queue.length = max config.queueCapacity 1 ∧
      f.switch.armed = true) ∧
    (∀ further g, Flow.Reaches d f.disarm further g ∨ Flow.Reaches d f.leave further g →
      ¬g.Blocked d ∧ (g.settle d).isOpen = false) ∧
    (f.isOpen = false → (f.drain d).1 = f.stream.queue ∧ (f.drain d).2.Ended ∧
      (f.drain d).2.next d = (none, (f.drain d).2)) := by
  have ⟨cursor, items, _, hs⟩ := Client.openCursor_of_searchStreaming h
  subst hs
  have hnew : Flow.Fits (⟨s, {}, .new cursor items config.queueCapacity⟩ : Flow ι ρ) :=
    Nat.zero_le _
  have hfits : f.Fits := hnew.reaches r
  have hcapacity : f.stream.capacity = max config.queueCapacity 1 := Flow.capacity_of_reaches r
  have hpos : 0 < f.stream.capacity := by omega
  refine ⟨fun ha => ⟨?moves, ?settles⟩, hcapacity ▸ hfits.blocked_iff, fun further g rg => ?freed,
    Flow.drain_of_closed⟩
  case moves =>
    refine Flow.exists_move_of_not_blocked ha.isOpen fun hb => ?_
    exact hfits.queue_ne_nil_of_blocked hpos hb ha.queue_eq
  case settles =>
    have rs : Flow.Reaches d f [] (f.settle d) := .settle d f
    refine (Flow.closed_or_blocked_settle d f).imp_right fun hb => ?_
    exact (hfits.reaches rs).queue_ne_nil_of_blocked (Flow.capacity_of_reaches rs ▸ hpos) hb
  case freed =>
    have hg : g.Freed := by
      rcases rg with rg | rg
      · exact .reaches rg (.inl rfl)
      · exact .reaches rg (.inr rfl)
    exact ⟨hg.not_blocked, hg.settle⟩

-- Of two records one fills the queue. The worker waits with the other one, until it is cancelled.
theorem streams_never_deadlock_full_queue :
    let config : Config := { queueCapacity := 0 }
    let search : Search := { filter := "/*" }
    let s₀ : Service String := {
      enumerates := [.ok { items := ["x", "y"], endOfSequence := true }]
    }
    ∃ (start : Stream String String) (s : Service String) (f : Flow String String),
      Client.searchStreaming config search s₀ = (.ok (start, none), s) ∧
      Flow.Reaches .raw ⟨s, {}, start⟩ [] f ∧ f.stream.queue = [.ok "x"] ∧ f.Blocked .raw ∧
      ¬f.raise.disarm.Blocked .raw := by
  intro config search s₀
  let start : Stream String String :=
    .new { maxElements := defaultPageSize, finished := true } ["x", "y"] 0
  let s := (Client.openCursor config search s₀).2
  have h : Client.searchStreaming config search s₀ = (.ok (start, none), s) := rfl
  have r : Flow.Reaches .raw ⟨s, {}, start⟩ [] ⟨s, {}, start⟩ := .refl
  have r := r.works (n := 6) rfl
  have hb := (streams_never_deadlock h r).right.left.mpr ⟨_, _, _, rfl, rfl, rfl, rfl⟩
  have hfreed := (streams_never_deadlock h (r.silent .raise)).right.right.left _ _ (.inl .refl)
  exact ⟨start, s, _, h, r, rfl, hb, hfreed.left⟩

end ResourceQuery.Enumeration
