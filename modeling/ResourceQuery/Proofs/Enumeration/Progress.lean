import ResourceQuery.Proofs.Enumeration.Working

namespace ResourceQuery.Enumeration.Flow

variable {ι ρ : Type} {d : Decoder ι ρ} {f g : Flow ι ρ} {received : List (Outcome ρ)}

theorem capacity_of_work (e : f.Work d g) : g.stream.capacity = f.stream.capacity := by
  cases e
  case decode => simp [decode, withWorker]
  case pull => simp [pull, withWorker]
  all_goals rfl

theorem capacity_of_reaches (r : Reaches d f received g) :
    g.stream.capacity = f.stream.capacity := by
  induction r with
  | refl => rfl
  | tail _ e ih =>
    cases e
    case work hs => exact (capacity_of_work (work_of_step hs)).trans ih
    case receive hr =>
      obtain ⟨_, _, hg⟩ := receive_eq_some_iff.mp hr
      exact hg ▸ ih
    all_goals exact ih

theorem attended_of_work (e : f.Work d g) : g.stream.attended = f.stream.attended := by
  cases e
  case decode => simp [decode, withWorker]
  case pull => simp [pull, withWorker]
  all_goals rfl

-- Somebody can still read, and there is room in a queue that was read.
structure Readable (f : Flow ι ρ) : Prop where
  attended : f.stream.attended = true
  capacity_pos : 0 < f.stream.capacity

namespace Readable

theorem work (h : f.Readable) (e : f.Work d g) : g.Readable :=
  ⟨(attended_of_work e).trans h.attended, (capacity_of_work e).symm ▸ h.capacity_pos⟩

theorem settle (d : Decoder ι ρ) (h : f.Readable) : (f.settle d).Readable := by
  fun_induction Flow.settle d f with
  | case1 => exact h
  | case2 _ _ hs ih => exact ih (h.work (work_of_step hs))

theorem receive (h : f.Readable) : f.receive.2.Readable := by
  rw [Flow.receive]
  split
  · exact h
  · exact ⟨h.attended, h.capacity_pos⟩

end Readable

theorem step?_settle (d : Decoder ι ρ) (f : Flow ι ρ) : (f.settle d).step? d = none := by
  fun_induction settle d f with
  | case1 _ hs => exact hs
  | case2 _ _ _ ih => exact ih

theorem settle_eq_of_step?_eq_none (h : f.step? d = none) : f.settle d = f := by
  rw [settle]
  split
  case h_1 => rfl
  case h_2 hs => simp [h] at hs

theorem offer?_eq_none_iff {cursor : Cursor} {record : Outcome ρ} {items : List ι} :
    f.offer? cursor record items = none ↔
      f.stream.attended = true ∧ f.stream.hasRoom = false ∧ f.switch.armed = true := by
  rw [offer?]
  cases f.stream.attended <;> cases f.stream.hasRoom <;> cases f.switch.armed <;> simp

-- A worker waits only for room in the queue, as long as somebody can read and the trigger is there.
theorem step?_eq_none_iff :
    f.step? d = none ↔ f.stream.worker.hasExited ∨
      ∃ cursor record items, f.stream.worker = .offering cursor record items ∧
        f.stream.attended = true ∧ f.stream.hasRoom = false ∧ f.switch.armed = true := by
  rw [step?]
  split
  case h_5 hw => simp [hw, Worker.hasExited, offer?_eq_none_iff]
  case h_10 hw => simp [hw, Worker.hasExited]
  all_goals simp_all [Worker.hasExited]

theorem exited_or_full_of_step?_eq_none (h : f.step? d = none) :
    f.stream.worker.hasExited = true ∨ f.stream.hasRoom = false :=
  (step?_eq_none_iff.mp h).imp_right fun ⟨_, _, _, _, _, hr, _⟩ => hr

-- With the queue empty, a worker does not wait.
theorem Readable.exited (h : f.Readable) (hs : f.step? d = none) (hq : f.stream.queue = []) :
    f.stream.worker.hasExited := by
  rcases exited_or_full_of_step?_eq_none hs with he | hr
  · exact he
  · have := h.capacity_pos
    simp [Stream.hasRoom, hq] at hr
    omega

-- The end of a stream: the queue is closed, and everything is received.
structure Ended (f : Flow ι ρ) : Prop where
  exited : f.stream.worker.hasExited
  queue_eq : f.stream.queue = []

theorem Readable.ended_of_next (h : f.Readable) (hs : f.step? d = none)
    (hn : f.next d = (none, g)) : g.Ended := by
  rw [next] at hn
  cases hq : f.stream.queue
  case nil =>
    simp only [Flow.receive, hq, settle_eq_of_step?_eq_none hs, Prod.mk.injEq] at hn
    exact hn.right ▸ ⟨h.exited hs hq, hq⟩
  case cons => simp [Flow.receive, hq] at hn

theorem Readable.drain (h : f.Readable) (hs : f.step? d = none) :
    Reaches d f (f.drain d).1 (f.drain d).2 ∧ (f.drain d).2.Ended := by
  fun_induction Flow.drain d f with
  | case1 f g hn =>
    have hr : Reaches d f _ _ := .next d h.attended
    rw [hn] at hr
    exact ⟨hr, h.ended_of_next hs hn⟩
  | case2 f record g hn records e hd ih =>
    have hr : Reaches d f _ _ := .next d h.attended
    have hg : (f.next d).2.Readable := h.receive.settle d
    have hsg : (f.next d).2.step? d = none := step?_settle d f.receive.2
    rw [hn] at hr hg hsg
    have ih := ih hg hsg
    rw [hd] at ih
    exact ⟨hr.trans ih.left, ih.right⟩

-- Whatever has happened to a stream, a consumer who reads on comes to the end.
theorem Readable.reaches_end (h : f.Readable) :
    Reaches d f ((f.settle d).drain d).1 ((f.settle d).drain d).2 ∧
      ((f.settle d).drain d).2.Ended :=
  have ⟨r, he⟩ := (h.settle d).drain (step?_settle d f)
  ⟨(Reaches.settle d f).trans r, he⟩

structure Quiet (d : Decoder ι ρ) (f : Flow ι ρ) : Prop where
  decoder : ∀ item, d.cancels item = false
  answers : ∀ answer ∈ f.service.pulls, answer.cancels = false

namespace Quiet

theorem work (h : f.Quiet d) (e : f.Work d g) : g.Quiet d ∧ g.switch = f.switch := by
  cases e
  case decode c item items hw =>
    refine ⟨⟨h.decoder, by simpa using h.answers⟩, ?_⟩
    simp [decode, cancelledIf, h.decoder item]
  case pull c hw =>
    refine ⟨⟨h.decoder, fun answer ha => h.answers answer ?_⟩, ?_⟩
    · rw [service_pull, Service.pulls_forgetNotesSince, Cursor.pulls_pull] at ha
      split at ha
      · exact ha
      · exact List.mem_of_mem_tail ha
    · simp [Flow.pull, cancelledIf, c.cancels_pull h.answers]
  case release => exact ⟨⟨h.decoder, by simpa [Flow.release] using h.answers⟩, rfl⟩
  all_goals exact ⟨⟨h.decoder, h.answers⟩, rfl⟩

theorem settle (h : f.Quiet d) : (f.settle d).Quiet d ∧ (f.settle d).switch = f.switch := by
  fun_induction Flow.settle d f with
  | case1 => exact ⟨h, rfl⟩
  | case2 _ _ hs ih =>
    obtain ⟨hg, hsg⟩ := h.work (work_of_step hs)
    obtain ⟨hq, hsw⟩ := ih hg
    exact ⟨hq, hsw.trans hsg⟩

theorem next (h : f.Quiet d) : (f.next d).2.Quiet d ∧ (f.next d).2.switch = f.switch := by
  have hr : f.receive.2.Quiet d ∧ f.receive.2.switch = f.switch := by
    rw [receive]
    split
    · exact ⟨h, rfl⟩
    · exact ⟨⟨h.decoder, h.answers⟩, rfl⟩
  obtain ⟨hq, hs⟩ := hr.left.settle
  exact ⟨hq, hs.trans hr.right⟩

theorem switch_drain (h : f.Quiet d) : (f.drain d).2.switch = f.switch := by
  fun_induction Flow.drain d f with
  | case1 f g hn =>
    obtain ⟨_, hs⟩ := h.next
    rw [hn] at hs
    exact hs
  | case2 f record g hn records e hd ih =>
    obtain ⟨hq, hs⟩ := h.next
    rw [hn] at hq hs
    have ih := ih hq
    rw [hd] at ih
    exact ih.trans hs

end Quiet

end ResourceQuery.Enumeration.Flow
