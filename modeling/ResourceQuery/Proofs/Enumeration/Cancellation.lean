import ResourceQuery.Proofs.Enumeration.Discipline

namespace ResourceQuery.Enumeration

variable {ι ρ : Type}

def Call.isPull : Call → Bool
  | pull _ _ => true
  | _ => false

namespace Worker

-- What a worker has begun and no token keeps it from.
def begun : Worker ι ρ → Nat
  | offering _ _ _ | pulling _ => 1
  | _ => 0

theorem begun_le_one (w : Worker ι ρ) : w.begun ≤ 1 := by
  cases w <;> simp [begun]

@[simp]
theorem begun_handedOver (cursor : Cursor) (record : Outcome ρ) (items : List ι) :
    (handedOver cursor record items).begun = 0 := by
  cases record <;> rfl

end Worker

namespace Flow

variable {d : Decoder ι ρ} {f g h : Flow ι ρ} {received : List (Outcome ρ)}

-- The records that were queued and the calls that were made since an earlier state.
structure Since (f : Flow ι ρ) (received queued : List (Outcome ρ)) (calls : List Call)
    (g : Flow ι ρ) : Prop where
  queue_eq : received ++ g.stream.queue = f.stream.queue ++ queued
  calls_eq : g.service.calls = f.service.calls ++ calls

-- No more is queued or pulled than was begun.
def FinishesOnly (f : Flow ι ρ) (received : List (Outcome ρ)) (g : Flow ι ρ) : Prop :=
  ∃ queued calls, f.Since received queued calls g ∧
    queued.length + calls.countP Call.isPull + g.stream.worker.begun ≤ f.stream.worker.begun

namespace FinishesOnly

variable {further : List (Outcome ρ)}

-- Nothing is queued or called.
theorem idle (hq : received ++ g.stream.queue = f.stream.queue)
    (hc : g.service.calls = f.service.calls)
    (hb : g.stream.worker.begun ≤ f.stream.worker.begun) : f.FinishesOnly received g :=
  ⟨[], [], ⟨by simpa using hq, by simpa using hc⟩, by simpa using hb⟩

theorem trans (h₁ : f.FinishesOnly received g) (h₂ : g.FinishesOnly further h) :
    f.FinishesOnly (received ++ further) h := by
  have ⟨queued₁, calls₁, hs₁, hb₁⟩ := h₁
  have ⟨queued₂, calls₂, hs₂, hb₂⟩ := h₂
  refine ⟨queued₁ ++ queued₂, calls₁ ++ calls₂, ⟨?_, ?_⟩, ?_⟩
  · rw [List.append_assoc, hs₂.queue_eq, ← List.append_assoc, hs₁.queue_eq, List.append_assoc]
  · rw [hs₂.calls_eq, hs₁.calls_eq, List.append_assoc]
  · simp only [List.length_append, List.countP_append]
    omega

end FinishesOnly

theorem cancelled_of_work (hc : f.switch.cancelled = true) (e : f.Work d g) :
    g.switch.cancelled = true := by
  cases e
  case decode => exact cancelled_cancelledIf _ _ hc
  case pull => exact cancelled_cancelledIf _ _ hc
  all_goals exact hc

theorem finishesOnly_pull {c : Cursor} (hs : f.Sound) (hw : f.stream.worker = .pulling c) :
    f.FinishesOnly [] (f.pull c) := by
  have hc : c.Coherent := hs.coherent_of_worker hw rfl
  have ⟨x, hx⟩ := hc.exists_context (hs.unfinished c hw)
  have hp := Cursor.pulls_pull_of_some (s := f.service) hc hx
  refine ⟨[], _, ⟨by simp, by simpa using hp.calls_eq⟩, ?_⟩
  have hn : (f.pull c).stream.worker.begun = 0 := by
    rw [worker_pull]
    split <;> rfl
  rw [hn, hw]
  cases f.service.nextAnswer <;>
    simp [abandoned, List.countP_cons, Call.isPull, Worker.begun]

-- A cancelled worker begins nothing.
theorem finishesOnly_of_work (hs : f.Sound) (hc : f.switch.cancelled = true) (e : f.Work d g) :
    f.FinishesOnly [] g := by
  cases e
  case begin hn => simp [hc] at hn
  case turn => exact .idle rfl rfl (Nat.zero_le _)
  case decode c item items hw =>
    have hn : (f.decode d c item items).stream.worker.begun = 0 := by
      rw [worker_decode]
      split <;> rfl
    exact .idle (by simp) (by simp) (by simp [hn])
  case offer hn => simp [hc] at hn
  case handOver record items hw _ _ =>
    refine ⟨[record], [], ⟨rfl, by simp⟩, ?_⟩
    rw [worker_withWorker, Worker.begun_handedOver, hw]
    exact Nat.le_refl 1
  case finish => exact .idle rfl rfl (Nat.zero_le _)
  case proceed hn => simp [hc] at hn
  case pull hw => exact finishesOnly_pull hs hw
  case stop => exact .idle rfl rfl (Nat.zero_le _)
  case release c panicked _ =>
    refine ⟨[], c.context.toList.map .release, ⟨by simp [release], ?_⟩, ?_⟩
    · simp [release, Cursor.calls_release]
    · cases c.context <;> simp [release, Worker.begun, Call.isPull]
  case close => exact .idle rfl rfl (Nat.zero_le _)

theorem finishesOnly_of_step {record : Option (Outcome ρ)} (hs : f.Sound)
    (hc : f.switch.cancelled = true) (e : Step d f record g) :
    f.FinishesOnly record.toList g ∧ g.switch.cancelled = true := by
  cases e
  case work hw =>
    have hd := work_of_step hw
    exact ⟨finishesOnly_of_work hs hc hd, cancelled_of_work hc hd⟩
  case wake hw ha => exact ⟨.idle rfl rfl (Nat.zero_le _), hc⟩
  case receive hr =>
    have ⟨_, hq, hg⟩ := receive_eq_some_iff.mp hr
    subst hg
    exact ⟨.idle hq.symm rfl (Nat.le_refl _), hc⟩
  case raise => exact ⟨.idle rfl rfl (Nat.le_refl _), rfl⟩
  case disarm => exact ⟨.idle rfl rfl (Nat.le_refl _), hc⟩
  case leave => exact ⟨.idle rfl rfl (Nat.le_refl _), hc⟩
  case note => exact ⟨.idle rfl rfl (Nat.le_refl _), hc⟩

theorem finishesOnly_of_reaches (r : Reaches d f received g) (hs : f.Sound)
    (hc : f.switch.cancelled = true) :
    f.FinishesOnly received g ∧ g.switch.cancelled = true := by
  induction r with
  | refl => exact ⟨.idle rfl rfl (Nat.le_refl _), hc⟩
  | tail r e ih =>
    have ⟨hf, hg⟩ := finishesOnly_of_step (hs.reaches r) ih.right e
    exact ⟨ih.left.trans hf, hg⟩

-- What a stopping worker still has to release.
def toRelease (f : Flow ι ρ) : List Call :=
  match f.stream.worker with
  | .stopping c _ => c.context.toList.map .release
  | _ => []

structure CleansUp (f g : Flow ι ρ) : Prop where
  stopping : g.stream.worker.isStopping
  calls_eq : g.service.calls ++ g.toRelease = f.service.calls ++ f.toRelease

theorem CleansUp.work (hc : f.CleansUp g) (e : g.Work d h) : f.CleansUp h := by
  have hs := hc.stopping
  have hcalls := hc.calls_eq
  cases e
  case stop c hw _ =>
    refine ⟨rfl, ?_⟩
    cases hg : g.stream.worker <;> simp_all [toRelease, Worker.isStopping, Worker.cursor?]
  case release hw =>
    exact ⟨rfl, by simpa [toRelease, hw, release, Cursor.calls_release] using hcalls⟩
  case close hw => exact ⟨rfl, by simpa [toRelease, hw] using hcalls⟩
  all_goals simp_all [Worker.isStopping]

theorem CleansUp.step {record : Option (Outcome ρ)} (hc : f.CleansUp g) (e : Step d g record h) :
    f.CleansUp h := by
  cases e
  case work hw => exact hc.work (work_of_step hw)
  case wake hw ha => exact hc.work (d := d) (work_of_wake hw ha)
  case receive hr =>
    have ⟨_, _, hg⟩ := receive_eq_some_iff.mp hr
    exact hg ▸ ⟨hc.stopping, hc.calls_eq⟩
  case raise => exact ⟨hc.stopping, hc.calls_eq⟩
  case disarm => exact ⟨hc.stopping, hc.calls_eq⟩
  case leave => exact ⟨hc.stopping, hc.calls_eq⟩
  case note => exact ⟨hc.stopping, hc.calls_eq⟩

theorem cleansUp_of_reaches (r : Reaches d f received g) (hs : f.stream.worker.isStopping) :
    f.CleansUp g :=
  r.keeps CleansUp.step ⟨hs, rfl⟩

theorem CleansUp.exited (hc : f.CleansUp g) (he : g.stream.worker.hasExited) :
    g.service.calls = f.service.calls ++ f.toRelease := by
  have hn : g.toRelease = [] := by
    cases hw : g.stream.worker <;> simp_all [toRelease, Worker.hasExited]
  simpa [hn] using hc.calls_eq

end Flow

-- In every run of a stream: once it is cancelled, one record is queued or one pull is made at most.
-- When the queue is closed, and only then has the consumer nothing to wait for, the context that
-- was due has been released, and the cursor that the worker stopped with is released before that.
theorem cancellation_prompt_and_clean {config : Config} {search : Search} {d : Decoder ι ρ}
    {s₀ s : Service ι} {stream : Stream ι ρ} {total : Option Nat} {received : List (Outcome ρ)}
    {f : Flow ι ρ} (h : Client.searchStreaming config search s₀ = (.ok (stream, total), s))
    (r : Flow.Reaches d ⟨s, {}, stream⟩ received f) :
    (f.switch.cancelled → ∀ further g, Flow.Reaches d f further g →
      ∃ queued calls, f.Since further queued calls g ∧
        queued.length + calls.countP Call.isPull ≤ 1) ∧
    (f.stream.worker.hasExited → Disciplined (search.opening config) s₀ f.service) ∧
    (∀ c panicked, f.stream.worker = .stopping c panicked → ∀ further g,
      Flow.Reaches d f further g → g.stream.worker.hasExited →
        g.service.calls = f.service.calls ++ c.context.toList.map .release) := by
  have ⟨cursor, items, ho, hs⟩ := Client.openCursor_of_searchStreaming h
  subst hs
  have hsound : f.Sound := (Flow.sound_new (Client.coherent_of_openCursor ho) s items _).reaches r
  refine ⟨fun hc further g rg => ?_, fun he => ?_, fun c panicked hw further g rg he => ?_⟩
  · have ⟨⟨queued, calls, hsince, hle⟩, _⟩ := Flow.finishesOnly_of_reaches rg hsound hc
    have := f.stream.worker.begun_le_one
    exact ⟨queued, calls, hsince, by omega⟩
  · exact (Completed.streaming h r he).disciplined
  · have hclean := Flow.cleansUp_of_reaches rg (by rw [hw]; rfl)
    simpa [Flow.toRelease, hw] using hclean.exited he

-- Cancelled before anything is decoded, a stream gives its context back.
theorem cancellation_prompt_and_clean_at_once :
    let search : Search := { filter := "/*" }
    let s₀ : Service String := { enumerates := [.ok { context := "first", items := ["x"] }] }
    let cursor : Cursor := { context := "first", maxElements := defaultPageSize }
    ∃ (start : Stream String String) (s : Service String) (f g : Flow String String),
      Client.searchStreaming {} search s₀ = (.ok (start, none), s) ∧
      Flow.Reaches .raw ⟨s, {}, start⟩ [] f ∧ f.stream.worker = .stopping cursor false ∧
      f.service.calls = [.enumerate (search.opening {})] ∧
      Flow.Reaches .raw f [] g ∧ g.stream.worker.hasExited ∧
      g.service.calls = [.enumerate (search.opening {}), .release "first"] := by
  intro search s₀ cursor
  let start : Stream String String := .new cursor ["x"] defaultQueueCapacity
  let s := (Client.openCursor {} search s₀).2
  let f := (Flow.raise ⟨s, {}, start⟩).withWorker (.stopping cursor false)
  have h : Client.searchStreaming {} search s₀ = (.ok (start, none), s) := rfl
  have r : Flow.Reaches .raw ⟨s, {}, start⟩ [] f := (Flow.Reaches.single .raise).silent (.work rfl)
  have rg : Flow.Reaches .raw f [] f := .refl
  have rg := rg.works (n := 2) rfl
  have hr := (cancellation_prompt_and_clean h r).right.right cursor false rfl _ _ rg rfl
  exact ⟨start, s, f, _, h, r, rfl, rfl, rg, rfl, hr⟩

end ResourceQuery.Enumeration
