import ResourceQuery.Proofs.Enumeration.Opening
import ResourceQuery.Proofs.Enumeration.Progress
import ResourceQuery.Proofs.Enumeration.Walk

namespace ResourceQuery.Enumeration

variable {ι ρ : Type}

namespace Worker

-- What is still to come of a worker that is not disturbed.
def future (d : Decoder ι ρ) (pulls : List (PullAnswer ι)) : Worker ι ρ → Walk ι ρ
  | arrived c items | decoding c items => .ofAnswers d c.maxElements pulls c.context items
  | ready c (.ok record) items | offering c (.ok record) items =>
    { results := [.ok record] } ++ .ofAnswers d c.maxElements pulls c.context items
  | ready c (.error error) _ | offering c (.error error) _ => .failure error c.context
  | turning c | pulling c => .ofAnswers d c.maxElements pulls c.context []
  | stopping c _ => { calls := c.context.toList.map .release }
  | closing _ | exited _ => {}

end Worker

namespace Flow

variable {d : Decoder ι ρ} {f g : Flow ι ρ} {received : List (Outcome ρ)} {whole : Walk ι ρ}

-- What has come of a stream so far. Records in the queue are as good as received.
def past (received : List (Outcome ρ)) (f : Flow ι ρ) : Walk ι ρ :=
  { results := received ++ f.stream.queue } ++ f.service.past

-- The worker is on the walk.
def Ahead (d : Decoder ι ρ) (whole : Walk ι ρ) (received : List (Outcome ρ)) (f : Flow ι ρ) :
    Prop :=
  f.past received ++ f.stream.worker.future d f.service.pulls = whole

-- The worker has left the walk, because of the token or because the decoder has panicked.
structure Astray (d : Decoder ι ρ) (whole : Walk ι ρ) (received : List (Outcome ρ))
    (f : Flow ι ρ) : Prop where
  stopping : f.stream.worker.isStopping
  reason : f.switch.cancelled = true ∨ ∃ item ∈ f.service.decoded, d.panics item
  results_prefix : received ++ f.stream.queue <+: whole.results

def Follows (d : Decoder ι ρ) (whole : Walk ι ρ) (received : List (Outcome ρ))
    (f : Flow ι ρ) : Prop :=
  f.Ahead d whole received ∨ f.Astray d whole received

theorem Ahead.results_prefix (h : f.Ahead d whole received) :
    received ++ f.stream.queue <+: whole.results :=
  ⟨(f.stream.worker.future d f.service.pulls).results, by
    rw [← h]; simp [past, Service.past]⟩

theorem Follows.results_prefix (h : f.Follows d whole received) :
    received ++ f.stream.queue <+: whole.results :=
  h.elim Ahead.results_prefix Astray.results_prefix

theorem Ahead.work (h : f.Ahead d whole received) (hf : f.Sound) (e : f.Work d g) :
    g.Follows d whole received := by
  cases e
  case begin hw _ => exact .inl (by simpa [Ahead, past, hw, Worker.future] using h)
  case turn hw => exact .inl (by simpa [Ahead, past, hw, Worker.future] using h)
  case decode c item items hw =>
    by_cases hp : d.panics item
    case pos =>
      refine .inr ⟨?_, .inr ⟨item, by simp, hp⟩, by simpa using h.results_prefix⟩
      simp [worker_decode, hp, Worker.isStopping]
    case neg =>
      refine .inl (Eq.trans ?_ h)
      simp only [past, worker_decode, hp, hw, Worker.future]
      rw [Walk.ofAnswers_eq_through _ _ _ _ (item :: items)]
      cases hr : d.decode item with
      | ok record =>
        rw [Walk.through_ok hr, ← Walk.ofAnswers_eq_through]
        ext1 <;> simp [Service.past]
      | error error =>
        rw [Walk.through_error hr]
        ext1 <;> simp [Walk.failure, Service.past]
  case offer record _ hw _ =>
    refine .inl ?_
    cases record <;> simpa [Ahead, past, hw, Worker.future] using h
  case handOver c record items hw _ _ =>
    refine .inl (Eq.trans ?_ h)
    simp only [past, hw]
    cases record <;> ext1 <;>
      simp [Worker.handedOver, Worker.future, Walk.failure, Service.past]
  case finish c hw hfinished =>
    have hc : c.Coherent := hf.coherent_of_worker hw rfl
    have hx : c.context = none := by simpa [Cursor.Coherent, hfinished] using hc
    exact .inl (by simpa [Ahead, past, hw, Worker.future, hx, Walk.ofAnswers_none_nil] using h)
  case proceed hw _ _ => exact .inl (by simpa [Ahead, past, hw, Worker.future] using h)
  case pull c hw =>
    refine .inl (Eq.trans ?_ h)
    have hc : c.Coherent := hf.coherent_of_worker hw rfl
    obtain ⟨x, hx⟩ := hc.exists_context (hf.unfinished c hw)
    simp only [past, worker_pull, hw, Walk.append_assoc, queue_pull]
    congr 1
    cases ho : (c.pull f.service).outcome with
    | ok items =>
      have hw := Cursor.past_append_pull_ok (d := d) hc hx ho
      have hm := c.maxElements_pull f.service hc
      simpa [Worker.future, hm, Service.past] using hw.symm
    | error error =>
      have hw := Cursor.past_append_pull_error (d := d) hc hx ho
      have hn := Cursor.context_pull_error hc hx ho
      simpa [Worker.future, Walk.failure, hn, Service.past] using hw.symm
  case stop hw hs =>
    exact .inr ⟨rfl, .inl (hf.cancelled_of_mayStop hs), h.results_prefix⟩
  case release c panicked hw =>
    refine .inl (Eq.trans ?_ h)
    simp only [past, hw]
    ext1 <;> simp [release, Worker.future, Service.past, Cursor.calls_release]
  case close hw => exact .inl (by simpa [Ahead, past, hw, Worker.future] using h)

-- Once it has left the walk, a worker only cleans up.
theorem Astray.work (h : f.Astray d whole received) (e : f.Work d g) :
    g.Astray d whole received := by
  have hs := h.stopping
  cases e
  case stop => exact ⟨rfl, h.reason, h.results_prefix⟩
  case release => exact ⟨rfl, by simpa [release] using h.reason, h.results_prefix⟩
  case close => exact ⟨rfl, h.reason, h.results_prefix⟩
  all_goals simp_all [Worker.isStopping]

theorem Follows.work (h : f.Follows d whole received) (hf : f.Sound) (e : f.Work d g) :
    g.Follows d whole received :=
  h.elim (fun ha => ha.work hf e) fun ha => .inr (ha.work e)

-- What others do leaves the walk as it is, and takes no cancellation back.
theorem Follows.congr {further : List (Outcome ρ)} (h : f.Follows d whole received)
    (hw : g.stream.worker = f.stream.worker) (hp : g.service.pulls = f.service.pulls)
    (hpast : g.past further = f.past received)
    (hc : f.switch.cancelled = true → g.switch.cancelled = true) : g.Follows d whole further := by
  cases h
  case inl ha => exact .inl (by rw [Ahead, hw, hp, hpast]; exact ha)
  case inr ha =>
    have ⟨hr, _, hd⟩ := Walk.ext_iff.mp hpast
    simp only [past, Service.past, Walk.results_append, Walk.decoded_append, List.append_nil,
      List.nil_append] at hr hd
    exact .inr ⟨hw ▸ ha.stopping, ha.reason.imp hc fun hi => hd ▸ hi, hr ▸ ha.results_prefix⟩

theorem Follows.step {record : Option (Outcome ρ)} (h : f.Follows d whole received) (hf : f.Sound)
    (e : Step d f record g) : g.Follows d whole (received ++ record.toList) := by
  cases e
  case work hs => simpa using h.work hf (work_of_step hs)
  case wake hw ha => simpa using h.work hf (work_of_wake hw ha)
  case receive hr =>
    have ⟨_, hq, hg⟩ := receive_eq_some_iff.mp hr
    subst hg
    refine h.congr rfl rfl ?_ id
    ext1 <;> simp [past, Service.past, hq]
  case raise => exact h.congr rfl rfl (by simp [past, Flow.raise]) fun _ => rfl
  case disarm => exact h.congr rfl rfl (by simp [past, Flow.disarm]) id
  case leave => exact h.congr rfl rfl (by simp [past, Flow.leave]) id
  case note => exact h.congr rfl rfl (by simp [past, Flow.note, Service.past]) id

theorem Follows.reaches (r : Reaches d f received g) (h : f.Follows d whole []) (hf : f.Sound) :
    g.Follows d whole received := by
  induction r with
  | refl => exact h
  | tail r e ih => exact ih.step (hf.reaches r) e

theorem Ahead.exited {results : List (Outcome ρ)} {s : Service ι}
    (h : f.Ahead d ({ results := results } ++ s.past) received) (he : f.stream.worker.hasExited) :
    received ++ f.stream.queue = results ∧ f.service.calls = s.calls ∧
      f.service.decoded = s.decoded := by
  have hn : f.stream.worker.future d f.service.pulls = {} := by
    cases hw : f.stream.worker <;> simp_all [Worker.hasExited, Worker.future]
  simpa [Ahead, hn, past, Service.past, Walk.ext_iff] using h

end Flow

-- A session on demand and a stream that begin with the same cursor and the same items.
theorem future_new (d : Decoder ι ρ) (cursor : Cursor) (items : List ι) (capacity : Nat)
    (s : Service ι) :
    (Flow.past [] (⟨s, {}, .new cursor items capacity⟩ : Flow ι ρ)) ++
        (Stream.new cursor items capacity : Stream ι ρ).worker.future d s.pulls =
      s.past ++ OnDemand.future d { cursor, buffer := items } s := by
  simp [Flow.past, Stream.new, Worker.future, OnDemand.future, Service.past]

theorem failsLast_drain {d : Decoder ι ρ} {o : OnDemand ι} {s : Service ι}
    (h : o.cursor.Coherent) : FailsLast (o.drain d s).1 := by
  have hw := congrArg Walk.results (OnDemand.past_append_future_drain (d := d) (s := s) h)
  simp only [Service.past, Walk.results_append, List.append_nil, List.nil_append] at hw
  rw [← hw, OnDemand.future]
  split
  case isTrue => exact .nil
  case isFalse => exact Walk.failsLast_ofAnswers ..

section New

variable {d : Decoder ι ρ} {cursor : Cursor} {items : List ι} {capacity : Nat} {s : Service ι}
variable {received : List (Outcome ρ)} {f : Flow ι ρ}

theorem follows_of_reaches_new (hc : cursor.Coherent)
    (r : Flow.Reaches d ⟨s, {}, .new cursor items capacity⟩ received f) :
    f.Follows d ({ results := (OnDemand.drain d { cursor, buffer := items } s).1 } ++
      (OnDemand.drain d { cursor, buffer := items } s).2.2.past) received := by
  have hnew := (future_new d cursor items capacity s).trans (OnDemand.past_append_future_drain hc)
  exact .reaches r (.inl hnew) (Flow.sound_new hc s items capacity)

theorem readable_of_reaches_new
    (r : Flow.Reaches d ⟨s, {}, .new cursor items capacity⟩ received f)
    (ha : f.stream.attended = true) : f.Readable where
  attended := ha
  capacity_pos := by
    rw [Flow.capacity_of_reaches r]
    exact Nat.lt_of_lt_of_le Nat.one_pos (Nat.le_max_right capacity 1)

-- A stream that is left alone and read to the end gives what a session on demand gives.
theorem drain_new_eq (hc : cursor.Coherent)
    (hq : Flow.Quiet d (⟨s, {}, .new cursor items capacity⟩ : Flow ι ρ))
    (hp : ∀ item, d.panics item = false) :
    (Flow.drain d (Flow.settle d ⟨s, {}, .new cursor items capacity⟩)).1 =
      (OnDemand.drain d { cursor, buffer := items } s).1 := by
  have ⟨r, he⟩ := (readable_of_reaches_new (d := d) .refl rfl).reaches_end (d := d)
    (f := ⟨s, {}, .new cursor items capacity⟩)
  have hs := hq.settle.left.switch_drain.trans hq.settle.right
  cases follows_of_reaches_new hc r
  case inl ha => simpa [he.queue_eq] using (ha.exited he.exited).left
  case inr ha => simpa [hs, hp] using ha.reason

end New

-- Whatever the schedule, the records and the failure come in the order of a session on demand, and
-- a consumer who reads on comes to the end. All of them come, by the same calls, unless the stream
-- is cancelled or the decoder panics.
theorem streaming_agrees {config : Config} {search : Search} {d : Decoder ι ρ} {s₀ s : Service ι}
    {stream : Stream ι ρ} {total : Option Nat}
    (h : Client.searchStreaming config search s₀ = (.ok (stream, total), s)) :
    ∃ o : OnDemand ι, Client.searchOnDemand config search s₀ = (.ok o, s) ∧
      FailsLast (o.drain d s).1 ∧
      ∀ received g, Flow.Reaches d ⟨s, {}, stream⟩ received g →
        received ++ g.stream.queue <+: (o.drain d s).1 ∧
        (g.stream.attended → ∃ rest e, Flow.drain d (g.settle d) = (rest, e) ∧
          Flow.Reaches d g rest e ∧ e.Ended) ∧
        (g.switch.cancelled = false → g.stream.worker.hasExited →
          (∃ item ∈ g.service.decoded, d.panics item) ∨
          received ++ g.stream.queue = (o.drain d s).1 ∧
          g.service.calls = (o.drain d s).2.2.calls ∧
          g.service.decoded = (o.drain d s).2.2.decoded) := by
  have ⟨cursor, items, ho, hs⟩ := Client.openCursor_of_searchStreaming h
  have hc := Client.coherent_of_openCursor ho
  let o : OnDemand ι := { cursor, buffer := items }
  have hd : o.cursor.Coherent := hc
  refine ⟨o, by simp [Client.searchOnDemand, ho, o], failsLast_drain hd, fun received g r => ?_⟩
  subst hs
  have hf := follows_of_reaches_new hc r
  refine ⟨by simpa [Service.past] using hf.results_prefix, fun ha => ?_, fun hcancelled he => ?_⟩
  case refine_1 => exact ⟨_, _, rfl, (readable_of_reaches_new r ha).reaches_end⟩
  case refine_2 =>
    cases hf
    case inl ha => exact .inr (ha.exited he)
    case inr ha => exact .inl (ha.reason.resolve_left (by simp [hcancelled]))

-- Two pages and a queue for one record. Before it exits the worker waits twice, each time for the
-- consumer to read.
theorem streaming_agrees_two_pages :
    let config : Config := { queueCapacity := 1 }
    let search : Search := { filter := "/*" }
    let s₀ : Service String := {
      enumerates := [.ok { context := "first", items := ["x", "y"] }]
      pulls := [{ outcome := .ok { items := ["z"], endOfSequence := true } }]
    }
    ∃ o s f g, Client.searchOnDemand config search s₀ = (.ok o, s) ∧
      Flow.Reaches .raw ⟨s, {}, .new o.cursor o.buffer 1⟩ [.ok "x"] f ∧
      f.stream.queue = [.ok "y"] ∧ [.ok "x", .ok "y"] <+: (o.drain .raw s).1 ∧
      Flow.Reaches .raw f [.ok "y", .ok "z"] g ∧
      (o.drain .raw s).1 = [.ok "x", .ok "y", .ok "z"] ∧
      (o.drain .raw s).2.2.calls = g.service.calls ∧
      g.service.calls = [.enumerate (search.opening config), .pull "first" defaultPageSize] := by
  intro config search s₀
  let s := (Client.openCursor config search s₀).2
  let cursor : Cursor := { context := "first", maxElements := defaultPageSize }
  let start : Flow String String := ⟨s, {}, .new cursor ["x", "y"] 1⟩
  let f : Flow String String := ⟨((s.recordDecoding "x").recordDecoding "y").note .dequeued, {},
    { worker := .decoding cursor [], queue := [.ok "y"], capacity := 1 }⟩
  have hs : Client.searchStreaming config search s₀ = (.ok (start.stream, none), s) := rfl
  have r : Flow.Reaches .raw start [] start := .refl
  have r : Flow.Reaches .raw start [.ok "x"] f :=
    ((r.works (n := 6) rfl).tail (.receive rfl rfl)).works (n := 1) rfl
  have rg : Flow.Reaches .raw f [] f := .refl
  have rg := (rg.works (n := 6) rfl).tail (.receive rfl rfl)
  have rg := (rg.works (n := 4) rfl).tail (.receive rfl rfl)
  have ⟨o, ho, _, h⟩ := streaming_agrees (d := .raw) hs
  have hp := (h _ _ r).left
  have ⟨hresults, hcalls, _⟩ :=
    ((h _ _ (r.trans rg)).right.right rfl rfl).resolve_left (by simp [Decoder.raw])
  cases ho
  exact ⟨_, _, _, _, rfl, r, rfl, hp, rg, hresults.symm, hcalls.symm, rfl⟩

end ResourceQuery.Enumeration
