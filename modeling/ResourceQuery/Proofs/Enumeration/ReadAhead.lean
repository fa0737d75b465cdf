import ResourceQuery.Proofs.Enumeration.Course
import ResourceQuery.Proofs.Enumeration.Place
import ResourceQuery.Proofs.Enumeration.Waiting

namespace ResourceQuery.Enumeration

variable {ι ρ : Type}

-- What a page is to give: the outcomes of its items, or the failure that came in its place.
def Service.outcomes (s : Service ι) (d : Decoder ι ρ) (n : Nat) : List (Outcome ρ) :=
  match pageOf (s.answer n) with
  | .ok items => items.map d.decode
  | .error error => [.error error]

-- Results without a failure.
def Flawless (results : List (Outcome ρ)) : Prop :=
  ∃ records : List ρ, results = records.map .ok

namespace Flawless

variable {results further : List (Outcome ρ)}

theorem nil : Flawless ([] : List (Outcome ρ)) :=
  ⟨[], rfl⟩

theorem append (h₁ : Flawless results) (h₂ : Flawless further) : Flawless (results ++ further) := by
  obtain ⟨records₁, rfl⟩ := h₁
  obtain ⟨records₂, rfl⟩ := h₂
  exact ⟨records₁ ++ records₂, by simp⟩

theorem snoc (h : Flawless results) (record : ρ) : Flawless (results ++ [.ok record]) :=
  h.append ⟨[record], rfl⟩

-- A page that gives records only has arrived.
theorem page_eq {s : Service ι} {d : Decoder ι ρ} {n : Nat} (h : Flawless (s.outcomes d n)) :
    pageOf (s.answer n) = .ok (s.page n) ∧ (s.page n).map d.decode = s.outcomes d n := by
  cases ha : pageOf (s.answer n) with
  | ok items => simp [Service.page_eq ha, Service.outcomes, ha]
  | error error =>
    have ⟨records, hr⟩ := h
    cases records <;> simp [Service.outcomes, ha] at hr

end Flawless

-- Records that are received or queued are all received but for those in the queue.
theorem length_le_of_prefix {records : List ρ} {received queue : List (Outcome ρ)}
    (h : records.map .ok <+: received ++ queue) :
    records.length ≤ (successes received).length + queue.length := by
  induction received generalizing records with
  | nil => simpa [successes] using h.length_le
  | cons result received ih =>
    cases records with
    | nil => exact Nat.zero_le _
    | cons record records =>
      rw [List.map_cons, List.cons_append, List.cons_prefix_cons] at h
      have hr := ih h.right
      rw [← h.left, successes, List.length_cons, List.length_cons]
      omega

namespace Worker

-- The items in the hands of a worker that are still to be decoded.
def items : Worker ι ρ → List ι
  | arrived _ items | decoding _ items | ready _ _ items | offering _ _ items => items
  | turning _ | pulling _ | stopping _ _ | closing _ | exited _ => []

-- What a worker is to hand over before it turns to the next page.
def ahead (d : Decoder ι ρ) : Worker ι ρ → List (Outcome ρ)
  | arrived _ items | decoding _ items => items.map d.decode
  | ready _ record items | offering _ record items => record :: items.map d.decode
  | turning _ | pulling _ | stopping _ _ | closing _ | exited _ => []

-- A worker that stops drops what it has in its hands.
theorem eq_nil_of_isStopping {w : Worker ι ρ} (h : w.isStopping = true) (d : Decoder ι ρ) :
    w.items = [] ∧ w.ahead d = [] := by
  cases w <;> simp_all [isStopping, items, ahead]

end Worker

namespace Flow

variable {d : Decoder ι ρ} {f g : Flow ι ρ} {s₀ : Service ι} {n : Nat} {done : List ι}
variable {sent received : List (Outcome ρ)}

-- A worker divides its page into what is done and what it has in its hands.
structure Divides (d : Decoder ι ρ) (s₀ : Service ι) (n : Nat) (done : List ι)
    (sent : List (Outcome ρ)) (w : Worker ι ρ) : Prop where
  page_eq : s₀.page n = done ++ w.items
  outcomes_eq : s₀.outcomes d n = sent ++ w.ahead d
  flawless : Flawless sent

-- All records of the earlier pages are queued or received, and then some results of the latest one.
structure Paced (d : Decoder ι ρ) (s₀ : Service ι) (n : Nat) (done : List ι)
    (sent received : List (Outcome ρ)) (f : Flow ι ρ) : Prop where
  place : Place s₀ n done f.service
  flawless : Flawless ((s₀.pages n).map d.decode)
  queue_eq : received ++ f.stream.queue = (s₀.pages n).map d.decode ++ sent
  done_prefix : done <+: s₀.page n
  sent_prefix : sent <+: s₀.outcomes d n
  divides : f.stream.worker.isStopping = false → Divides d s₀ n done sent f.stream.worker

namespace Paced

-- A worker that goes on keeps what it has in its hands.
theorem withWorker {v w : Worker ι ρ} (h : f.Paced d s₀ n done sent received)
    (hv : f.stream.worker = v) (hw : w.isStopping = false →
      v.isStopping = false ∧ w.items = v.items ∧ w.ahead d = v.ahead d) :
    (f.withWorker w).Paced d s₀ n done sent received where
  place := h.place
  flawless := h.flawless
  queue_eq := h.queue_eq
  done_prefix := h.done_prefix
  sent_prefix := h.sent_prefix
  divides hs := by
    have ⟨hf, hi, ha⟩ := hw hs
    have hd := h.divides (hv ▸ hf)
    rw [hv] at hd
    exact ⟨hi ▸ hd.page_eq, ha ▸ hd.outcomes_eq, hd.flawless⟩

-- What others do leaves the worker where it is.
theorem congr {further : List (Outcome ρ)} (h : f.Paced d s₀ n done sent received)
    (hw : g.stream.worker = f.stream.worker)
    (hq : further ++ g.stream.queue = received ++ f.stream.queue)
    (hs : Place s₀ n done g.service) : g.Paced d s₀ n done sent further where
  place := hs
  flawless := h.flawless
  queue_eq := hq.trans h.queue_eq
  done_prefix := h.done_prefix
  sent_prefix := h.sent_prefix
  divides := hw ▸ h.divides

theorem decode {c : Cursor} {item : ι} {items : List ι} (h : f.Paced d s₀ n done sent received)
    (hw : f.stream.worker = .decoding c (item :: items)) :
    (f.decode d c item items).Paced d s₀ n (done ++ [item]) sent received := by
  have hd : Divides d s₀ n done sent (.decoding c (item :: items)) :=
    hw ▸ h.divides (by rw [hw]; rfl)
  have hpage : s₀.page n = done ++ [item] ++ items := by rw [hd.page_eq]; simp [Worker.items]
  constructor
  case place => simpa using h.place.recordDecoding item
  case flawless => exact h.flawless
  case queue_eq => simpa using h.queue_eq
  case done_prefix => exact ⟨items, hpage.symm⟩
  case sent_prefix => exact h.sent_prefix
  case divides =>
    rw [worker_decode]
    split
    case isTrue => exact nofun
    case isFalse => exact fun _ => ⟨hpage, hd.outcomes_eq, hd.flawless⟩

theorem handOver {c : Cursor} {record : Outcome ρ} {items : List ι}
    (h : f.Paced d s₀ n done sent received) (hw : f.stream.worker = .offering c record items) :
    ((f.enqueue record).withWorker (.handedOver c record items)).Paced d s₀ n done
      (sent ++ [record]) received := by
  have hd : Divides d s₀ n done sent (.offering c record items) :=
    hw ▸ h.divides (by rw [hw]; rfl)
  have hout : s₀.outcomes d n = sent ++ [record] ++ items.map d.decode := by
    rw [hd.outcomes_eq]
    simp [Worker.ahead]
  constructor
  case place => exact h.place
  case flawless => exact h.flawless
  case queue_eq => simp [← List.append_assoc, h.queue_eq]
  case done_prefix => exact h.done_prefix
  case sent_prefix => exact ⟨_, hout.symm⟩
  case divides =>
    cases record
    case error => exact nofun
    case ok record => exact fun _ => ⟨hd.page_eq, hout, hd.flawless.snoc record⟩

-- A page is pulled when the one before it is in the queue.
theorem pull {c : Cursor} (h : f.Paced d s₀ n done sent received) (hf : f.Sound)
    (hw : f.stream.worker = .pulling c) : (f.pull c).Paced d s₀ (n + 1) [] [] received := by
  have hd : Divides d s₀ n done sent (.pulling c) := hw ▸ h.divides (by rw [hw]; rfl)
  have hout : s₀.outcomes d n = sent := by simpa [Worker.ahead] using hd.outcomes_eq
  have hdone : s₀.page n = done := by simpa [Worker.items] using hd.page_eq
  have ⟨hpage, hmap⟩ := Flawless.page_eq (hout ▸ hd.flawless)
  have hc : c.Coherent := hf.coherent_of_worker hw rfl
  have ⟨x, hx⟩ := hc.exists_context (hf.unfinished c hw)
  have hplace : Place s₀ (n + 1) [] (c.pull f.service).service :=
    h.place.pull hc hx (hdone ▸ hpage)
  constructor
  case place => exact service_pull f c ▸ hplace.congr rfl rfl rfl
  case flawless =>
    rw [Service.pages_succ, List.map_append, hmap, hout]
    exact h.flawless.append hd.flawless
  case queue_eq =>
    rw [queue_pull, h.queue_eq, Service.pages_succ, List.map_append, hmap, hout, List.append_nil]
  case done_prefix => exact List.nil_prefix
  case sent_prefix => exact List.nil_prefix
  case divides =>
    rw [worker_pull, h.place.outcome_pull hc hx]
    split
    case h_1 items hi =>
      exact fun _ => ⟨Service.page_eq hi, by simp [Service.outcomes, hi, Worker.ahead], .nil⟩
    case h_2 error he =>
      refine fun _ => ⟨?_, by simp [Service.outcomes, he, Worker.ahead], .nil⟩
      simp [Service.page, he, Except.toOption, Worker.items]

theorem work (h : f.Paced d s₀ n done sent received) (hf : f.Sound) (e : f.Work d g) :
    ∃ n done sent, g.Paced d s₀ n done sent received := by
  cases e
  case begin hw _ => exact ⟨_, _, _, h.withWorker hw fun _ => ⟨rfl, rfl, rfl⟩⟩
  case turn hw => exact ⟨_, _, _, h.withWorker hw fun _ => ⟨rfl, rfl, rfl⟩⟩
  case decode hw => exact ⟨_, _, _, h.decode hw⟩
  case offer hw _ => exact ⟨_, _, _, h.withWorker hw fun _ => ⟨rfl, rfl, rfl⟩⟩
  case handOver hw _ _ => exact ⟨_, _, _, h.handOver hw⟩
  case finish hw _ => exact ⟨_, _, _, h.withWorker hw nofun⟩
  case proceed hw _ _ => exact ⟨_, _, _, h.withWorker hw fun _ => ⟨rfl, rfl, rfl⟩⟩
  case pull hw => exact ⟨_, _, _, h.pull hf hw⟩
  case stop => exact ⟨_, _, _, h.withWorker rfl nofun⟩
  case release c panicked hw =>
    have hr : Place s₀ n done ((c.release f.service).2.forgetNotesSince f.service) :=
      (h.place.release c).congr rfl rfl rfl
    exact ⟨_, _, _, { h with place := hr, divides := nofun }⟩
  case close hw => exact ⟨_, _, _, h.withWorker hw nofun⟩

theorem step {record : Option (Outcome ρ)} (h : f.Paced d s₀ n done sent received) (hf : f.Sound)
    (e : Step d f record g) :
    ∃ n done sent, g.Paced d s₀ n done sent (received ++ record.toList) := by
  cases e
  case work hs => simpa using h.work hf (work_of_step hs)
  case wake hw ha => simpa using h.work hf (work_of_wake (d := d) hw ha)
  case receive hr =>
    obtain ⟨queue, hq, hg⟩ := receive_eq_some_iff.mp hr
    subst hg
    exact ⟨_, _, _, h.congr rfl (by simp [hq]) (h.place.congr rfl rfl rfl)⟩
  case raise => exact ⟨_, _, _, h.congr rfl (by simp [Flow.raise]) h.place⟩
  case disarm => exact ⟨_, _, _, h.congr rfl (by simp [Flow.disarm]) h.place⟩
  case leave => exact ⟨_, _, _, h.congr rfl (by simp [Flow.leave]) h.place⟩
  case note =>
    exact ⟨_, _, _, h.congr rfl (by simp [Flow.note]) (h.place.congr rfl rfl rfl)⟩

theorem reaches (r : Reaches d f received g) (h : f.Paced d s₀ n done sent []) (hf : f.Sound) :
    ∃ n done sent, g.Paced d s₀ n done sent received := by
  induction r with
  | refl => exact ⟨_, _, _, h⟩
  | tail r e ih =>
    have ⟨_, _, _, hg⟩ := ih
    exact hg.step (hf.reaches r) e

end Paced

-- So many pulls were made, and the stream has not got further than that.
structure KeepsPace (d : Decoder ι ρ) (s₀ : Service ι) (capacity k : Nat)
    (received : List (Outcome ρ)) (f : Flow ι ρ) : Prop where
  pulls : f.service.calls.countP Call.isPull = s₀.calls.countP Call.isPull + k
  arrived : ∀ i < k, pageOf (s₀.answer i) = .ok (s₀.page i)
  decoded : s₀.decoded ++ s₀.pages k <+: f.service.decoded
  -- All records of the earlier pages are queued or received, and none of later pages are.
  queued : ∃ (records : List ρ) (sent : List (Outcome ρ)),
    (s₀.pages k).map d.decode = records.map .ok ∧
    received ++ f.stream.queue = records.map .ok ++ sent ∧ sent <+: s₀.outcomes d k
  queue_bounded : f.stream.queue.length ≤ capacity
  bounded : (s₀.pages k).length ≤ (successes received).length + capacity
  -- What the worker has in its hands is of the latest page.
  items_suffix : f.stream.worker.items <:+ s₀.page k
  ahead_suffix : f.stream.worker.ahead d <:+ s₀.outcomes d k

theorem Paced.keepsPace {capacity : Nat} (h : f.Paced d s₀ n done sent received)
    (hq : f.stream.queue.length ≤ capacity) : f.KeepsPace d s₀ capacity n received := by
  have ⟨records, hr⟩ := h.flawless
  have hqueue : received ++ f.stream.queue = records.map .ok ++ sent := hr ▸ h.queue_eq
  constructor
  case pulls => exact h.place.count_eq
  case arrived => exact h.place.brought
  case decoded => exact ⟨done, h.place.decoded_eq.symm⟩
  case queued => exact ⟨records, sent, hr, hqueue, h.sent_prefix⟩
  case queue_bounded => exact hq
  case bounded =>
    have hle := length_le_of_prefix ⟨sent, hqueue.symm⟩
    have hlen := congrArg List.length hr
    rw [List.length_map, List.length_map] at hlen
    omega
  case items_suffix =>
    cases hs : f.stream.worker.isStopping
    case false => exact ⟨done, (h.divides hs).page_eq.symm⟩
    case true => exact (Worker.eq_nil_of_isStopping hs d).left ▸ List.nil_suffix
  case ahead_suffix =>
    cases hs : f.stream.worker.isStopping
    case false => exact ⟨sent, (h.divides hs).outcomes_eq.symm⟩
    case true => exact (Worker.eq_nil_of_isStopping hs d).right ▸ List.nil_suffix

end Flow

-- In every run of a stream, no more is queued than there is room for, and a page is pulled when all
-- items of the earlier pages are decoded and their records queued. So the earlier pages have no
-- more items than records were received and find room in the queue.
theorem read_ahead_bounded {config : Config} {search : Search} {d : Decoder ι ρ}
    {s₀ s : Service ι} {stream : Stream ι ρ} {total : Option Nat} {received : List (Outcome ρ)}
    {f : Flow ι ρ}
    (h : Client.searchStreaming config search s₀ = (.ok (stream, total), s))
    (r : Flow.Reaches d ⟨s, {}, stream⟩ received f) :
    ∃ k, f.KeepsPace d s₀ (max config.queueCapacity 1) k received := by
  have ⟨cursor, items, ho, hs⟩ := Client.openCursor_of_searchStreaming h
  subst hs
  have ⟨hplace, hpage, _⟩ := Client.place_of_openCursor ho
  have hnew : Flow.Paced d s₀ 0 [] [] [] ⟨s, {}, .new cursor items config.queueCapacity⟩ := {
    place := hplace
    flawless := .nil
    queue_eq := rfl
    done_prefix := List.nil_prefix
    sent_prefix := List.nil_prefix
    divides := fun _ => ⟨Service.page_eq hpage, by rw [Service.outcomes, hpage]; rfl, .nil⟩
  }
  have hsound := Flow.sound_new (ρ := ρ) (Client.coherent_of_openCursor ho) s items
    config.queueCapacity
  have ⟨k, _, _, hpaced⟩ := hnew.reaches r hsound
  have hcapacity : f.stream.capacity = max config.queueCapacity 1 := Flow.capacity_of_reaches r
  have hfits : f.Fits := Flow.Fits.reaches r (Nat.zero_le _)
  exact ⟨k, hpaced.keepsPace (hcapacity ▸ hfits)⟩

-- With one record in the queue, a worker has the next page in its hands.
theorem read_ahead_bounded_one_slot :
    let config : Config := { queueCapacity := 0 }
    let search : Search := { filter := "/*" }
    let s₀ : Service String := {
      enumerates := [.ok { context := "first", items := ["x"] }]
      pulls := [{ outcome := .ok { items := ["y", "z"], endOfSequence := true } }]
    }
    ∃ (start : Stream String String) (s : Service String) (f : Flow String String),
      Client.searchStreaming config search s₀ = (.ok (start, none), s) ∧
      Flow.Reaches .raw ⟨s, {}, start⟩ [] f ∧ f.stream.worker.items = ["y", "z"] ∧
      f.stream.queue = [.ok "x"] ∧ f.KeepsPace .raw s₀ 1 1 [] := by
  intro config search s₀
  let start : Stream String String :=
    .new { context := "first", maxElements := defaultPageSize } ["x"] 0
  let s := (Client.openCursor config search s₀).2
  have h : Client.searchStreaming config search s₀ = (.ok (start, none), s) := rfl
  have r : Flow.Reaches .raw ⟨s, {}, start⟩ [] ⟨s, {}, start⟩ := .refl
  have r := r.works (n := 7) rfl
  have ⟨k, hk⟩ := read_ahead_bounded h r
  have hpulls : 1 = 0 + k := hk.pulls
  obtain rfl : 1 = k := by omega
  exact ⟨start, s, _, h, r, rfl, rfl, hk⟩

end ResourceQuery.Enumeration
