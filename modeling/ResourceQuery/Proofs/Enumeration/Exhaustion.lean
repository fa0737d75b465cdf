import ResourceQuery.Proofs.Enumeration.Laziness

namespace ResourceQuery.Enumeration

variable {ι ρ : Type}

namespace Cursor

inductive Use
  | pull
  | release

def use (c : Cursor) (s : Service ι) : Use → Cursor × Service ι
  | .pull => ((c.pull s).cursor, (c.pull s).service)
  | .release => c.release s

def useAll (c : Cursor) (s : Service ι) : List Use → Cursor × Service ι
  | [] => (c, s)
  | u :: us => (c.use s u).1.useAll (c.use s u).2 us

variable {c : Cursor} {s : Service ι} {x : String}

theorem Coherent.finished_iff (h : c.Coherent) : c.finished = true ↔ c.context = none := by
  rw [h, Option.isNone_iff_eq_none]

theorem Coherent.holding_context (h : c.Coherent) : c.holding c.context = c := by
  rw [holding, ← h]

@[simp]
theorem holding_holding (c : Cursor) (x y : Option String) :
    (c.holding x).holding y = c.holding y :=
  rfl

-- Whatever is done with a cursor, nothing changes but the context it holds.
theorem exists_use_eq_holding (h : c.Coherent) (s : Service ι) (u : Use) :
    ∃ context, (c.use s u).1 = c.holding context := by
  cases u with
  | release => exact ⟨none, release_fst c s⟩
  | pull =>
    cases hx : c.context with
    | none => exact ⟨c.context, by rw [use, pull_eq_of_none hx, h.holding_context]⟩
    | some x => exact ⟨_, (pulls_pull_of_some h hx).cursor_eq⟩

theorem exists_useAll_eq_holding (h : c.Coherent) (s : Service ι) (us : List Use) :
    ∃ context, (c.useAll s us).1 = c.holding context := by
  induction us generalizing c s with
  | nil => exact ⟨c.context, h.holding_context.symm⟩
  | cons u us ih =>
    have ⟨_, hu⟩ := exists_use_eq_holding h s u
    have ⟨context, hus⟩ := ih (c := (c.use s u).1) (hu ▸ coherent_holding c _) (c.use s u).2
    exact ⟨context, by rw [useAll, hus, hu, holding_holding]⟩

-- Without a context there is nothing to be done with a cursor.
theorem use_of_none (h : c.Coherent) (hx : c.context = none) (s : Service ι) (u : Use) :
    c.use s u = (c, s) := by
  cases u with
  | pull => rw [use, pull_eq_of_none hx]
  | release =>
    have hc : (c.release s).1 = c := by rw [release_fst, ← hx, h.holding_context]
    exact Prod.ext hc (release_eq_of_none hx)

theorem useAll_of_none (h : c.Coherent) (hx : c.context = none) (s : Service ι) (us : List Use) :
    c.useAll s us = (c, s) := by
  induction us with
  | nil => rfl
  | cons u us ih => rw [useAll, use_of_none h hx, ih]

theorem drop_of_none (hx : c.context = none) (s : Service ι) : c.drop s = s := by
  rw [drop, hx]

end Cursor

namespace Service

-- A later state. Answers were taken off the script, and items were decoded.
structure Precedes (s t : Service ι) : Prop where
  pulls : t.pulls <:+ s.pulls
  decoded : s.decoded <+: t.decoded

namespace Precedes

variable {s t u : Service ι}

theorem of_eq (hp : t.pulls = s.pulls) (hd : t.decoded = s.decoded) : s.Precedes t :=
  ⟨hp ▸ List.suffix_rfl, hd ▸ List.prefix_rfl⟩

theorem trans (h₁ : s.Precedes t) (h₂ : t.Precedes u) : s.Precedes u :=
  ⟨h₂.pulls.trans h₁.pulls, h₁.decoded.trans h₂.decoded⟩

theorem recordDecoding (s : Service ι) (item : ι) : s.Precedes (s.recordDecoding item) :=
  ⟨List.suffix_rfl, List.prefix_append s.decoded [item]⟩

theorem release (c : Cursor) (s : Service ι) : s.Precedes (c.release s).2 :=
  of_eq (by simp) (by simp)

theorem pull {c : Cursor} (h : c.Coherent) (s : Service ι) : s.Precedes (c.pull s).service := by
  cases hx : c.context with
  | none => exact Cursor.pull_eq_of_none hx ▸ of_eq rfl rfl
  | some x =>
    have hp := Cursor.pulls_pull_of_some (s := s) h hx
    exact ⟨hp.pulls_eq ▸ List.tail_suffix _, hp.decoded_eq ▸ List.prefix_rfl⟩

end Precedes

-- An error that has come from the transport, or from an item that was decoded.
inductive Reports (d : Decoder ι ρ) (error : EnumerationError) (s t : Service ι) : Prop
  | transport (before a after) :
    s.pulls = before ++ a :: after → t.pulls <:+ after → a.outcome = .error error →
    Reports d error s t
  | decoder (before item after) :
    t.decoded = s.decoded ++ before ++ item :: after → d.decode item = .error error →
    Reports d error s t

namespace Reports

variable {d : Decoder ι ρ} {error : EnumerationError} {s t u : Service ι}

theorem earlier (h : Reports d error t u) (hs : s.Precedes t) : Reports d error s u := by
  cases h with
  | transport before a after hp hu ha =>
    have ⟨taken, ht⟩ := hs.pulls
    exact .transport (taken ++ before) a after (by rw [← ht, hp, List.append_assoc]) hu ha
  | decoder before item after hd hi =>
    have ⟨done, ht⟩ := hs.decoded
    exact .decoder (done ++ before) item after (by simp [hd, ← ht]) hi

theorem later (h : Reports d error s t) (ht : t.Precedes u) : Reports d error s u := by
  cases h with
  | transport before a after hp hu ha => exact .transport before a after hp (ht.pulls.trans hu) ha
  | decoder before item after hd hi =>
    have ⟨done, hu⟩ := ht.decoded
    exact .decoder before item (after ++ done) (by simp [← hu, hd]) hi

theorem recordDecoding {item : ι} (h : d.decode item = .error error) (s : Service ι) :
    Reports d error s (s.recordDecoding item) :=
  .decoder [] item [] (by simp) h

-- A cursor with a context does not make the error up.
theorem pull {c : Cursor} {x : String} (h : c.Coherent) (hx : c.context = some x)
    (ho : (c.pull s).outcome = .error .exhausted) :
    Reports d .exhausted s (c.pull s).service := by
  have hp := Cursor.pulls_pull_of_some (s := s) h hx
  have ha : s.nextAnswer = .error .exhausted := by
    have hpage := hp.outcome_eq ▸ ho
    cases ha : s.nextAnswer with
    | error =>
      rw [ha] at hpage
      cases hpage
      rfl
    | ok a =>
      simp only [ha, pageOf, Answer.page] at hpage
      split at hpage <;> cases hpage
  cases hs : s.pulls with
  | nil => simp [nextAnswer, hs, scriptExhausted] at ha
  | cons a after =>
    refine .transport [] a after hs ?_ (by simpa [nextAnswer, hs] using ha)
    rw [hp.pulls_eq, hs]
    exact List.suffix_rfl

end Reports

end Service

open Service (Precedes Reports)

namespace OnDemand

-- Where a session stands before its calls, and within a call after each page that was pulled.
inductive Visits (d : Decoder ι ρ) (o : OnDemand ι) (s : Service ι) :
    OnDemand ι → Service ι → Prop
  | refl : Visits d o s o s
  | call {p t} : Visits d o s p t → Visits d o s (p.next d t).2.1 (p.next d t).2.2
  | turn {p t items} :
    Visits d o s p t → ¬p.Settled → (p.cursor.pull t).outcome = .ok items →
    Visits d o s { p with cursor := (p.cursor.pull t).cursor, buffer := items }
      ((p.cursor.pull t).service.note (.buffered items.length))

variable {d : Decoder ι ρ} {o p : OnDemand ι} {s t : Service ι}

theorem Visits.coherent (h : o.Visits d s p t) (ho : o.cursor.Coherent) : p.cursor.Coherent := by
  induction h with
  | refl => exact ho
  | call _ ih => exact coherent_next ih
  | turn _ _ _ ih => exact Cursor.coherent_pull ih

theorem context_ne_none (h : o.cursor.Coherent) (hs : ¬o.Settled) : o.cursor.context ≠ none := by
  have ⟨_, _, hf⟩ := not_settled hs
  simp [← h.finished_iff, hf]

theorem reports_next (h : o.cursor.Coherent) (hr : (o.next d s).1 = some (.error .exhausted)) :
    Reports d .exhausted s (o.next d s).2.2 := by
  fun_induction next d o s with
  | case1 => cases hr
  | case2 => cases hr
  | case3 o s _ item buffer _ error hd =>
    cases hr
    exact (Reports.recordDecoding hd s).later (.release _ _)
  | case4 => cases hr
  | case5 o s _ _ _ p items _ ih =>
    exact (ih (Cursor.coherent_pull h) hr).earlier ((Precedes.pull h s).trans (.of_eq rfl rfl))
  | case6 o s _ _ hc p error hp =>
    cases hr
    obtain ⟨x, hx⟩ := h.exists_context (by simpa using hc)
    exact (Reports.pull h hx hp).later (.release _ _)

end OnDemand

namespace Paged

variable {d : Decoder ι ρ} {p q : Paged ι} {s t : Service ι} {items : List ι}
variable {error : EnumerationError}

theorem reports_decodeAll (h : (decodeAll d items s).1 = .error error) :
    Reports d error s (decodeAll d items s).2 := by
  fun_induction decodeAll d items s with
  | case1 => cases h
  | case2 item items s _ hd =>
    cases h
    exact .recordDecoding hd s
  | case3 item items s record _ records t hs ih =>
    rw [hs] at ih
    cases records with
    | error => cases h; exact (ih rfl).earlier (.recordDecoding s item)
    | ok => cases h

theorem reports_deliver (h : (p.deliver d items s).1 = .error error) :
    Reports d error s (p.deliver d items s).2.2 := by
  have hd : (decodeAll d items s).1 = .error error → Reports d error s (decodeAll d items s).2 :=
    reports_decodeAll
  rw [deliver] at h ⊢
  split <;> rename_i hr <;> rw [hr] at h hd
  case h_1 => cases h
  case h_2 =>
    cases h
    exact (hd rfl).later (.release _ _)

theorem Sound.context_ne_none (h : p.Sound) (hm : p.hasMore = true) (hi : p.initial = none) :
    p.cursor.context ≠ none := by
  simp [← h.coherent.finished_iff, h.unfinished hm hi]

theorem reports_nextPage (h : p.Sound) (hm : p.hasMore = true)
    (hr : (p.nextPage d s).1 = .error .exhausted) :
    Reports d .exhausted s (p.nextPage d s).2.2 := by
  rw [nextPage, if_pos hm] at hr ⊢
  cases hi : p.initial with
  | some items =>
    simp only [hi] at hr ⊢
    exact reports_deliver hr
  | none =>
    obtain ⟨x, hx⟩ := h.coherent.exists_context (h.unfinished hm hi)
    cases ho : (p.cursor.pull s).outcome with
    | ok items =>
      simp only [hi, ho] at hr ⊢
      exact (reports_deliver hr).earlier (.pull h.coherent s)
    | error error =>
      simp only [hi, ho] at hr ⊢
      cases hr
      exact .pull h.coherent hx ho

theorem Reaches.sound (r : Reaches d p s q t) (h : p.Sound) : q.Sound := by
  induction r with
  | refl => exact h
  | page _ ih => exact sound_nextPage ih
  | step _ ih =>
    rw [next]
    split
    case isTrue => exact sound_nextPage ih
    case isFalse => exact ih

end Paged

-- The record or failure that a worker has not handed over yet.
def Worker.inHand : Worker ι ρ → List (Outcome ρ)
  | .ready _ record _ | .offering _ record _ => [record]
  | _ => []

@[simp]
theorem Worker.inHand_handedOver (cursor : Cursor) (record : Outcome ρ) (items : List ι) :
    (handedOver cursor record items).inHand = [] := by
  cases record <;> rfl

namespace Flow

variable {d : Decoder ι ρ} {s : Service ι} {f g : Flow ι ρ} {received : List (Outcome ρ)}

-- All results so far, the consumer's first.
def results (received : List (Outcome ρ)) (f : Flow ι ρ) : List (Outcome ρ) :=
  received ++ f.stream.queue ++ f.stream.worker.inHand

-- None of the results so far is an error that a cursor has made up.
structure Honest (d : Decoder ι ρ) (s : Service ι) (received : List (Outcome ρ)) (f : Flow ι ρ) :
    Prop where
  precedes : s.Precedes f.service
  reports : .error .exhausted ∈ f.results received → Reports d .exhausted s f.service

theorem honest_new (d : Decoder ι ρ) (s : Service ι) (switch : Switch) (cursor : Cursor)
    (items : List ι) (capacity : Nat) :
    Honest d s [] (⟨s, switch, .new cursor items capacity⟩ : Flow ι ρ) :=
  ⟨.of_eq rfl rfl, by simp [results, Stream.new, Worker.inHand]⟩

namespace Honest

theorem grow {later : List (Outcome ρ)} (h : f.Honest d s received)
    (hs : f.service.Precedes g.service)
    (hr : .error .exhausted ∈ g.results later →
      .error .exhausted ∈ f.results received ∨ Reports d .exhausted f.service g.service) :
    g.Honest d s later where
  precedes := h.precedes.trans hs
  reports he := (hr he).elim (fun ho => (h.reports ho).later hs) fun hn => hn.earlier h.precedes

-- No result is new.
theorem congr {later : List (Outcome ρ)} (h : f.Honest d s received)
    (hs : f.service.Precedes g.service) (hr : g.results later ⊆ f.results received) :
    g.Honest d s later :=
  h.grow hs fun he => .inl (hr he)

theorem withWorker {w : Worker ι ρ} (h : f.Honest d s received)
    (hw : w.inHand ⊆ f.stream.worker.inHand) : (f.withWorker w).Honest d s received :=
  h.congr (.of_eq rfl rfl) (List.append_subset.mpr ⟨List.subset_append_left _ _,
    List.Subset.trans hw (List.subset_append_right _ _)⟩)

theorem decode (h : f.Honest d s received) (c : Cursor) (item : ι) (items : List ι) :
    (f.decode d c item items).Honest d s received := by
  refine h.grow (service_decode f d c item items ▸ .recordDecoding f.service item) fun he => ?_
  simp only [results, queue_decode, worker_decode, List.mem_append] at he
  rcases he with he | he
  case inl => exact .inl (List.mem_append_left _ (List.mem_append.mpr he))
  case inr =>
    split at he
    case isTrue => cases he
    case isFalse =>
      have hd := (List.mem_singleton.mp he).symm
      exact .inr (service_decode f d c item items ▸ .recordDecoding hd f.service)

theorem pull (h : f.Honest d s received) {c : Cursor} {x : String} (hc : c.Coherent)
    (hx : c.context = some x) : (f.pull c).Honest d s received := by
  have hn : (c.pull f.service).service.Precedes (f.pull c).service := .of_eq (by simp) (by simp)
  refine h.grow ((Precedes.pull hc f.service).trans hn) fun he => ?_
  simp only [results, queue_pull, worker_pull, List.mem_append] at he
  rcases he with he | he
  case inl => exact .inl (List.mem_append_left _ (List.mem_append.mpr he))
  case inr =>
    split at he
    case h_1 => cases he
    case h_2 error ho =>
      cases List.mem_singleton.mp he
      exact .inr ((Reports.pull hc hx ho).later hn)

theorem work (h : f.Honest d s received) (hf : f.Sound) (e : f.Work d g) :
    g.Honest d s received := by
  cases e
  case begin => exact h.withWorker (List.nil_subset _)
  case turn => exact h.withWorker (List.nil_subset _)
  case decode c item items _ => exact h.decode c item items
  case offer hw _ => exact h.withWorker (hw ▸ List.Subset.refl _)
  case handOver c record items hw _ _ =>
    have hi : f.stream.worker.inHand = [record] := by rw [hw]; rfl
    exact h.congr (.of_eq rfl rfl) (by simp [results, hi])
  case finish => exact h.withWorker (List.nil_subset _)
  case proceed => exact h.withWorker (List.nil_subset _)
  case pull c hw =>
    have hc : c.Coherent := hf.coherent_of_worker hw rfl
    have ⟨x, hx⟩ := hc.exists_context (hf.unfinished c hw)
    exact h.pull hc hx
  case stop => exact h.withWorker (List.nil_subset _)
  case release c _ _ =>
    have hs : f.service.Precedes ((c.release f.service).2.forgetNotesSince f.service) :=
      .of_eq (by simp) (by simp)
    exact (h.congr (g := { f with service := _ }) hs (List.Subset.refl _)).withWorker
      (List.nil_subset _)
  case close => exact h.withWorker (List.nil_subset _)

theorem step {record : Option (Outcome ρ)} (h : f.Honest d s received) (hf : f.Sound)
    (e : Step d f record g) : g.Honest d s (received ++ record.toList) := by
  cases e
  case work hs => simpa using h.work hf (work_of_step hs)
  case wake hw ha => simpa using h.work hf (work_of_wake hw ha)
  case receive hr =>
    have ⟨_, hq, hg⟩ := receive_eq_some_iff.mp hr
    subst hg
    exact h.congr (.of_eq rfl rfl) (by simp [results, hq])
  all_goals exact h.congr (.of_eq rfl rfl) (by simp [results, raise, disarm, leave, note])

theorem reaches (h : f.Honest d s []) (hf : f.Sound) (r : Reaches d f received g) :
    g.Honest d s received := by
  induction r with
  | refl => exact h
  | tail r e ih => exact ih.step (hf.reaches r) e

end Honest

end Flow

-- A cursor that an answer has opened, after any use. When it is finished, nothing more comes of it.
theorem Cursor.used_of_ofAnswer {a : Answer ι} {maxElements : Nat} {c c' : Cursor} {items : List ι}
    {s s' : Service ι} {uses : List Use} (h : ofAnswer a maxElements = .ok (c, items))
    (hu : c.useAll s uses = (c', s')) :
    (c'.finished = true ↔ c'.context = none) ∧
    c'.total = a.total ∧ c'.maxElements = maxElements ∧
    (c'.finished = true → (c'.pull s').outcome = .error .exhausted ∧ c'.drop s' = s' ∧
      ∀ further, c'.useAll s' further = (c', s')) := by
  rw [ofAnswer_eq] at h
  cases hp : a.page with
  | error error => simp [hp, Except.map] at h
  | ok page =>
    simp only [hp, Except.map, Except.ok.injEq, Prod.mk.injEq] at h
    obtain ⟨rfl, -⟩ := h
    let empty : Cursor := { maxElements, total := a.total }
    have ⟨context, hc⟩ := exists_useAll_eq_holding (coherent_holding empty a.held) s uses
    rw [hu, holding_holding] at hc
    obtain rfl : c' = empty.holding context := hc
    have hcoherent := coherent_holding empty context
    refine ⟨hcoherent.finished_iff, rfl, rfl, fun hf => ?_⟩
    have hx := hcoherent.finished_iff.mp hf
    exact ⟨by rw [pull_eq_of_none hx], drop_of_none hx s', useAll_of_none hcoherent hx s'⟩

namespace Client

theorem sound_of_searchPaged {config : Config} {search : Search} {s₀ s : Service ι} {p : Paged ι}
    (h : searchPaged config search s₀ = (.ok p, s)) :
    p.Sound := by
  have ⟨_, ho⟩ := openCursor_of_searchPaged h
  refine ⟨coherent_of_openCursor ho, fun _ hi => ?_⟩
  rw [searchPaged] at h
  split at h <;> cases h
  cases hi

end Client

-- Cursors come to their end once, and no session pulls after it. The error for that is reported by
-- the call for a page after the end. Wherever else it comes up, it is the transport or the decoder
-- that has reported it: during the call, or since the stream was opened.
theorem cursors_end_once_and_are_not_overrun (d : Decoder ι ρ) (config : Config) (search : Search)
    (s₀ : Service ι) :
    (∀ (a : Answer ι) maxElements c items, Cursor.ofAnswer a maxElements = .ok (c, items) →
      ∀ (s : Service ι) uses c' s', c.useAll s uses = (c', s') →
        (c'.finished = true ↔ c'.context = none) ∧
        c'.total = a.total ∧ c'.maxElements = maxElements ∧
        (c'.finished = true → (c'.pull s').outcome = .error .exhausted ∧ c'.drop s' = s' ∧
          ∀ further, c'.useAll s' further = (c', s'))) ∧
    (∀ o s, Client.searchOnDemand config search s₀ = (.ok o, s) → ∀ p t, o.Visits d s p t →
      (¬p.Settled → p.cursor.context ≠ none) ∧
      ((p.next d t).1 = some (.error .exhausted) →
        Reports d .exhausted t (p.next d t).2.2)) ∧
    (∀ p s, Client.searchPaged config search s₀ = (.ok p, s) → ∀ q t, Paged.Reaches d p s q t →
      (q.hasMore = true → q.initial = none → q.cursor.context ≠ none) ∧
      ((q.nextPage d t).1 = .error .exhausted →
        q.hasMore = false ∨ Reports d .exhausted t (q.nextPage d t).2.2) ∧
      ((q.next d t).1 = some (.error .exhausted) →
        Reports d .exhausted t (q.next d t).2.2)) ∧
    ∀ stream total s, Client.searchStreaming config search s₀ = (.ok (stream, total), s) →
      ∀ received f, Flow.Reaches d ⟨s, {}, stream⟩ received f →
        (∀ c, f.stream.worker = .pulling c → c.context ≠ none) ∧
        (.error .exhausted ∈ received ++ f.stream.queue → Reports d .exhausted s f.service) := by
  refine ⟨fun a _ c _ h s _ c' s' hu => Cursor.used_of_ofAnswer h hu, ?onDemand, ?paged, ?stream⟩
  case onDemand =>
    intro o s h p t v
    have hc : p.cursor.Coherent :=
      v.coherent (Client.coherent_of_openCursor (Client.openCursor_of_searchOnDemand h))
    exact ⟨OnDemand.context_ne_none hc, OnDemand.reports_next hc⟩
  case paged =>
    intro p s h q t r
    have hq : q.Sound := r.sound (Client.sound_of_searchPaged h)
    refine ⟨hq.context_ne_none, fun hr => ?_, fun hr => ?_⟩
    · cases hm : q.hasMore with
      | false => exact .inl rfl
      | true => exact .inr (Paged.reports_nextPage hq hm hr)
    · rw [Paged.next] at hr ⊢
      split at hr
      case isTrue hm =>
        rw [if_pos hm]
        exact Paged.reports_nextPage hq hm (Option.some.inj hr)
      case isFalse => cases hr
  case stream =>
    intro stream total s h received f r
    obtain ⟨c, items, ho, hs⟩ := Client.openCursor_of_searchStreaming h
    subst hs
    have hc := Client.coherent_of_openCursor ho
    have hnew := Flow.sound_new (ρ := ρ) hc s items config.queueCapacity
    have hf := hnew.reaches r
    have hh := (Flow.honest_new d s {} c items config.queueCapacity).reaches hnew r
    refine ⟨fun c hw => ?_, fun he => hh.reports (List.mem_append_left _ he)⟩
    have hx : c.Coherent := hf.coherent_of_worker hw rfl
    simp [← hx.finished_iff, hf.unfinished c hw]

-- The transport itself answers the only pull by saying that the sequence is exhausted.
theorem cursors_end_once_and_are_not_overrun_by_second_call :
    let search : Search := { filter := "/*" }
    let first : Answer String := { context := "first", items := ["x"] }
    let s₀ : Service String := {
      enumerates := [.ok first]
      pulls := [{ outcome := .error .exhausted }]
    }
    ∃ o s p t, Client.searchOnDemand {} search s₀ = (.ok o, s) ∧
      (∃ c u, o.cursor.useAll s [.pull] = (c, u) ∧ c.useAll u [.release, .pull] = (c, u)) ∧
      o.Visits .raw s p t ∧ (p.next .raw t).1 = some (.error .exhausted) ∧
      Reports .raw .exhausted t (p.next .raw t).2.2 ∧
      (∃ q, Paged.Reaches .raw { cursor := o.cursor, initial := some ["x"] } s q t ∧
        q.hasMore = true ∧ q.cursor.context ≠ none) ∧
      ∃ f : Flow String String,
        Flow.Reaches .raw ⟨s, {}, .new o.cursor ["x"] defaultQueueCapacity⟩ [] f ∧
        f.stream.worker = .pulling o.cursor ∧ o.cursor.context ≠ none := by
  intro search first s₀
  let cursor : Cursor := Cursor.holding { maxElements := defaultPageSize } "first"
  let o : OnDemand String := { cursor, buffer := ["x"] }
  let p : OnDemand String := { cursor, buffer := [] }
  let s := (Client.openCursor {} search s₀).2
  let t := s.recordDecoding "x"
  obtain ⟨hused, hdemand, hpaged, hstream⟩ :=
    cursors_end_once_and_are_not_overrun .raw {} search s₀
  have hp : o.next .raw s = (some (.ok "x"), p, t) := by
    rw [OnDemand.next]
    rfl
  have hv : o.Visits .raw s p t := by
    have hv : o.Visits .raw s (o.next .raw s).2.1 (o.next .raw s).2.2 := .call .refl
    rwa [hp] at hv
  have hs : ¬p.Settled := by simp [OnDemand.Settled, OnDemand.isFinished, p, cursor, Cursor.holding]
  have he : (p.next .raw t).1 = some (.error .exhausted) := by
    rw [OnDemand.next_of_not_settled hs]
    rfl
  obtain ⟨_, _, _, hfinished⟩ := hused first defaultPageSize cursor ["x"] rfl s [.pull] _ _ rfl
  have hq : Paged.Reaches .raw { cursor, initial := some ["x"] } s _ t := .page .refl
  have r : Flow.Reaches .raw ⟨s, {}, .new cursor ["x"] defaultQueueCapacity⟩ [] _ := .refl
  have r := r.works (n := 6) rfl
  exact ⟨o, s, p, t, rfl, ⟨_, _, rfl, (hfinished rfl).right.right _⟩, hv, he,
    (hdemand o s rfl p t hv).right he, ⟨_, hq, rfl, (hpaged _ s rfl _ t hq).left rfl rfl⟩,
    _, r, rfl, (hstream _ _ s rfl [] _ r).left cursor rfl⟩

end ResourceQuery.Enumeration
