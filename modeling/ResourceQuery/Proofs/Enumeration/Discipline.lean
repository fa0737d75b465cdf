import ResourceQuery.Proofs.Enumeration.Opening
import ResourceQuery.Proofs.Enumeration.Working

namespace ResourceQuery.Enumeration

variable {ι ρ : Type}

namespace Service

-- The context to be released after the given number of pulls: that of the latest answer which is
-- no failure.
def due (s : Service ι) : Nat → Option String
  | 0 => heldAfter (s.answer 0)
  | n + 1 =>
    match s.answer (n + 1) with
    | .ok a => a.held
    | .error _ => s.due n

variable {s : Service ι} {n : Nat} {x : String}

theorem due_eq_of_heldAfter (h : heldAfter (s.answer n) = some x) : s.due n = some x := by
  cases n with
  | zero => exact h
  | succ n =>
    rw [due]
    cases ha : s.answer (n + 1) <;> simp_all [heldAfter]

theorem abandoned_eq_due (hd : s.due n = some x) (h : heldAfter (s.answer (n + 1)) = none) :
    abandoned x (s.answer (n + 1)) = s.due (n + 1) := by
  rw [due]
  cases ha : s.answer (n + 1) <;> simp_all [heldAfter, abandoned]

end Service

-- A service that was called by one enumeration: once to open it, once for each of the contexts
-- that were presented, and to release a context.
structure Called (o : Opening) (s₀ : Service ι) (contexts : List String) (released : Option String)
    (s : Service ι) : Prop where
  calls_eq : s.calls = s₀.calls ++
    .enumerate o :: (contexts.map (.pull · o.maxElements) ++ released.toList.map .release)
  pulls_eq : s.pulls = s₀.pulls.drop contexts.length
  presented : ∀ i x, contexts[i]? = some x → heldAfter (s₀.answer i) = some x

-- No context is left behind.
def Disciplined (o : Opening) (s₀ s : Service ι) : Prop :=
  ∃ contexts, Called o s₀ contexts (s₀.due contexts.length) s

namespace Called

variable {o : Opening} {s₀ s t : Service ι} {contexts : List String} {released : Option String}
variable {x : String}

theorem congr (h : Called o s₀ contexts released s) (hc : t.calls = s.calls)
    (hp : t.pulls = s.pulls) : Called o s₀ contexts released t :=
  ⟨hc.trans h.calls_eq, hp.trans h.pulls_eq, h.presented⟩

theorem nextAnswer_eq (h : Called o s₀ contexts released s) :
    s.nextAnswer = s₀.answer (contexts.length + 1) :=
  Service.nextAnswer_eq_answer h.pulls_eq

theorem release (h : Called o s₀ contexts none s) (hc : t.calls = s.calls ++ [.release x])
    (hp : t.pulls = s.pulls) : Called o s₀ contexts (some x) t :=
  ⟨by simp [hc, h.calls_eq], hp.trans h.pulls_eq, h.presented⟩

theorem pull (h : Called o s₀ contexts none s) (hx : heldAfter (s₀.answer contexts.length) = some x)
    (hc : t.calls = s.calls ++ .pull x o.maxElements :: released.toList.map .release)
    (hp : t.pulls = s.pulls.tail) : Called o s₀ (contexts ++ [x]) released t := by
  refine ⟨by simp [hc, h.calls_eq], by simp [hp, h.pulls_eq], fun i y hy => ?_⟩
  rw [List.getElem?_append] at hy
  split at hy
  case isTrue => exact h.presented i y hy
  case isFalse hi =>
    have ⟨hl, hxy⟩ := List.getElem?_eq_some_iff.mp hy
    have hi : i = contexts.length := by
      simp at hl
      omega
    subst hi
    simpa [hx] using hxy

end Called

-- A cursor on an enumeration, and what the service has seen of it.
structure Cursor.Tracks (o : Opening) (s₀ : Service ι) (c : Cursor) (s : Service ι) : Prop where
  coherent : c.Coherent
  maxElements_eq : c.maxElements = o.maxElements
  opened : ∀ x, c.context = some x →
    ∃ contexts, Called o s₀ contexts none s ∧ heldAfter (s₀.answer contexts.length) = some x
  closed : c.context = none → Disciplined o s₀ s

theorem Disciplined.congr {o : Opening} {s₀ s t : Service ι} (h : Disciplined o s₀ s)
    (hc : t.calls = s.calls) (hp : t.pulls = s.pulls) : Disciplined o s₀ t :=
  have ⟨contexts, hw⟩ := h
  ⟨contexts, hw.congr hc hp⟩

namespace Cursor.Tracks

variable {o : Opening} {c : Cursor} {s₀ s t : Service ι}

theorem congr (h : c.Tracks o s₀ s) (hc : t.calls = s.calls) (hp : t.pulls = s.pulls) :
    c.Tracks o s₀ t where
  coherent := h.coherent
  maxElements_eq := h.maxElements_eq
  opened x hx :=
    have ⟨contexts, hw, hheld⟩ := h.opened x hx
    ⟨contexts, hw.congr hc hp, hheld⟩
  closed hx := (h.closed hx).congr hc hp

theorem disciplined_release (h : c.Tracks o s₀ s) : Disciplined o s₀ (c.release s).2 := by
  cases hx : c.context
  case none => exact release_eq_of_none hx ▸ h.closed hx
  case some x =>
    have ⟨contexts, hw, hheld⟩ := h.opened x hx
    refine ⟨contexts, ?_⟩
    rw [Service.due_eq_of_heldAfter hheld]
    exact hw.release (by simp [calls_release, hx]) (by simp)

theorem release (h : c.Tracks o s₀ s) : (c.release s).1.Tracks o s₀ (c.release s).2 := by
  refine ⟨?_, ?_, ?_, fun _ => h.disciplined_release⟩ <;> rw [release_fst]
  · exact coherent_holding c none
  · exact h.maxElements_eq
  · exact nofun

theorem disciplined_drop (h : c.Tracks o s₀ s) : Disciplined o s₀ (c.drop s) := by
  rw [Cursor.drop]
  split
  case h_1 hx => exact h.closed hx
  case h_2 =>
    have hn : c.Tracks o s₀ (s.note .abandoned) := h.congr rfl rfl
    exact hn.disciplined_release

theorem pull (h : c.Tracks o s₀ s) : (c.pull s).cursor.Tracks o s₀ (c.pull s).service := by
  cases hx : c.context
  case none => exact pull_eq_of_none hx ▸ h
  case some x =>
    have ⟨contexts, hw, hheld⟩ := h.opened x hx
    have hp := pulls_pull_of_some (s := s) h.coherent hx
    have hcalls := hp.calls_eq
    rw [h.maxElements_eq, hw.nextAnswer_eq] at hcalls
    constructor <;> rw [hp.cursor_eq, hw.nextAnswer_eq]
    case coherent => exact coherent_holding c _
    case maxElements_eq => exact h.maxElements_eq
    case opened =>
      intro y hy
      rw [abandoned_eq_none hy] at hcalls
      exact ⟨contexts ++ [x], hw.pull hheld hcalls hp.pulls_eq, by simpa using hy⟩
    case closed =>
      intro hy
      rw [Service.abandoned_eq_due (Service.due_eq_of_heldAfter hheld) hy] at hcalls
      exact ⟨contexts ++ [x], by simpa using hw.pull hheld hcalls hp.pulls_eq⟩

end Cursor.Tracks

namespace Client

variable {config : Config} {search : Search} {s₀ s : Service ι}

theorem Sends.called {o : Opening} {sent : Outcome (Answer ι) × Service ι} (h : Sends o s₀ sent) :
    Called o s₀ [] none sent.2 :=
  ⟨h.calls_eq, h.pulls_eq, nofun⟩

theorem disciplined_of_openCursor {error : EnumerationError}
    (h : openCursor config search s₀ = (.error error, s)) :
    Disciplined (search.opening config) s₀ s := by
  have ⟨hp, hs⟩ := openCursor_eq_error_iff.mp h
  have hd : s₀.due 0 = none := heldAfter_eq_none_of_pageOf hp
  exact ⟨[], hd ▸ hs ▸ (sends_send _ s₀).called⟩

theorem tracks_of_openCursor {c : Cursor} {items : List ι}
    (h : openCursor config search s₀ = (.ok (c, items), s)) :
    c.Tracks (search.opening config) s₀ s := by
  have ⟨a, ha, _, hc, hs⟩ := openCursor_eq_ok_iff.mp h
  have hw : Called (search.opening config) s₀ [] none s := hs ▸ (sends_send _ s₀).called
  have hheld : heldAfter (s₀.answer 0) = c.context := by rw [ha, hc]; rfl
  constructor
  case coherent => exact coherent_of_openCursor h
  case maxElements_eq => rw [hc]; rfl
  case opened => exact fun x hx => ⟨[], hw, hheld.trans hx⟩
  case closed =>
    intro hx
    have hd : s₀.due 0 = none := hheld.trans hx
    exact ⟨[], hd ▸ hw⟩

end Client

namespace OnDemand

variable {d : Decoder ι ρ} {opening : Opening} {s₀ s : Service ι} {o : OnDemand ι}

theorem tracks_fail (h : o.cursor.Tracks opening s₀ s) :
    (o.fail s).1.cursor.Tracks opening s₀ (o.fail s).2 :=
  h.release

theorem tracks_next (h : o.cursor.Tracks opening s₀ s) :
    (o.next d s).2.1.cursor.Tracks opening s₀ (o.next d s).2.2 := by
  fun_induction next d o s with
  | case1 => exact h
  | case2 => exact h.congr rfl rfl
  | case3 o s _ item buffer => exact tracks_fail (o := { o with buffer }) (h.congr rfl rfl)
  | case4 => exact h
  | case5 o s _ _ _ p buffer _ ih => exact ih (h.pull.congr rfl rfl)
  | case6 o s _ _ _ p => exact tracks_fail (o := { o with cursor := p.cursor }) h.pull

theorem tracks_nextMany (n : Nat) (h : o.cursor.Tracks opening s₀ s) :
    (o.nextMany d n s).2.1.cursor.Tracks opening s₀ (o.nextMany d n s).2.2 := by
  induction n generalizing o s with
  | zero => exact h
  | succ n ih => exact ih (tracks_next h)

end OnDemand

namespace Paged

-- Pages and steps of the iteration, asked for in any order.
inductive Reaches (d : Decoder ι ρ) (p : Paged ι) (s : Service ι) : Paged ι → Service ι → Prop
  | refl : Reaches d p s p s
  | page {q t} :
    Reaches d p s q t → Reaches d p s (q.nextPage d t).2.1 (q.nextPage d t).2.2
  | step {q t} : Reaches d p s q t → Reaches d p s (q.next d t).2.1 (q.next d t).2.2

variable {d : Decoder ι ρ} {opening : Opening} {s₀ s t : Service ι} {p q : Paged ι}

theorem calls_decodeAll (d : Decoder ι ρ) (items : List ι) (s : Service ι) :
    (decodeAll d items s).2.calls = s.calls := by
  fun_induction decodeAll d items s <;> simp_all

theorem tracks_deliver {items : List ι} (h : p.cursor.Tracks opening s₀ s) :
    (p.deliver d items s).2.1.cursor.Tracks opening s₀ (p.deliver d items s).2.2 := by
  have hd : p.cursor.Tracks opening s₀ (decodeAll d items s).2 :=
    h.congr (calls_decodeAll d items s) (pulls_decodeAll d items s)
  rw [deliver]
  split <;> rename_i hr <;> rw [hr] at hd
  · exact hd
  · exact hd.release

theorem tracks_nextPage (h : p.cursor.Tracks opening s₀ s) :
    (p.nextPage d s).2.1.cursor.Tracks opening s₀ (p.nextPage d s).2.2 := by
  rw [nextPage]
  split
  case isFalse => exact h
  case isTrue =>
    split
    case h_1 => exact tracks_deliver (p := { p with initial := none }) h
    case h_2 =>
      dsimp only
      split
      case h_1 => exact tracks_deliver (p := { p with cursor := _ }) h.pull
      case h_2 => exact h.pull

theorem tracks_next (h : p.cursor.Tracks opening s₀ s) :
    (p.next d s).2.1.cursor.Tracks opening s₀ (p.next d s).2.2 := by
  rw [next]
  split
  case isTrue => exact tracks_nextPage h
  case isFalse => exact h

theorem Reaches.tracks (r : Reaches d p s q t) (h : p.cursor.Tracks opening s₀ s) :
    q.cursor.Tracks opening s₀ t := by
  induction r with
  | refl => exact h
  | page _ ih => exact tracks_nextPage ih
  | step _ ih => exact tracks_next ih

end Paged

namespace Flow

variable {d : Decoder ι ρ} {opening : Opening} {s₀ : Service ι} {f g : Flow ι ρ}

-- As long as a worker has its cursor, that is what keeps track of the calls.
def Tracks (opening : Opening) (s₀ : Service ι) (f : Flow ι ρ) : Prop :=
  match f.stream.worker.cursor? with
  | some c => c.Tracks opening s₀ f.service
  | none => Disciplined opening s₀ f.service

theorem Tracks.cursor {c : Cursor} (h : f.Tracks opening s₀)
    (hw : f.stream.worker.cursor? = some c) : c.Tracks opening s₀ f.service := by
  simpa [Tracks, hw] using h

theorem tracks_of_cursor {c : Cursor} (hw : f.stream.worker.cursor? = some c)
    (h : c.Tracks opening s₀ f.service) : f.Tracks opening s₀ := by
  simpa [Tracks, hw] using h

theorem Tracks.exited (h : f.Tracks opening s₀) (he : f.stream.worker.hasExited) :
    Disciplined opening s₀ f.service := by
  rw [Tracks] at h
  split at h
  case h_1 c hc => cases hw : f.stream.worker <;> simp_all [Worker.hasExited, Worker.cursor?]
  case h_2 => exact h

theorem Tracks.congr (h : f.Tracks opening s₀) (hw : g.stream.worker = f.stream.worker)
    (hc : g.service.calls = f.service.calls) (hp : g.service.pulls = f.service.pulls) :
    g.Tracks opening s₀ := by
  rw [Tracks] at h ⊢
  rw [hw]
  split at h
  case h_1 => exact Cursor.Tracks.congr h hc hp
  case h_2 => exact Disciplined.congr h hc hp

theorem Tracks.work (h : f.Tracks opening s₀) (e : f.Work d g) : g.Tracks opening s₀ := by
  cases e
  case begin c items hw _ => exact tracks_of_cursor rfl (h.cursor (congrArg Worker.cursor? hw))
  case turn c hw => exact tracks_of_cursor rfl (h.cursor (congrArg Worker.cursor? hw))
  case decode c item items hw =>
    have hc := h.cursor (congrArg Worker.cursor? hw)
    exact tracks_of_cursor (by simp) (hc.congr (by simp) (by simp))
  case offer c record items hw _ =>
    exact tracks_of_cursor rfl (h.cursor (congrArg Worker.cursor? hw))
  case handOver c record items hw _ _ =>
    exact tracks_of_cursor (by simp) (h.cursor (congrArg Worker.cursor? hw))
  case finish c hw hf =>
    have hc := h.cursor (congrArg Worker.cursor? hw)
    have hx : c.context = none := by simpa [Cursor.Coherent, hf] using hc.coherent
    exact hc.closed hx
  case proceed c hw _ _ => exact tracks_of_cursor rfl (h.cursor (congrArg Worker.cursor? hw))
  case pull c hw =>
    have hc := (h.cursor (congrArg Worker.cursor? hw)).pull
    exact tracks_of_cursor (by simp) (hc.congr (by simp) (by simp))
  case stop c hw _ => exact tracks_of_cursor rfl (h.cursor hw)
  case release c panicked hw =>
    have hc := (h.cursor (congrArg Worker.cursor? hw)).disciplined_release
    exact hc.congr rfl rfl
  case close panicked hw => simpa [Tracks, hw, Worker.cursor?] using h

theorem tracks_of_step {record : Option (Outcome ρ)} (h : f.Tracks opening s₀)
    (e : Step d f record g) : g.Tracks opening s₀ := by
  cases e
  case work hs => exact h.work (work_of_step hs)
  case wake hw ha => exact h.work (d := d) (work_of_wake hw ha)
  case receive hr =>
    have ⟨_, _, hg⟩ := receive_eq_some_iff.mp hr
    exact hg ▸ h.congr rfl rfl rfl
  case raise => exact h
  case disarm => exact h
  case leave => exact h
  case note => exact h.congr rfl rfl rfl

theorem tracks_of_reaches {received : List (Outcome ρ)} (r : Reaches d f received g)
    (h : f.Tracks opening s₀) : g.Tracks opening s₀ := by
  induction r with
  | refl => exact h
  | tail _ e ih => exact tracks_of_step ih e

end Flow

inductive Completed (d : Decoder ι ρ) (config : Config) (search : Search) (s₀ : Service ι) :
    Service ι → Prop
  | refused {error s} :
    Client.openCursor config search s₀ = (.error error, s) → Completed d config search s₀ s
  | onDemand {o s} (n : Nat) :
    Client.searchOnDemand config search s₀ = (.ok o, s) →
    Completed d config search s₀ ((o.nextMany d n s).2.1.drop (o.nextMany d n s).2.2)
  | paged {p s q t} :
    Client.searchPaged config search s₀ = (.ok p, s) → Paged.Reaches d p s q t →
    Completed d config search s₀ (q.drop t)
  | streaming {stream : Stream ι ρ} {total s switch received g} :
    Client.searchStreaming config search s₀ = (.ok (stream, total), s) →
    Flow.Reaches d ⟨s, switch, stream⟩ received g → g.stream.worker.hasExited →
    Completed d config search s₀ g.service

namespace Client

variable {config : Config} {search : Search} {s₀ s : Service ι}

-- A count opens an enumeration, pulls nothing, and releases the context if there is one.
theorem called_count (config : Config) (search : Search) (s : Service ι) :
    Called { search.opening config with maxElements := 0, includeCount := true } s [] (s.due 0)
      (count config search s).2 := by
  have hs := sends_send { search.opening config with maxElements := 0, includeCount := true } s
  have ha := hs.answer_eq
  have hw := hs.called
  rw [count]
  split
  case h_1 error t he =>
    rw [he] at ha hw
    simpa [Service.due, ← ha, heldAfter] using hw
  case h_2 a t he =>
    rw [he] at ha hw
    have hd : s.due 0 = a.held := by simp [Service.due, ← ha, heldAfter]
    rw [hd]
    rw [Answer.held]
    cases a.context <;> cases a.endOfSequence <;> cases a.total
    case some.false.none | some.false.some =>
      exact hw.release (by simp [release]) (by simp [release])
    all_goals exact hw

end Client

theorem Completed.disciplined {d : Decoder ι ρ} {config : Config} {search : Search}
    {s₀ s : Service ι} (h : Completed d config search s₀ s) :
    Disciplined (search.opening config) s₀ s := by
  cases h
  case refused ho => exact Client.disciplined_of_openCursor ho
  case onDemand n ho =>
    have hc := Client.tracks_of_openCursor (Client.openCursor_of_searchOnDemand ho)
    exact (OnDemand.tracks_nextMany n hc).disciplined_drop
  case paged hp r =>
    have ⟨_, hc⟩ := Client.openCursor_of_searchPaged hp
    exact (r.tracks (Client.tracks_of_openCursor hc)).disciplined_drop
  case streaming hs r he =>
    have ⟨c, items, hc, hs⟩ := Client.openCursor_of_searchStreaming hs
    subst hs
    have ht := Flow.tracks_of_reaches r (Flow.tracks_of_cursor rfl (Client.tracks_of_openCursor hc))
    exact ht.exited he

theorem Search.one_le_maxElements (search : Search) (config : Config) :
    1 ≤ search.maxElements config := by
  have h (hint : Int) : 1 ≤ effectivePageSize hint := by
    unfold effectivePageSize defaultPageSize
    split <;> omega
  rw [Search.maxElements]
  split
  · exact h _
  · exact h _

-- Sessions of all kinds keep to the discipline, and so does a count.
theorem calls_disciplined (d : Decoder ι ρ) (config : Config) (search : Search) (s₀ : Service ι) :
    (∀ s, Completed d config search s₀ s →
      1 ≤ (search.opening config).maxElements ∧ Disciplined (search.opening config) s₀ s) ∧
    Called { search.opening config with maxElements := 0, includeCount := true } s₀ [] (s₀.due 0)
      (Client.count config search s₀).2 :=
  ⟨fun _ h => ⟨search.one_le_maxElements config, h.disciplined⟩,
    Client.called_count config search s₀⟩

-- Two pages, of which the second one has to be pulled.
theorem calls_disciplined_two_pages :
    let search : Search := { filter := "/*", pageSize := some 5 }
    let s₀ : Service String := {
      enumerates := [.ok { context := "first", items := ["x"] }]
      pulls := [{ outcome := .ok { context := "second", items := ["y"] } }]
    }
    ∃ s, Completed .raw {} search s₀ s ∧ Disciplined (search.opening {}) s₀ s ∧
      s.calls = [.enumerate (search.opening {}), .pull "first" 5, .release "second"] := by
  intro search s₀
  have hc : Completed .raw {} search s₀ _ := .paged rfl (.page (.page .refl))
  exact ⟨_, hc, ((calls_disciplined .raw {} search s₀).left _ hc).right, rfl⟩

end ResourceQuery.Enumeration
