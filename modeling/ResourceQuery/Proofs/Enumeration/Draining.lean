import ResourceQuery.Proofs.Enumeration.Course
import ResourceQuery.Proofs.Enumeration.Opening

namespace ResourceQuery.Enumeration

variable {ι ρ σ : Type}

namespace Cursor

variable {c : Cursor} {s : Service ι} {x : String}

@[simp]
theorem total_holding (c : Cursor) (context : Option String) :
    (c.holding context).total = c.total :=
  rfl

theorem total_pull (c : Cursor) (s : Service ι) (h : c.Coherent) :
    (c.pull s).cursor.total = c.total := by
  cases hx : c.context
  case none => rw [pull_eq_of_none hx]
  case some => rw [(pulls_pull_of_some h hx).cursor_eq, total_holding]

end Cursor

namespace Paged

variable {d : Decoder ι ρ} {p : Paged ι} {s : Service ι}

-- A session that goes on has its first page at hand, or a context.
structure Sound (p : Paged ι) : Prop where
  coherent : p.cursor.Coherent
  unfinished : p.hasMore = true → p.initial = none → p.cursor.finished = false

-- What is still to come of a session.
def future (d : Decoder ι ρ) (p : Paged ι) (s : Service ι) : Walk ι (Page ρ) :=
  let visit := Walk.pagewise d p.cursor.total
  let after := Walk.onward visit p.cursor.maxElements s.pulls p.cursor.context
  if p.hasMore then
    match p.initial with
    | some items => visit p.cursor.context after items
    | none => after
  else {}

theorem decodeAll_fst (d : Decoder ι ρ) (items : List ι) (s : Service ι) :
    (decodeAll d items s).1 = items.mapM d.decode := by
  fun_induction decodeAll d items s with
  | case1 => rfl
  | case2 s item items error h => rw [Decoder.mapM_decode_cons_error h]
  | case3 s item items record h records s' hs ih =>
    rw [Decoder.mapM_decode_cons_ok h, ← ih, hs]

theorem past_decodeAll (d : Decoder ι ρ) (items : List ι) (s : Service ι) :
    (decodeAll d items s).2.past = s.past ++ ({ decoded := d.attempted items } : Walk ι σ) := by
  fun_induction decodeAll d items s with
  | case1 => simp [Decoder.attempted, untilFailure, Service.past]
  | case2 s item items error h =>
    rw [Decoder.attempted_cons_error h]
    ext1 <;> simp [Service.past]
  | case3 s item items record h records s' hs ih =>
    rw [hs] at ih
    rw [Decoder.attempted_cons_ok h, ih]
    ext1 <;> simp [Service.past]

theorem sound_deliver (h : p.cursor.Coherent) (items : List ι) :
    (p.deliver d items s).2.1.Sound := by
  rw [deliver]
  split
  case h_1 => exact ⟨h, fun hm _ => by simpa using hm⟩
  case h_2 => exact ⟨Cursor.coherent_release _ _, nofun⟩

theorem sound_nextPage (h : p.Sound) : (p.nextPage d s).2.1.Sound := by
  rw [nextPage]
  split
  case isFalse => exact h
  case isTrue =>
    split
    case h_1 => exact sound_deliver (p := { p with initial := none }) h.coherent _
    case h_2 =>
      have hc : (p.cursor.pull s).cursor.Coherent := Cursor.coherent_pull h.coherent
      dsimp only
      split
      case h_1 => exact sound_deliver (p := { p with cursor := _ }) hc _
      case h_2 => exact ⟨hc, by simp⟩

-- A page is taken off the walk.
theorem past_append_deliver (h : p.cursor.Coherent) (hi : p.initial = none) (items : List ι) :
    s.past ++ Walk.pagewise d p.cursor.total p.cursor.context
        (Walk.onward (Walk.pagewise d p.cursor.total) p.cursor.maxElements s.pulls p.cursor.context)
        items =
      { results := [(p.deliver d items s).1] } ++ ((p.deliver d items s).2.2.past ++
        (p.deliver d items s).2.1.future d (p.deliver d items s).2.2) := by
  have hfst := decodeAll_fst d items s
  have hpast := past_decodeAll (σ := Page ρ) d items s
  have hpulls := pulls_decodeAll d items s
  cases hr : decodeAll d items s with | mk outcome s' =>
  simp only [hr] at hfst hpast hpulls
  cases outcome with
  | error error =>
    simp only [Walk.pagewise, Decoder.decodePage, ← hfst, deliver, hr, future, Except.map,
      Cursor.past_release, hpast]
    ext1 <;> simp [Walk.failure, Service.past]
  | ok records =>
    have he : p.cursor.context.isNone = p.cursor.finished := h.symm
    simp only [Walk.pagewise, Decoder.decodePage, ← hfst, deliver, hr, future, Except.map, hi,
      hpast, hpulls, he, Bool.not_not]
    cases hf : p.cursor.finished with
    | false => ext1 <;> simp [Service.past]
    | true =>
      have hx : p.cursor.context = none := by simpa [hf] using he
      ext1 <;> simp [hx, Walk.onward, Service.past]

theorem past_append_future_nextPage (h : p.Sound) (hm : p.hasMore = true) :
    s.past ++ p.future d s = { results := [(p.nextPage d s).1] } ++
      ((p.nextPage d s).2.2.past ++ (p.nextPage d s).2.1.future d (p.nextPage d s).2.2) := by
  rw [nextPage, if_pos hm]
  cases hi : p.initial with
  | some items =>
    have hw :=
      past_append_deliver (d := d) (p := { p with initial := none }) (s := s) h.coherent rfl items
    simpa [future, hm, hi] using hw
  | none =>
    obtain ⟨x, hx⟩ := h.coherent.exists_context (h.unfinished hm hi)
    have hf : p.future d s = Walk.onward (Walk.pagewise d p.cursor.total) p.cursor.maxElements
        s.pulls p.cursor.context := by simp [future, hm, hi]
    have hc : (p.cursor.pull s).cursor.Coherent := Cursor.coherent_pull h.coherent
    cases ho : (p.cursor.pull s).outcome with
    | ok items =>
      have hw := Cursor.past_append_onward_ok (.pagewise d p.cursor.total) h.coherent hx ho
      have hd := past_append_deliver (d := d) (p := { p with cursor := (p.cursor.pull s).cursor })
        (s := (p.cursor.pull s).service) hc hi items
      rw [p.cursor.total_pull s h.coherent, p.cursor.maxElements_pull s h.coherent] at hd
      rw [hf, hw]
      simpa only [ho, hi, hm] using hd
    | error error =>
      have hw := Cursor.past_append_onward_error (.pagewise d p.cursor.total) h.coherent hx ho
      rw [hf, hw]
      ext1 <;> simp [ho, future, Service.past]

-- What comes of a session that is drained.
def drained (d : Decoder ι ρ) (p : Paged ι) (s : Service ι) : Walk ι (Page ρ) :=
  { results := (p.drain d s).1 } ++ (p.drain d s).2.2.past

theorem drained_eq (h : p.Sound) : p.drained d s = s.past ++ p.future d s := by
  rw [drained]
  fun_induction drain d p s with
  | case1 p s hm first results p' s' hd ih =>
    rw [past_append_future_nextPage h hm, ← ih (sound_nextPage h), hd]
    ext1 <;> simp [first]
  | case2 p s hm => simp [future, hm]

theorem next_drain (d : Decoder ι ρ) (p : Paged ι) (s : Service ι) :
    (p.drain d s).2.1.next d (p.drain d s).2.2 = (none, (p.drain d s).2) := by
  fun_induction drain d p s with
  | case1 p s hm first results p' s' hd ih => rwa [hd] at ih
  | case2 p s hm => simp [next, hm]

end Paged

namespace OnDemand

variable {d : Decoder ι ρ} {o : OnDemand ι} {s : Service ι}

-- What comes of a session that is drained.
def drained (d : Decoder ι ρ) (o : OnDemand ι) (s : Service ι) : Walk ι ρ :=
  { results := (o.drain d s).1 } ++ (o.drain d s).2.2.past

theorem drained_eq (h : o.cursor.Coherent) : o.drained d s = s.past ++ o.future d s :=
  (past_append_future_drain h).symm

theorem next_of_next_eq_none (h : (o.next d s).1 = none) :
    (o.next d s).2.1.next d (o.next d s).2.2 = (none, (o.next d s).2) := by
  fun_induction next d o s with
  | case1 o s hf => rw [next, if_pos hf]
  | case2 => cases h
  | case3 => cases h
  | case4 o s hf hb hc => rw [next, if_neg hf]; simp [hb, hc]
  | case5 _ _ _ _ _ _ _ _ ih => exact ih h
  | case6 => cases h

theorem next_drain (d : Decoder ι ρ) (o : OnDemand ι) (s : Service ι) :
    (o.drain d s).2.1.next d (o.drain d s).2.2 = (none, (o.drain d s).2) := by
  fun_induction drain d o s with
  | case1 o s o' s' hn =>
    simpa [hn] using next_of_next_eq_none (d := d) (o := o) (s := s) (by rw [hn])
  | case2 o s result o' s' hn results o'' s'' hd ih => rwa [hd] at ih

end OnDemand

-- What comes of a course that is taken record by record and of the same course page by page, by
-- sessions that begin with some decoded items.
structure Course.Taken (c : Course ι) (d : Decoder ι ρ) (total : Option Nat) (decoded : List ι)
    (v : Walk ι ρ) (w : Walk ι (Page ρ)) : Prop where
  records_eq : v.results = c.records d
  pages_eq : w.results = c.pages d total
  failures_eq : failures v.results = failures w.results
  successes_eq : successes v.results = (successes w.results).flatMap Page.items ++
    successes (untilFailure ((c.page (successes w.results).length).map d.decode))
  calls_eq : v.calls = w.calls
  decoded_eq : v.decoded = decoded ++ c.items.take v.results.length
  same_decoded : v.decoded = w.decoded

theorem Course.taken_along (d : Decoder ι ρ) (total : Option Nat) (maxElements : Nat)
    (pulls : List (PullAnswer ι)) (held : Option String) (answer : Outcome (Answer ι))
    (calls : List Call) (decoded : List ι) :
    (ofAnswer answer (ofPulls pulls)).Taken d total decoded
      ({ calls, decoded } ++ Walk.along (Walk.through d) maxElements pulls held answer)
      ({ calls, decoded } ++
        Walk.along (Walk.pagewise d total) maxElements pulls held answer) := by
  have hrecords := Walk.results_along_through d maxElements pulls held answer
  have hpages := Walk.results_along_pagewise d total maxElements pulls held answer
  have hdecoded := Walk.decoded_along_through d maxElements pulls held answer
  have ⟨hcalls, hsame⟩ := Walk.alike_along
    (fun held items _ _ => Walk.alike_through_pagewise d total held items) maxElements pulls held
    answer
  have ⟨hfailures, hsuccesses⟩ := records_and_pages d total (ofAnswer answer (ofPulls pulls))
  constructor <;> simp only [Walk.results_append, Walk.calls_append, Walk.decoded_append,
    List.nil_append, hrecords, hpages, hcalls, hsame]
  case failures_eq => exact hfailures
  case successes_eq => exact hsuccesses
  case decoded_eq => rw [← hsame, hdecoded, hrecords]

namespace Client

variable {config : Config} {search : Search} {s₀ s : Service ι} {c : Cursor} {items : List ι}

-- What a session begins with, and what it goes on with if it deals with pages by `visit`.
theorem begin_along (visit : Walk.Visit ι σ)
    (h : openCursor config search s₀ = (.ok (c, items), s)) :
    s.past ++ visit c.context (.onward visit c.maxElements s.pulls c.context) items =
      { calls := s₀.calls ++ [.enumerate (search.opening config)], decoded := s₀.decoded } ++
        .along visit (search.maxElements config) s₀.pulls none (s₀.answer 0) := by
  have ⟨a, ha, hp, hc, hs⟩ := openCursor_eq_ok_iff.mp h
  have hsent := sends_send (search.opening config) s₀
  subst hc hs
  rw [Service.past, hsent.calls_eq, hsent.decoded_eq, hsent.pulls_eq, Walk.along, ha]
  simp [pageOf, hp, heldAfter, opened]

theorem drained_onDemand (d : Decoder ι ρ) (h : openCursor config search s₀ = (.ok (c, items), s)) :
    OnDemand.drained d { cursor := c, buffer := items } s =
      { calls := s₀.calls ++ [.enumerate (search.opening config)], decoded := s₀.decoded } ++
        .along (.through d) (search.maxElements config) s₀.pulls none (s₀.answer 0) := by
  rw [← begin_along _ h, OnDemand.drained_eq (coherent_of_openCursor h), OnDemand.future,
    Walk.ofAnswers_eq_onward]
  rfl

theorem drained_paged (d : Decoder ι ρ) (h : openCursor config search s₀ = (.ok (c, items), s)) :
    Paged.drained d { cursor := c, initial := some items } s =
      { calls := s₀.calls ++ [.enumerate (search.opening config)], decoded := s₀.decoded } ++
        .along (.pagewise d c.total) (search.maxElements config) s₀.pulls none (s₀.answer 0) := by
  rw [← begin_along _ h, Paged.drained_eq ⟨coherent_of_openCursor h, by simp⟩]
  rfl

end Client

-- Two sessions of one search, drained. Whether contexts can be released makes no difference.
theorem drained_sessions_agree (config : Config) (search : Search) (d : Decoder ι ρ)
    (s₀ : Service ι) :
    let course := Course.ofAnswer (s₀.answer 0) (.ofPulls s₀.pulls)
    (∃ error, course = { failure := some error } ∧ ∀ releases, ∃ s,
      Client.searchOnDemand config search { s₀ with releases } = (.error error, s) ∧
      Client.searchPaged config search { s₀ with releases } = (.error error, s)) ∨
    ∃ a o p v w, s₀.answer 0 = .ok a ∧ course.Taken d a.total s₀.decoded v w ∧ ∀ releases, ∃ s,
      (Client.searchOnDemand config search { s₀ with releases } = (.ok o, s) ∧
        o.drained d s = v ∧
        (o.drain d s).2.1.next d (o.drain d s).2.2 = (none, (o.drain d s).2)) ∧
      (Client.searchPaged config search { s₀ with releases } = (.ok p, s) ∧
        p.drained d s = w ∧
        (p.drain d s).2.1.next d (p.drain d s).2.2 = (none, (p.drain d s).2)) := by
  intro course
  cases hp : pageOf (s₀.answer 0) with
  | error error =>
    refine .inl ⟨error, Course.ofAnswer_eq_failure hp _, fun releases => ?_⟩
    have ho : Client.openCursor config search { s₀ with releases } = (.error error, _) :=
      Client.openCursor_eq_error_iff.mpr ⟨hp, rfl⟩
    exact ⟨_, by rw [Client.searchOnDemand, ho], by rw [Client.searchPaged, ho]⟩
  | ok items =>
    obtain ⟨a, ha, rfl, -⟩ := pageOf_eq_ok hp
    let c := Client.opened config search a
    refine .inr ⟨a, { cursor := c, buffer := a.items }, { cursor := c, initial := some a.items },
      _, _, ha, Course.taken_along d a.total (search.maxElements config) s₀.pulls none _
        (s₀.calls ++ [.enumerate (search.opening config)]) s₀.decoded, fun releases => ?_⟩
    have ho : Client.openCursor config search { s₀ with releases } = (.ok (c, a.items), _) :=
      Client.openCursor_eq_ok_iff.mpr ⟨a, ha, by rwa [ha] at hp, rfl, rfl⟩
    have hv := Client.drained_onDemand d ho
    have hw := Client.drained_paged d ho
    exact ⟨_, ⟨by rw [Client.searchOnDemand, ho], hv, OnDemand.next_drain ..⟩,
      by rw [Client.searchPaged, ho], hw, Paged.next_drain ..⟩

end ResourceQuery.Enumeration
