import ResourceQuery.Proofs.Enumeration.Draining
import ResourceQuery.Proofs.Enumeration.Place

namespace ResourceQuery.Enumeration

variable {ι ρ : Type}

namespace OnDemand

variable {d : Decoder ι ρ} {o : OnDemand ι} {s₀ s : Service ι} {n : Nat} {done : List ι}

theorem nextMany_succ (d : Decoder ι ρ) (n : Nat) (o : OnDemand ι) (s : Service ι) :
    o.nextMany d (n + 1) s =
      let (results, r) := (o.next d s).2.1.nextMany d n (o.next d s).2.2
      ((o.next d s).1 :: results, r) :=
  rfl

theorem next_of_isFinished (h : o.isFinished = true) (s : Service ι) :
    o.next d s = (none, o, s) := by
  cases hf : o.failed
  case true => rw [next, if_pos hf]
  case false =>
    simp only [isFinished, hf, Bool.false_or, Bool.and_eq_true, List.isEmpty_iff] at h
    rw [next, if_neg (by simp [hf])]
    simp [h.left, h.right]

theorem nextMany_of_isFinished (h : o.isFinished = true) (n : Nat) (s : Service ι) :
    o.nextMany d n s = (List.replicate n none, o, s) := by
  induction n with
  | zero => rfl
  | succ n ih => simp only [nextMany_succ, next_of_isFinished h, ih, List.replicate_succ]

theorem isFinished_of_failed (h : o.failed = true) : o.isFinished = true := by
  simp [isFinished, h]

-- Only a record leaves a session unfinished.
theorem isFinished_next (h : ∀ record, (o.next d s).1 ≠ some (.ok record)) :
    (o.next d s).2.1.isFinished = true := by
  fun_induction next d o s with
  | case1 o s hf => exact isFinished_of_failed hf
  | case2 _ _ _ _ _ _ record => exact absurd rfl (h record)
  | case3 => exact isFinished_of_failed rfl
  | case4 o s hf hb hc => simp [isFinished, hb, hc]
  | case5 _ _ _ _ _ _ _ _ ih => exact ih h
  | case6 => exact isFinished_of_failed rfl

-- Sessions fail by failures.
theorem failed_next : (o.next d s).2.1.failed = true ↔
    o.failed = true ∨ ∃ error, (o.next d s).1 = some (.error error) := by
  fun_induction next d o s with
  | case1 o s hf => simp [hf]
  | case2 o s hf => simp [hf]
  | case3 o s hf => simp [hf, fail]
  | case4 o s hf => simp [hf]
  | case5 _ _ hf _ _ _ _ _ ih => simpa [hf] using ih
  | case6 o s hf => simp [hf, fail]

theorem failed_nextMany (n : Nat) : (o.nextMany d n s).2.1.failed = true ↔
    o.failed = true ∨ ∃ error, some (.error error) ∈ (o.nextMany d n s).1 := by
  induction n generalizing o s with
  | zero => simp [nextMany]
  | succ n ih =>
    simp only [nextMany_succ, ih, failed_next, List.mem_cons, exists_or, or_assoc]
    simp only [eq_comm]

-- Records, then one failure at most, and nothing from then on.
inductive Fused : List (Option (Outcome ρ)) → Prop
  | over (n : Nat) : Fused (List.replicate n none)
  | failure (error : EnumerationError) (n : Nat) :
    Fused (some (.error error) :: List.replicate n none)
  | cons {results} (record : ρ) : Fused results → Fused (some (.ok record) :: results)

theorem fused_nextMany (n : Nat) : Fused (o.nextMany d n s).1 := by
  induction n generalizing o s with
  | zero => exact .over 0
  | succ n ih =>
    have hfinished := isFinished_next (d := d) (o := o) (s := s)
    rw [nextMany_succ]
    match hr : (o.next d s).1 with
    | some (.ok record) => exact .cons record ih
    | some (.error error) =>
      rw [nextMany_of_isFinished (hfinished (by simp [hr]))]
      exact .failure error n
    | none =>
      rw [nextMany_of_isFinished (hfinished (by simp [hr]))]
      exact .over (n + 1)

-- The items that are not done of the latest page are at hand, unless the session has failed.
structure At (s₀ : Service ι) (n : Nat) (done : List ι) (o : OnDemand ι) (s : Service ι) :
    Prop where
  place : Place s₀ n done s
  coherent : o.cursor.Coherent
  page_eq : o.failed = false → pageOf (s₀.answer n) = .ok (done ++ o.buffer)
  context_eq : o.failed = false → o.cursor.context = heldAfter (s₀.answer n)

-- What a call gives that leaves a session on a page, with so much of the page done.
inductive Gives (d : Decoder ι ρ) (s₀ : Service ι) (n : Nat) (done before after : List ι)
    (o : OnDemand ι) : Option (Outcome ρ) → Prop
  -- The record of an item. What is left of the page is at hand.
  | record {earlier item record} :
    pageOf (s₀.answer n) = .ok (done ++ o.buffer) → done = earlier ++ [item] →
    d.decode item = .ok record → after = before ++ [item] →
    Gives d s₀ n done before after o (some (.ok record))
  -- The failure of an item. What is left of the page is given up.
  | malformed {earlier item left error} :
    pageOf (s₀.answer n) = .ok (done ++ left) → done = earlier ++ [item] →
    d.decode item = .error error → after = before ++ [item] → o.buffer = [] →
    Gives d s₀ n done before after o (some (.error error))
  -- The failure that came in place of the page.
  | failure {error} :
    pageOf (s₀.answer n) = .error error → done = [] → after = before → o.buffer = [] →
    Gives d s₀ n done before after o (some (.error error))
  -- Nothing, as the page is the last one and used up.
  | over {a} :
    s₀.answer n = .ok a → a.endOfSequence = true → done = a.items → after = before →
    o.buffer = [] → Gives d s₀ n done before after o none

-- A session fails where it stands.
theorem at_fail (h : Place s₀ n done s) (o : OnDemand ι) :
    At s₀ n done (o.fail s).1 (o.fail s).2 where
  place := h.release o.cursor
  coherent := Cursor.coherent_release _ _
  page_eq := nofun
  context_eq := nofun

-- A session whose page is used up pulls the next one.
theorem At.pull {x : String} (h : At s₀ n done o s) (hf : o.failed = false) (hb : o.buffer = [])
    (hx : o.cursor.context = some x) :
    Place s₀ (n + 1) [] (o.cursor.pull s).service ∧
      (o.cursor.pull s).service.decoded = s.decoded := by
  have hpage : pageOf (s₀.answer n) = .ok done := by simpa [hb] using h.page_eq hf
  have hpulls := Cursor.pulls_pull_of_some (s := s) h.coherent hx
  exact ⟨h.place.pull h.coherent hx hpage, hpulls.decoded_eq⟩

theorem At.next (h : At s₀ n done o s) (hf : o.failed = false) :
    ∃ p used, At s₀ p used (o.next d s).2.1 (o.next d s).2.2 ∧
      Gives d s₀ p used s.decoded (o.next d s).2.2.decoded (o.next d s).2.1 (o.next d s).1 := by
  fun_induction OnDemand.next d o s generalizing n done with
  | case1 o s hfailed => simp [hf] at hfailed
  | case2 o s _ item buffer hb record hr =>
    have hpage : pageOf (s₀.answer n) = .ok (done ++ [item] ++ buffer) := by
      simpa [hb] using h.page_eq hf
    refine ⟨n, done ++ [item], ⟨h.place.recordDecoding item, h.coherent, fun _ => hpage, ?_⟩, ?_⟩
    · exact h.context_eq
    · exact .record hpage rfl hr rfl
  | case3 o s _ item buffer hb error hr =>
    have hpage : pageOf (s₀.answer n) = .ok (done ++ [item] ++ buffer) := by
      simpa [hb] using h.page_eq hf
    refine ⟨n, done ++ [item], at_fail (h.place.recordDecoding item) _, ?_⟩
    exact .malformed hpage rfl hr (Cursor.decoded_release _ _) rfl
  | case4 o s _ hb hc =>
    have hpage : pageOf (s₀.answer n) = .ok done := by simpa [hb] using h.page_eq hf
    have hx : o.cursor.context = none := by simpa [Cursor.Coherent, hc] using h.coherent
    refine ⟨n, done, h, ?_⟩
    obtain ⟨a, ha, rfl, ⟨he, _⟩ | ⟨_, x, _, hheld⟩⟩ := pageOf_eq_ok hpage
    case inl => exact .over ha he rfl rfl hb
    case inr => simp [h.context_eq hf, ha, heldAfter, hheld] at hx
  | case5 o s _ hb hc p items hp =>
    rename_i ih
    obtain ⟨x, hx⟩ := h.coherent.exists_context (by simpa using hc)
    obtain ⟨hplace, hd⟩ := h.pull hf hb hx
    have hpage : pageOf (s₀.answer (n + 1)) = .ok items :=
      h.place.outcome_pull h.coherent hx ▸ hp
    have hnext : At s₀ (n + 1) [] { o with cursor := p.cursor, buffer := items }
        (p.service.note (.buffered items.length)) := {
      place := hplace.congr rfl rfl rfl
      coherent := Cursor.coherent_pull h.coherent
      page_eq := fun _ => hpage
      context_eq := fun _ => h.place.context_pull h.coherent hx
    }
    obtain ⟨q, used, hafter, hgives⟩ := ih hnext hf
    exact ⟨q, used, hafter, hd ▸ hgives⟩
  | case6 o s _ hb hc p error =>
    rename_i hp
    obtain ⟨x, hx⟩ := h.coherent.exists_context (by simpa using hc)
    obtain ⟨hplace, hd⟩ := h.pull hf hb hx
    have hpage : pageOf (s₀.answer (n + 1)) = .error error :=
      h.place.outcome_pull h.coherent hx ▸ hp
    refine ⟨n + 1, [], at_fail hplace _, ?_⟩
    exact .failure hpage rfl ((Cursor.decoded_release _ _).trans hd) rfl

theorem At.nextMany (h : At s₀ n done o s) (m : Nat) :
    ∃ p used, At s₀ p used (o.nextMany d m s).2.1 (o.nextMany d m s).2.2 := by
  induction m generalizing o s n done with
  | zero => exact ⟨n, done, h⟩
  | succ m ih =>
    cases hf : o.failed
    case true => exact nextMany_of_isFinished (isFinished_of_failed hf) (m + 1) s ▸ ⟨n, done, h⟩
    case false =>
      have ⟨_, _, hnext, _⟩ := h.next (d := d) hf
      exact ih hnext

end OnDemand

-- An empty page that is not the last one.
def PullAnswer.IsBlank (a : PullAnswer ι) : Prop :=
  pageOf a.outcome = .ok [] ∧ heldAfter a.outcome ≠ none

-- The same service with other answers to come.
def Service.withPulls (s : Service ι) (pulls : List (PullAnswer ι)) : Service ι :=
  { s with pulls }

namespace Cursor

variable {c : Cursor} {x : String}

theorem release_withPulls (c : Cursor) (s : Service ι) (pulls : List (PullAnswer ι)) :
    c.release (s.withPulls pulls) = ((c.release s).1, (c.release s).2.withPulls pulls) := by
  cases hx : c.context with
  | none => simp [release, hx]
  | some x =>
    simp only [release, hx, Service.releaseQuietly, Service.release, Service.withPulls,
      Service.note]
    cases s.releases.headD none <;> rfl

-- A pull does not look past the next answer.
theorem exists_pull_withPulls (hc : c.Coherent) (hx : c.context = some x) (s : Service ι)
    (a : PullAnswer ι) :
    ∃ p : Pulled ι, p.outcome = pageOf a.outcome ∧ p.cursor = c.holding (heldAfter a.outcome) ∧
      ∀ pulls, c.pull (s.withPulls (a :: pulls)) =
        { p with service := p.service.withPulls pulls } := by
  have hpulls := pulls_pull_of_some (s := s.withPulls [a]) hc hx
  refine ⟨c.pull (s.withPulls [a]), hpulls.outcome_eq, hpulls.cursor_eq, fun pulls => ?_⟩
  obtain ⟨_ | a, cancels⟩ := a
  case error error =>
    -- The cursor is released after the call and its notes.
    let t := ((s.note (.pulling x c.maxElements)).recordCall (.pull x c.maxElements)).note
      (.pullFailed error)
    have hp (pulls : List (PullAnswer ι)) :
        c.pull (s.withPulls (⟨.error error, cancels⟩ :: pulls)) =
          { outcome := .error error, cursor := (c.release (t.withPulls pulls)).1,
            service := (c.release (t.withPulls pulls)).2, cancels } := by
      rw [pull, hx]
      rfl
    simp only [hp, release_withPulls]
    rfl
  case ok =>
    simp only [pull, hx, Service.pull, Service.withPulls, Service.note, List.headD_cons,
      List.tail_cons]
    rcases advance { c with context := none } a.context a.endOfSequence with ⟨_ | _, _⟩
    · rfl
    · rfl

end Cursor

namespace OnDemand

variable {d : Decoder ι ρ} {o : OnDemand ι} {s : Service ι}

theorem fail_withPulls (o : OnDemand ι) (s : Service ι) (pulls : List (PullAnswer ι)) :
    o.fail (s.withPulls pulls) = ((o.fail s).1, (o.fail s).2.withPulls pulls) := by
  simp only [fail, Cursor.release_withPulls]

-- The next call needs no page.
def Settled (o : OnDemand ι) : Prop :=
  o.isFinished = true ∨ o.failed = false ∧ o.buffer ≠ []

theorem next_withPulls_of_settled (h : o.Settled) (d : Decoder ι ρ) (s : Service ι) :
    ∃ (result : Option (Outcome ρ)) (o' : OnDemand ι) (t : Service ι),
      ∀ pulls, o.next d (s.withPulls pulls) = (result, o', t.withPulls pulls) := by
  rcases h with hfinished | ⟨hf, hb⟩
  case inl => exact ⟨none, o, s, fun _ => next_of_isFinished hfinished _⟩
  case inr =>
    have ⟨item, buffer, hb⟩ := List.exists_cons_of_ne_nil hb
    cases hr : d.decode item with
    | ok record =>
      refine ⟨some (.ok record), { o with buffer }, s.recordDecoding item, fun pulls => ?_⟩
      rw [next, if_neg (by simp [hf])]
      simp only [hb, hr]
      rfl
    | error error =>
      let failing : OnDemand ι := { o with buffer }
      refine ⟨some (.error error), (failing.fail (s.recordDecoding item)).1,
        (failing.fail (s.recordDecoding item)).2, fun pulls => ?_⟩
      rw [next, if_neg (by simp [hf])]
      simp only [hb, hr]
      rw [← fail_withPulls]
      rfl

theorem not_settled (h : ¬o.Settled) :
    o.failed = false ∧ o.buffer = [] ∧ o.cursor.finished = false := by
  simp only [Settled, isFinished] at h
  cases hf : o.failed <;> cases hb : o.buffer <;> cases hc : o.cursor.finished <;> simp_all

theorem next_of_not_settled (h : ¬o.Settled) (d : Decoder ι ρ) (s : Service ι) :
    o.next d s =
      let p := o.cursor.pull s
      match p.outcome with
      | .ok buffer =>
        next d { o with cursor := p.cursor, buffer } (p.service.note (.buffered buffer.length))
      | .error error => (some (.error error), { o with cursor := p.cursor }.fail p.service) := by
  have ⟨hf, hb, hc⟩ := not_settled h
  rw [next, if_neg (by simp [hf])]
  simp only [hb, hc]
  rw [if_neg (by simp)]
  split <;> simp [*]

-- An answer is all that a call needs, or it is blank and the call goes on.
theorem next_cons (hs : ¬o.Settled) (hc : o.cursor.Coherent) (d : Decoder ι ρ) (s : Service ι)
    (a : PullAnswer ι) :
    (∃ (result : Option (Outcome ρ)) (o' : OnDemand ι) (t : Service ι), ∀ pulls,
      o.next d (s.withPulls (a :: pulls)) = (result, o', t.withPulls pulls)) ∨
    a.IsBlank ∧ ∃ (o' : OnDemand ι) (t : Service ι), o'.cursor.Coherent ∧ ∀ pulls,
      o.next d (s.withPulls (a :: pulls)) = o'.next d (t.withPulls pulls) := by
  have ⟨_, _, hfinished⟩ := not_settled hs
  have ⟨x, hx⟩ := hc.exists_context hfinished
  have ⟨p, houtcome, hcursor, hp⟩ := Cursor.exists_pull_withPulls hc hx s a
  cases ho : p.outcome with
  | error error =>
    let failing : OnDemand ι := { o with cursor := p.cursor }
    refine .inl ⟨some (.error error), (failing.fail p.service).1, (failing.fail p.service).2,
      fun pulls => ?_⟩
    simp only [next_of_not_settled hs, hp, ho, fail_withPulls]
    rfl
  | ok items =>
    let turned : OnDemand ι := { o with cursor := p.cursor, buffer := items }
    let t := p.service.note (.buffered items.length)
    have hnext (pulls : List (PullAnswer ι)) :
        o.next d (s.withPulls (a :: pulls)) = turned.next d (t.withPulls pulls) := by
      simp only [next_of_not_settled hs, hp, ho]
      rfl
    by_cases ht : turned.Settled
    case pos =>
      have ⟨result, o', t', hn⟩ := next_withPulls_of_settled ht d t
      exact .inl ⟨result, o', t', fun pulls => (hnext pulls).trans (hn pulls)⟩
    case neg =>
      have ⟨_, hitems, hgoes⟩ := not_settled ht
      have hpage : pageOf a.outcome = .ok [] := by
        rw [← houtcome, ho]
        exact congrArg _ hitems
      have hheld : heldAfter a.outcome ≠ none := by
        intro hn
        simp [turned, hcursor, Cursor.holding, hn] at hgoes
      have hturned : turned.cursor.Coherent := by
        simp only [turned, hcursor, Cursor.coherent_holding]
      exact .inr ⟨⟨hpage, hheld⟩, turned, t, hturned, hnext⟩

-- A call does not look past the first answer that is not blank.
theorem next_withPulls (hc : o.cursor.Coherent) (d : Decoder ι ρ) (s : Service ι)
    {pulls : List (PullAnswer ι)} (h : ∃ a ∈ pulls, ¬a.IsBlank) :
    ∃ m ≤ pulls.length, ∃ (result : Option (Outcome ρ)) (o' : OnDemand ι) (t : Service ι),
      ∀ further, o.next d (s.withPulls (pulls ++ further)) =
        (result, o', t.withPulls (pulls.drop m ++ further)) := by
  induction pulls generalizing o s with
  | nil => simp at h
  | cons a pulls ih =>
    by_cases hs : o.Settled
    case pos =>
      have ⟨result, o', t, hn⟩ := next_withPulls_of_settled hs d s
      exact ⟨0, Nat.zero_le _, result, o', t, fun further => hn _⟩
    case neg =>
      rcases next_cons hs hc d s a with ⟨result, o', t, hn⟩ | ⟨hblank, o', t, hc', hn⟩
      case inl => exact ⟨1, Nat.succ_pos _, result, o', t, fun further => hn _⟩
      case inr =>
        have ⟨m, hm, result, o'', t', hn'⟩ := ih hc' t (by simpa [hblank] using h)
        exact ⟨m + 1, Nat.succ_le_succ hm, result, o'', t',
          fun further => (hn _).trans (hn' further)⟩

-- A call does not run on along an endless script, unless all of its pages are blank.
theorem next_endless (hc : o.cursor.Coherent) (d : Decoder ι ρ) (s : Service ι)
    {script : Nat → PullAnswer ι} {j : Nat} (h : ¬(script j).IsBlank) :
    ∃ m ≤ j + 1, ∃ (result : Option (Outcome ρ)) (o' : OnDemand ι) (t : Service ι),
      ∀ k > j, o.next d (s.withPulls ((List.range k).map script)) =
        (result, o', t.withPulls (((List.range k).map script).drop m)) := by
  have hj : ∃ a ∈ (List.range (j + 1)).map script, ¬a.IsBlank :=
    ⟨script j, List.mem_map_of_mem (by simp), h⟩
  have ⟨m, hm, result, o', t, hn⟩ := next_withPulls hc d s hj
  rw [List.length_map, List.length_range] at hm
  refine ⟨m, hm, result, o', t, fun k hk => ?_⟩
  obtain ⟨l, rfl⟩ := Nat.exists_eq_add_of_le (Nat.succ_le_of_lt hk)
  rw [List.range_add, List.map_append, hn, List.drop_append_of_le_length (by simpa using hm)]

end OnDemand

-- A session that has begun is at the start of its first page.
theorem Client.at_of_searchOnDemand {config : Config} {search : Search} {s₀ s : Service ι}
    {o : OnDemand ι} (h : searchOnDemand config search s₀ = (.ok o, s)) :
    OnDemand.At s₀ 0 [] o s ∧ o.failed = false := by
  have ho := openCursor_of_searchOnDemand h
  have ⟨hplace, hpage, hheld⟩ := place_of_openCursor ho
  refine ⟨⟨hplace, coherent_of_openCursor ho, fun _ => hpage, fun _ => hheld⟩, ?_⟩
  rw [searchOnDemand] at h
  split at h <;> cases h
  rfl

-- A call after any number of calls. The pages that were pulled are all needed for its result: up to
-- the one before the latest they are used up, and it decodes one item of the latest one at most. A
-- failure is given once. From then on, after the end, and whenever a session says that it is
-- finished, nothing is given, called or changed. No call goes on for ever, unless a script does so
-- with blank pages.
theorem on_demand_lazy_and_fused {config : Config} {search : Search} {d : Decoder ι ρ}
    {s₀ s s₁ s₂ : Service ι} {o o₁ o₂ : OnDemand ι} {n : Nat}
    {results : List (Option (Outcome ρ))} {result : Option (Outcome ρ)}
    (h : Client.searchOnDemand config search s₀ = (.ok o, s))
    (hn : o.nextMany d n s = (results, o₁, s₁)) (hr : o₁.next d s₁ = (result, o₂, s₂)) :
    ((∀ error, some (.error error) ∉ results) → ∃ p done, Place s₀ p done s₂ ∧
      OnDemand.Gives d s₀ p done s₁.decoded s₂.decoded o₂ result) ∧
    OnDemand.Fused results ∧
    ((∀ record, result ≠ some (.ok record)) → o₂.isFinished ∧
      ∀ m, o₂.nextMany d m s₂ = (List.replicate m none, o₂, s₂)) ∧
    (o₁.isFinished → ∀ m, o₁.nextMany d m s₁ = (List.replicate m none, o₁, s₁)) ∧
    ∀ (script : Nat → PullAnswer ι) (j : Nat), ¬(script j).IsBlank →
      ∃ m ≤ j + 1, ∃ (result : Option (Outcome ρ)) (o' : OnDemand ι) (t : Service ι),
        ∀ k > j, o₁.next d (s₁.withPulls ((List.range k).map script)) =
          (result, o', t.withPulls (((List.range k).map script).drop m)) := by
  have ⟨hnew, hf⟩ := Client.at_of_searchOnDemand h
  have ⟨p, done, hat⟩ := hnew.nextMany (d := d) n
  have hfailed := OnDemand.failed_nextMany (d := d) (o := o) (s := s) n
  have hfused : OnDemand.Fused (o.nextMany d n s).1 := OnDemand.fused_nextMany n
  have hfinished := OnDemand.isFinished_next (d := d) (o := o₁) (s := s₁)
  rw [hn] at hat hfailed hfused
  rw [hr] at hfinished
  refine ⟨fun hresults => ?gives, hfused, fun hresult => ?fused, fun hf m => ?finished,
    fun _ _ => ?ends⟩
  case gives =>
    have hgoing : o₁.failed = false := by simpa [hf, hresults] using hfailed
    have ⟨q, used, hafter, hgives⟩ := hat.next (d := d) hgoing
    rw [hr] at hafter hgives
    exact ⟨q, used, hafter.place, hgives⟩
  case fused =>
    have hf := hfinished hresult
    exact ⟨hf, fun m => OnDemand.nextMany_of_isFinished hf m s₂⟩
  case finished => exact OnDemand.nextMany_of_isFinished hf m s₁
  case ends => exact OnDemand.next_endless hat.coherent d s₁

-- The second item is on the third page, as the page between is blank.
theorem on_demand_lazy_and_fused_blank_page :
    let search : Search := { filter := "/*" }
    let s₀ : Service String := {
      enumerates := [.ok { context := "first", items := ["x"] }]
      pulls := [{ outcome := .ok { context := "second" } },
        { outcome := .ok { items := ["y", "z"], endOfSequence := true } }]
    }
    ∃ o o₁ o₂ s s₁ s₂, Client.searchOnDemand {} search s₀ = (.ok o, s) ∧
      o.nextMany .raw 1 s = ([some (.ok "x")], o₁, s₁) ∧
      o₁.next .raw s₁ = (some (.ok "y"), o₂, s₂) ∧ o₂.buffer = ["z"] ∧
      Place s₀ 2 ["y"] s₂ := by
  intro search s₀
  let cursor : Cursor := { maxElements := defaultPageSize }
  let o : OnDemand String := { cursor := cursor.holding "first", buffer := ["x"] }
  let o₁ : OnDemand String := { cursor := cursor.holding "first", buffer := [] }
  let blank : OnDemand String := { cursor := cursor.holding "second", buffer := [] }
  let last : OnDemand String := { cursor := cursor.holding none, buffer := ["y", "z"] }
  let o₂ : OnDemand String := { cursor := cursor.holding none, buffer := ["z"] }
  let s := (Client.openCursor {} search s₀).2
  let s₁ := s.recordDecoding "x"
  let t₁ := (o₁.cursor.pull s₁).service.note (.buffered 0)
  let t₂ := (blank.cursor.pull t₁).service.note (.buffered 2)
  have h : Client.searchOnDemand {} search s₀ = (.ok o, s) := rfl
  have hn : o.nextMany .raw 1 s = ([some (.ok "x")], o₁, s₁) := by
    rw [OnDemand.nextMany_succ, OnDemand.next]
    rfl
  have hr : o₁.next .raw s₁ = (some (.ok "y"), o₂, t₂.recordDecoding "y") := by
    have hs₁ : ¬o₁.Settled := by simp [OnDemand.Settled, OnDemand.isFinished, o₁, Cursor.holding]
    have hs₂ : ¬blank.Settled := by
      simp [OnDemand.Settled, OnDemand.isFinished, blank, Cursor.holding]
    calc o₁.next .raw s₁
      _ = blank.next .raw t₁ := OnDemand.next_of_not_settled hs₁ .raw s₁
      _ = last.next .raw t₂ := OnDemand.next_of_not_settled hs₂ .raw t₁
      _ = (some (.ok "y"), o₂, t₂.recordDecoding "y") := by rw [OnDemand.next]; rfl
  obtain ⟨p, done, hplace, _⟩ := (on_demand_lazy_and_fused h hn hr).left (by simp)
  have hp : 2 = 0 + p := hplace.count_eq
  obtain rfl : 2 = p := by omega
  have hd : ["x", "y"] = "x" :: done := hplace.decoded_eq
  obtain rfl : ["y"] = done := List.tail_eq_of_cons_eq hd
  exact ⟨o, o₁, o₂, s, s₁, _, h, hn, hr, rfl, hplace⟩

end ResourceQuery.Enumeration
