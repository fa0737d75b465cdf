import ResourceQuery.Proofs.Enumeration.Discipline
import ResourceQuery.Proofs.Enumeration.Draining

namespace ResourceQuery.Enumeration

variable {ι ρ : Type}

-- Decoding all items fails with the first item that fails.
theorem Decoder.exists_of_mapM_error {d : Decoder ι ρ} {items : List ι} {error : EnumerationError}
    (h : items.mapM d.decode = .error error) :
    ∃ before item after, items = before ++ item :: after ∧
      (∀ x ∈ before, ∃ record, d.decode x = .ok record) ∧ d.decode item = .error error := by
  induction items with
  | nil => cases h
  | cons item items ih =>
    cases hd : d.decode item with
    | error failure =>
      rw [mapM_decode_cons_error hd] at h
      exact ⟨[], item, items, rfl, nofun, hd.trans (congrArg _ (Except.error.inj h))⟩
    | ok record =>
      rw [mapM_decode_cons_ok hd] at h
      cases hm : items.mapM d.decode with
      | ok records => simp [hm, Except.map] at h
      | error failure =>
        simp only [hm, Except.map, Except.error.injEq] at h
        obtain ⟨before, bad, after, rfl, hb, he⟩ := ih (h ▸ hm)
        exact ⟨item :: before, bad, after, rfl, by simpa [hd] using hb, he⟩

namespace Paged

-- The failures that an answer can lead to: the answer is itself a failure, it leaves open how to go
-- on, or it brings an item that cannot be decoded. Of such items it is the first one that counts.
inductive Fails (d : Decoder ι ρ) : Outcome (Answer ι) → EnumerationError → Prop
  | transport (error) : Fails d (.error error) error
  | cursor {a} : a.endOfSequence = false → a.context = none → Fails d (.ok a) .missingContext
  | decoder {a before item after error} :
    a.page = .ok (before ++ item :: after) → (∀ x ∈ before, ∃ record, d.decode x = .ok record) →
    d.decode item = .error error → Fails d (.ok a) error

-- The calls that a page is asked for with. The first page is at hand, and for each further one
-- there is one pull, which presents the context of the answer before.
inductive Asks (o : Opening) (s₀ : Service ι) : Nat → List Call → Prop
  | nothing : Asks o s₀ 0 []
  | pull {n x} : heldAfter (s₀.answer n) = some x → Asks o s₀ (n + 1) [.pull x o.maxElements]

-- What becomes of a session and the service if a page is asked for, and it is to come with the
-- given answer.
inductive Turns (d : Decoder ι ρ) (o : Opening) (s₀ : Service ι) (n : Nat) (p : Paged ι)
    (s : Service ι) : Outcome (Page ρ) × Paged ι × Service ι → Prop
  | page {a first records asked q t} :
    s₀.answer n = .ok a → a.items.mapM d.decode = .ok records → s₀.answer 0 = .ok first →
    q.hasMore = !a.endOfSequence → q.pagesReturned = p.pagesReturned + 1 →
    Asks o s₀ n asked → t.calls = s.calls ++ asked →
    Turns d o s₀ n p s
      (.ok { items := records, total := first.total, endOfSequence := a.endOfSequence }, q, t)
  | failure {error asked q t} :
    Fails d (s₀.answer n) error →
    q.hasMore = false → q.pagesReturned = p.pagesReturned → q.cursor.context = none →
    Asks o s₀ n asked → t.calls = s.calls ++ asked ++ (s₀.due n).toList.map .release →
    Turns d o s₀ n p s (.error error, q, t)

end Paged

-- A cursor in the state that an answer has left it in.
structure Cursor.Reflects (o : Opening) (s₀ : Service ι) (first : Answer ι) (n : Nat) (c : Cursor)
    (s : Service ι) : Prop where
  first_eq : s₀.answer 0 = .ok first
  cursor_eq : c = Cursor.holding { maxElements := o.maxElements, total := first.total }
    (heldAfter (s₀.answer n))
  pulls_eq : s.pulls = s₀.pulls.drop n

namespace Cursor.Reflects

variable {o : Opening} {s₀ s t : Service ι} {first : Answer ι} {n : Nat} {c : Cursor}

theorem congr (h : c.Reflects o s₀ first n s) (hp : t.pulls = s.pulls) :
    c.Reflects o s₀ first n t :=
  ⟨h.first_eq, h.cursor_eq, hp.trans h.pulls_eq⟩

theorem context_eq (h : c.Reflects o s₀ first n s) : c.context = heldAfter (s₀.answer n) := by
  rw [h.cursor_eq, context_holding]

theorem finished_eq (h : c.Reflects o s₀ first n s) :
    c.finished = (heldAfter (s₀.answer n)).isNone := by
  rw [h.cursor_eq]
  rfl

theorem nextAnswer_eq (h : c.Reflects o s₀ first n s) : s.nextAnswer = s₀.answer (n + 1) :=
  Service.nextAnswer_eq_answer h.pulls_eq

variable {x : String} (h : c.Reflects o s₀ first n s) (hx : heldAfter (s₀.answer n) = some x)
include h hx

theorem pulls_pull : c.Pulls s x (c.pull s) :=
  pulls_pull_of_some (h.cursor_eq ▸ coherent_holding _ _) (h.context_eq.trans hx)

theorem outcome_pull : (c.pull s).outcome = pageOf (s₀.answer (n + 1)) := by
  rw [(h.pulls_pull hx).outcome_eq, h.nextAnswer_eq]

theorem calls_pull :
    (c.pull s).service.calls = s.calls ++ [.pull x o.maxElements] ++
      (abandoned x (s₀.answer (n + 1))).toList.map .release := by
  rw [(h.pulls_pull hx).calls_eq, h.nextAnswer_eq, h.cursor_eq, maxElements_holding]
  simp

theorem pull : (c.pull s).cursor.Reflects o s₀ first (n + 1) (c.pull s).service where
  first_eq := h.first_eq
  cursor_eq := by
    rw [(h.pulls_pull hx).cursor_eq, h.nextAnswer_eq, h.cursor_eq]
    rfl
  pulls_eq := by rw [(h.pulls_pull hx).pulls_eq, h.pulls_eq, List.tail_drop]

end Cursor.Reflects

namespace Paged

-- A session that goes on. It has its first page at hand, or a context to ask for the next one with.
inductive Going (o : Opening) (s₀ : Service ι) (first : Answer ι) :
    Nat → Paged ι → Service ι → Prop
  | start {p s items} :
    p.hasMore = true → p.initial = some items → pageOf (s₀.answer 0) = .ok items →
    p.cursor.Reflects o s₀ first 0 s → Going o s₀ first 0 p s
  | later {n p s x} :
    p.hasMore = true → p.initial = none → heldAfter (s₀.answer n) = some x →
    p.cursor.Reflects o s₀ first n s → Going o s₀ first (n + 1) p s

variable {d : Decoder ι ρ} {o : Opening} {s₀ s t : Service ι} {first : Answer ι} {n k : Nat}
variable {p q : Paged ι} {items : List ι} {records : List ρ} {asked : List Call}
variable {error : EnumerationError}

theorem Going.hasMore (h : Going o s₀ first n p s) : p.hasMore = true := by
  cases h <;> assumption

theorem deliver_of_ok (h : (decodeAll d items t).1 = .ok records) :
    q.deliver d items t =
      (.ok { items := records, total := q.cursor.total, endOfSequence := q.cursor.finished },
        { q with hasMore := !q.cursor.finished, pagesReturned := q.pagesReturned + 1 },
        (decodeAll d items t).2) := by
  cases hd : decodeAll d items t
  simp_all [deliver]

theorem deliver_of_error (h : (decodeAll d items t).1 = .error error) :
    q.deliver d items t =
      (.error error, { q with cursor := q.cursor.holding none, hasMore := false },
        (q.cursor.release (decodeAll d items t).2).2) := by
  cases hd : decodeAll d items t
  simp_all [deliver, Cursor.release_fst]

-- After a page it is the cursor's context that is to be released.
theorem due_eq_context (hc : q.cursor.Reflects o s₀ first n t)
    (hp : pageOf (s₀.answer n) = .ok items) : s₀.due n = q.cursor.context := by
  obtain ⟨a, ha, -⟩ := pageOf_eq_ok hp
  rw [hc.context_eq, ha, heldAfter]
  cases n <;> simp [Service.due, ha, heldAfter]

theorem fails_of_pageOf {answer : Outcome (Answer ι)} (h : pageOf answer = .error error) :
    Fails d answer error := by
  cases answer with
  | error => cases h; exact .transport _
  | ok a =>
    cases he : a.endOfSequence <;> cases hc : a.context <;> simp [pageOf, Answer.page, he, hc] at h
    exact h ▸ .cursor he hc

-- The items are those of the answer `n`, and they were asked for since the state `s`.
theorem turns_deliver (hc : q.cursor.Reflects o s₀ first n t) (hi : q.initial = none)
    (hr : q.pagesReturned = p.pagesReturned) (hp : pageOf (s₀.answer n) = .ok items)
    (ha : Asks o s₀ n asked) (ht : t.calls = s.calls ++ asked) :
    Turns d o s₀ n p s (q.deliver d items t) ∧
      ((q.deliver d items t).2.1.hasMore = true →
        Going o s₀ first (n + 1) (q.deliver d items t).2.1 (q.deliver d items t).2.2) := by
  have hcalls := (calls_decodeAll d items t).trans ht
  cases hd : (decodeAll d items t).1 with
  | ok records =>
    obtain ⟨a, hn, rfl, hheld⟩ := pageOf_eq_ok hp
    have hm := (decodeAll_fst d a.items t).symm.trans hd
    have hfin : q.cursor.finished = a.endOfSequence := by
      rw [hc.finished_eq, hn, heldAfter]
      obtain ⟨he, hx⟩ | ⟨he, x, -, hx⟩ := hheld <;> rw [he, hx] <;> rfl
    have htot : q.cursor.total = first.total := by
      rw [hc.cursor_eq]
      rfl
    rw [deliver_of_ok hd, hfin, htot]
    refine ⟨.page hn hm hc.first_eq rfl (congrArg _ hr) ha hcalls, fun he => ?_⟩
    obtain ⟨he', -⟩ | ⟨-, x, -, hx⟩ := hheld
    · simp [he'] at he
    · exact .later he hi (by rw [hn, heldAfter, hx]) (hc.congr (pulls_decodeAll d a.items t))
  | error error =>
    rw [deliver_of_error hd]
    refine ⟨.failure ?_ rfl hr rfl ha ?_, by simp⟩
    · obtain ⟨a, hn, -, -⟩ := pageOf_eq_ok hp
      obtain ⟨before, item, after, hitems, hb, hitem⟩ :=
        Decoder.exists_of_mapM_error ((decodeAll_fst d items t).symm.trans hd)
      rw [hn] at hp ⊢
      exact .decoder (hp.trans (congrArg _ hitems)) hb hitem
    · rw [Cursor.calls_release, due_eq_context hc hp, hcalls]

-- What one call does, and what the next one starts from.
theorem Going.nextPage (h : Going o s₀ first n p s) :
    Turns d o s₀ n p s (p.nextPage d s) ∧
      ((p.nextPage d s).2.1.hasMore = true →
        Going o s₀ first (n + 1) (p.nextPage d s).2.1 (p.nextPage d s).2.2) := by
  rw [Paged.nextPage, if_pos h.hasMore]
  cases h with
  | start hm hi hp hc =>
    rw [hi]
    exact turns_deliver (q := { p with initial := none }) hc rfl rfl hp .nothing (by simp)
  | @later n _ _ x hm hi hx hc =>
    have hcalls := hc.calls_pull hx
    have hc' := hc.pull hx
    cases hp : pageOf (s₀.answer (n + 1)) with
    | ok items =>
      rw [abandoned_eq_none_of_pageOf hp, Option.toList_none, List.map_nil,
        List.append_nil] at hcalls
      simp only [hi, hc.outcome_pull hx, hp]
      exact turns_deliver (q := { p with cursor := _, initial := none }) hc' rfl rfl hp (.pull hx)
        hcalls
    | error error =>
      have hheld := heldAfter_eq_none_of_pageOf hp
      rw [Service.abandoned_eq_due (Service.due_eq_of_heldAfter hx) hheld] at hcalls
      simp only [hi, hc.outcome_pull hx, hp]
      exact ⟨.failure (fails_of_pageOf hp) rfl rfl (hc'.context_eq.trans hheld) (.pull hx) hcalls,
        by simp⟩

-- No call has failed, and no page of a last answer was returned.
structure Unbroken (answers : Nat → Outcome (Answer ι)) (results : List (Outcome (Page ρ))) :
    Prop where
  no_failure : ∀ error, .error error ∉ results
  not_last : ∀ i page a, results[i]? = some (.ok page) → answers i = .ok a → a.endOfSequence = false

theorem not_unbroken_cons_error {answers : Nat → Outcome (Answer ι)}
    {results : List (Outcome (Page ρ))} : ¬Unbroken answers (.error error :: results) :=
  fun h => h.no_failure error List.mem_cons_self

theorem unbroken_cons_ok {answers : Nat → Outcome (Answer ι)} {results : List (Outcome (Page ρ))}
    {page : Page ρ} {a : Answer ι} (ha : answers 0 = .ok a) :
    Unbroken answers (.ok page :: results) ↔
      a.endOfSequence = false ∧ Unbroken (fun i => answers (i + 1)) results := by
  constructor
  · intro h
    exact ⟨h.not_last 0 page a rfl ha, fun error he => h.no_failure error (.tail _ he),
      fun i => h.not_last (i + 1)⟩
  · intro ⟨he, h⟩
    refine ⟨by simpa using h.no_failure, fun i page' a' hp ha' => ?_⟩
    cases i with
    | zero => exact Except.ok.inj (ha.symm.trans ha') ▸ he
    | succ i => exact h.not_last i page' a' hp ha'

theorem nextPages_of_not_hasMore (hm : p.hasMore = false) (n : Nat) :
    p.nextPages d n s = (.replicate n (.error .exhausted), p, s) := by
  induction n with
  | zero => rfl
  | succ n ih => simp [nextPages, Paged.nextPage, hm, ih, List.replicate_succ]

theorem nextMany_of_not_hasMore (hm : p.hasMore = false) (n : Nat) :
    p.nextMany d n s = (.replicate n none, p, s) := by
  induction n with
  | zero => rfl
  | succ n ih => simp [nextMany, next, hm, ih, List.replicate_succ]

theorem Going.nextPages (h : Going o s₀ first k p s) (n : Nat)
    (hm : (p.nextPages d n s).2.1.hasMore = true) :
    Going o s₀ first (n + k) (p.nextPages d n s).2.1 (p.nextPages d n s).2.2 := by
  induction n generalizing k p s with
  | zero => exact (Nat.zero_add k).symm ▸ h
  | succ n ih =>
    cases hn : (p.nextPage d s).2.1.hasMore with
    | false => simp [Paged.nextPages, nextPages_of_not_hasMore hn, hn] at hm
    | true =>
      rw [Nat.add_right_comm]
      exact ih (h.nextPage.right hn) hm

-- There is more exactly if nothing has ended the session. What ends it is one call, and the calls
-- after that one leave it as it is.
theorem Going.hasMore_iff (h : Going o s₀ first k p s) (n : Nat) :
    (p.nextPages d n s).2.1.hasMore = true ↔
      Unbroken (fun i => s₀.answer (i + k)) (p.nextPages d n s).1 := by
  induction n generalizing k p s with
  | zero => exact ⟨fun _ => ⟨nofun, nofun⟩, fun _ => h.hasMore⟩
  | succ n ih =>
    have ⟨ht, hg⟩ := h.nextPage (d := d)
    rw [Paged.nextPages]
    cases hr : p.nextPage d s with | mk result r =>
    obtain ⟨q, t⟩ := r
    rw [hr] at ht hg
    cases ht with
    | @page a _ _ _ _ _ ha _ _ hq =>
      rw [unbroken_cons_ok (by simpa using ha)]
      cases he : a.endOfSequence with
      | false => simpa [Nat.add_assoc, Nat.add_comm 1] using ih (hg (by simp [hq, he]))
      | true => simp [nextPages_of_not_hasMore (p := q), hq, he]
    | failure _ hq => simp [nextPages_of_not_hasMore hq, hq, not_unbroken_cons_error]

-- The iteration does not report its own end as a failure.
theorem fails_of_nextMany (h : p.hasMore = true → Going o s₀ first k p s) (m : Nat) {i : Nat}
    (hi : (p.nextMany d m s).1[i]? = some (some (.error error))) :
    Fails d (s₀.answer (i + k)) error := by
  induction m generalizing i k p s with
  | zero => cases hi
  | succ m ih =>
    cases hm : p.hasMore with
    | false => simp [nextMany_of_not_hasMore hm, List.getElem?_replicate] at hi
    | true =>
      have ⟨ht, hg⟩ := (h hm).nextPage (d := d)
      rw [nextMany, next, if_pos hm] at hi
      cases i with
      | zero =>
        cases hr : p.nextPage d s with | mk result r =>
        rw [hr] at ht hi
        cases ht <;> cases hi
        rw [Nat.zero_add]
        assumption
      | succ i =>
        rw [Nat.add_right_comm]
        exact ih hg hi

end Paged

namespace Client

variable {config : Config} {search : Search} {s₀ s : Service ι} {p : Paged ι}

theorem going_of_searchPaged (h : searchPaged config search s₀ = (.ok p, s)) :
    ∃ first, Paged.Going (search.opening config) s₀ first 0 p s := by
  rw [searchPaged] at h
  split at h <;> cases h
  case h_2 c items ho =>
    obtain ⟨a, ha, hp, hc, hs⟩ := openCursor_eq_ok_iff.mp ho
    refine ⟨a, .start rfl rfl (by rw [ha]; exact hp) ⟨ha, ?_, ?_⟩⟩
    · rw [hc, ha]
      rfl
    · rw [hs, (sends_send _ s₀).pulls_eq]
      rfl

end Client

-- A session after any number of calls. While there is more, the next call turns to the next page,
-- with at most one pull. Afterwards every call fails alike and changes nothing, and the iteration
-- is over; it has reported no failures but those that answers lead to.
theorem Paged.page_by_page {d : Decoder ι ρ} {config : Config} {search : Search}
    {s₀ s t : Service ι} {p q : Paged ι} {n : Nat} {results : List (Outcome (Page ρ))}
    (h : Client.searchPaged config search s₀ = (.ok p, s))
    (hn : p.nextPages d n s = (results, q, t)) :
    (q.hasMore = true ↔ Unbroken s₀.answer results) ∧
    (q.hasMore = true →
      Turns d (search.opening config) s₀ n q t (q.nextPage d t) ∧
      q.next d t = (some (q.nextPage d t).1, (q.nextPage d t).2)) ∧
    (q.hasMore = false → ∀ m,
      q.nextPages d m t = (.replicate m (.error .exhausted), q, t) ∧
      q.nextMany d m t = (.replicate m none, q, t)) ∧
    ∀ m i error, (p.nextMany d m s).1[i]? = some (some (.error error)) →
      Fails d (s₀.answer i) error := by
  have ⟨first, hg⟩ := Client.going_of_searchPaged h
  have hmore := hg.hasMore_iff (d := d) n
  have hnext := hg.nextPages (d := d) n
  rw [hn] at hmore hnext
  refine ⟨hmore, fun hm => ⟨(hnext hm).nextPage.left, ?_⟩, fun hm m => ?_, fun m i error hi => ?_⟩
  · rw [next, if_pos hm]
  · exact ⟨nextPages_of_not_hasMore hm m, nextMany_of_not_hasMore hm m⟩
  · exact fails_of_nextMany (fun _ => hg) m hi

-- Two pages. The second one is pulled, and there is no more after it.
theorem Paged.page_by_page_two_pages :
    let search : Search := { filter := "/*", pageSize := some 5 }
    let s₀ : Service String := {
      enumerates := [.ok { context := "first", items := ["x"], total := some 2 }]
      pulls := [{ outcome := .ok { items := ["y"], endOfSequence := true } }]
    }
    ∃ p s q t, Client.searchPaged {} search s₀ = (.ok p, s) ∧
      p.nextPages .raw 1 s = ([.ok { items := ["x"], total := some 2 }], q, t) ∧
      q.hasMore = true ∧ Turns .raw (search.opening {}) s₀ 1 q t (q.nextPage .raw t) ∧
      (q.nextPage .raw t).1 = .ok { items := ["y"], total := some 2, endOfSequence := true } ∧
      (q.nextPage .raw t).2.2.calls = t.calls ++ [.pull "first" 5] := by
  intro search s₀
  have h : Client.searchPaged {} search s₀ = (.ok _, _) := rfl
  have hc := page_by_page (d := .raw) (n := 1) h rfl
  exact ⟨_, _, _, _, h, rfl, rfl, (hc.right.left rfl).left, rfl, rfl⟩

end ResourceQuery.Enumeration
