import ResourceQuery.Proofs.Enumeration.Cancellation

namespace ResourceQuery.Enumeration

variable {ι ρ : Type}

namespace Service

variable {s : Service ι} {n : Nat} {items : List ι}

-- The items of a page. Page zero comes with the answer that opens an enumeration. A failure brings
-- no items, and neither does an answer that leaves open how to go on.
def page (s : Service ι) (n : Nat) : List ι :=
  (pageOf (s.answer n)).toOption.getD []

-- The items of that many pages, in order.
def pages (s : Service ι) (n : Nat) : List ι :=
  (List.range n).flatMap s.page

theorem page_eq (h : pageOf (s.answer n) = .ok items) : s.page n = items := by
  simp [page, h, Except.toOption]

theorem pages_succ (s : Service ι) (n : Nat) : s.pages (n + 1) = s.pages n ++ s.page n := by
  simp [pages, List.range_succ]

end Service

-- So many pages were pulled, and all items of the pages before the latest one were decoded, and
-- then the given ones of the latest one.
structure Place (s₀ : Service ι) (n : Nat) (done : List ι) (s : Service ι) : Prop where
  count_eq : s.calls.countP Call.isPull = s₀.calls.countP Call.isPull + n
  pulls_eq : s.pulls = s₀.pulls.drop n
  decoded_eq : s.decoded = s₀.decoded ++ s₀.pages n ++ done
  brought : ∀ i < n, pageOf (s₀.answer i) = .ok (s₀.page i)

namespace Place

variable {s₀ s t : Service ι} {n : Nat} {done : List ι}

theorem congr (h : Place s₀ n done s) (hc : t.calls = s.calls) (hp : t.pulls = s.pulls)
    (hd : t.decoded = s.decoded) : Place s₀ n done t :=
  ⟨hc ▸ h.count_eq, hp ▸ h.pulls_eq, hd ▸ h.decoded_eq, h.brought⟩

theorem nextAnswer_eq (h : Place s₀ n done s) : s.nextAnswer = s₀.answer (n + 1) :=
  Service.nextAnswer_eq_answer h.pulls_eq

theorem recordDecoding (h : Place s₀ n done s) (item : ι) :
    Place s₀ n (done ++ [item]) (s.recordDecoding item) :=
  ⟨h.count_eq, h.pulls_eq, by simp [h.decoded_eq], h.brought⟩

theorem countP_release (context : Option String) :
    (context.toList.map Call.release).countP Call.isPull = 0 := by
  cases context <;> rfl

theorem release (h : Place s₀ n done s) (c : Cursor) : Place s₀ n done (c.release s).2 where
  count_eq := by
    rw [Cursor.calls_release, List.countP_append, countP_release, h.count_eq, Nat.add_zero]
  pulls_eq := by rw [Cursor.pulls_release, h.pulls_eq]
  decoded_eq := by rw [Cursor.decoded_release, h.decoded_eq]
  brought := h.brought

-- What a pull brings is the next answer.
theorem outcome_pull {c : Cursor} {x : String} (h : Place s₀ n done s) (hc : c.Coherent)
    (hx : c.context = some x) : (c.pull s).outcome = pageOf (s₀.answer (n + 1)) := by
  rw [(Cursor.pulls_pull_of_some hc hx).outcome_eq, h.nextAnswer_eq]

theorem context_pull {c : Cursor} {x : String} (h : Place s₀ n done s) (hc : c.Coherent)
    (hx : c.context = some x) : (c.pull s).cursor.context = heldAfter (s₀.answer (n + 1)) := by
  rw [(Cursor.pulls_pull_of_some hc hx).cursor_eq, h.nextAnswer_eq, Cursor.context_holding]

-- The next page is pulled when this one is used up.
theorem pull {c : Cursor} {x : String} (h : Place s₀ n done s) (hc : c.Coherent)
    (hx : c.context = some x) (hdone : pageOf (s₀.answer n) = .ok done) :
    Place s₀ (n + 1) [] (c.pull s).service := by
  have hp := Cursor.pulls_pull_of_some (s := s) hc hx
  have hpage : s₀.page n = done := Service.page_eq hdone
  constructor
  case count_eq =>
    rw [hp.calls_eq, List.countP_append, List.countP_cons, countP_release, h.count_eq]
    rfl
  case pulls_eq => rw [hp.pulls_eq, h.pulls_eq, List.tail_drop]
  case decoded_eq => rw [hp.decoded_eq, h.decoded_eq, Service.pages_succ, hpage]; simp
  case brought =>
    intro i hi
    rcases Nat.lt_succ_iff_lt_or_eq.mp hi with hi | rfl
    · exact h.brought i hi
    · rw [hdone, hpage]

end Place

-- Sessions begin on the page that opens the enumeration.
theorem Client.place_of_openCursor {config : Config} {search : Search} {s₀ s : Service ι}
    {c : Cursor} {items : List ι} (h : openCursor config search s₀ = (.ok (c, items), s)) :
    Place s₀ 0 [] s ∧ pageOf (s₀.answer 0) = .ok items ∧ c.context = heldAfter (s₀.answer 0) := by
  have ⟨a, ha, hp, hc, hs⟩ := openCursor_eq_ok_iff.mp h
  have hsent := sends_send (search.opening config) s₀
  subst hc hs
  refine ⟨⟨?_, hsent.pulls_eq, ?_, nofun⟩, ?_, ?_⟩
  · rw [hsent.calls_eq]
    simp [Call.isPull]
  · rw [hsent.decoded_eq]
    simp [Service.pages]
  · rw [ha]
    exact hp
  · rw [ha]
    rfl

end ResourceQuery.Enumeration
