import ResourceQuery.Enumeration.Client
import ResourceQuery.Proofs.Enumeration.Cursor

namespace ResourceQuery.Enumeration

variable {ι ρ : Type}

-- The answers of an enumeration: the one that opens it, and those of its pulls.
def Service.answer (s : Service ι) : Nat → Outcome (Answer ι)
  | 0 => s.enumerates.headD (.error scriptExhausted)
  | n + 1 => { s with pulls := s.pulls.drop n }.nextAnswer

theorem Service.nextAnswer_eq_answer {s₀ s : Service ι} {n : Nat}
    (h : s.pulls = s₀.pulls.drop n) : s.nextAnswer = s₀.answer (n + 1) := by
  simp [nextAnswer, answer, h]

namespace Client

variable {config : Config} {search : Search} {s₀ s : Service ι}

-- What the call that opens an enumeration does.
structure Sends (o : Opening) (s : Service ι) (sent : Outcome (Answer ι) × Service ι) : Prop where
  answer_eq : sent.1 = s.answer 0
  calls_eq : sent.2.calls = s.calls ++ [.enumerate o]
  pulls_eq : sent.2.pulls = s.pulls
  decoded_eq : sent.2.decoded = s.decoded

theorem sends_send (o : Opening) (s : Service ι) : Sends o s (send o s) := by
  have ha :
      (s.note (.enumerate o)).enumerates.headD (.error Service.scriptExhausted) = s.answer 0 :=
    rfl
  cases hr : s.answer 0 <;> constructor <;>
    simp only [send, Service.enumerate, ha, hr] <;> simp [Service.recordCall]

-- The cursor that an answer opens.
def opened (config : Config) (search : Search) (a : Answer ι) : Cursor :=
  Cursor.holding { maxElements := search.maxElements config, total := a.total } a.held

theorem openCursor_eq (config : Config) (search : Search) (s : Service ι) :
    openCursor config search s =
      ((s.answer 0).bind fun a => a.page.map (opened config search a, ·),
        (send (search.opening config) s).2) := by
  have ha := (sends_send (search.opening config) s).answer_eq
  rw [openCursor]
  split
  case h_1 hs => rw [← ha, hs]; rfl
  case h_2 hs => rw [← ha, hs]; simp [Except.bind, Cursor.ofAnswer_eq, opened]

theorem openCursor_eq_ok_iff {c : Cursor} {items : List ι} :
    openCursor config search s₀ = (.ok (c, items), s) ↔
      ∃ a, s₀.answer 0 = .ok a ∧ a.page = .ok items ∧ c = opened config search a ∧
        s = (send (search.opening config) s₀).2 := by
  rw [openCursor_eq, Prod.mk.injEq]
  cases s₀.answer 0 with
  | error => simp [Except.bind]
  | ok a => cases hp : a.page <;> simp [hp, Except.bind, Except.map, eq_comm, and_comm, and_assoc]

theorem openCursor_eq_error_iff {error : EnumerationError} :
    openCursor config search s₀ = (.error error, s) ↔
      pageOf (s₀.answer 0) = .error error ∧ s = (send (search.opening config) s₀).2 := by
  rw [openCursor_eq, Prod.mk.injEq]
  cases s₀.answer 0 with
  | error => simp [Except.bind, pageOf, eq_comm]
  | ok a => cases hp : a.page <;> simp [hp, Except.bind, Except.map, pageOf, eq_comm]

theorem coherent_of_openCursor {c : Cursor} {items : List ι}
    (h : openCursor config search s₀ = (.ok (c, items), s)) : c.Coherent := by
  have ⟨_, _, _, hc, _⟩ := openCursor_eq_ok_iff.mp h
  exact hc ▸ Cursor.coherent_holding _ _

theorem openCursor_of_searchOnDemand {o : OnDemand ι}
    (h : searchOnDemand config search s₀ = (.ok o, s)) :
    openCursor config search s₀ = (.ok (o.cursor, o.buffer), s) := by
  rw [searchOnDemand] at h
  split at h <;> cases h
  exact ‹_›

theorem openCursor_of_searchPaged {p : Paged ι}
    (h : searchPaged config search s₀ = (.ok p, s)) :
    ∃ items, openCursor config search s₀ = (.ok (p.cursor, items), s) := by
  rw [searchPaged] at h
  split at h <;> cases h
  exact ⟨_, ‹_›⟩

theorem openCursor_of_searchStreaming {stream : Stream ι ρ} {total : Option Nat}
    (h : searchStreaming config search s₀ = (.ok (stream, total), s)) :
    ∃ c items, openCursor config search s₀ = (.ok (c, items), s) ∧
      stream = .new c items config.queueCapacity := by
  rw [searchStreaming] at h
  split at h <;> cases h
  exact ⟨_, _, ‹_›, rfl⟩

end Client

end ResourceQuery.Enumeration
