import ResourceQuery.Enumeration.OnDemand
import ResourceQuery.Proofs.Enumeration.Cursor

namespace ResourceQuery.Enumeration

variable {ι ρ : Type}

-- Records, with at most one failure and nothing after it.
inductive FailsLast : List (Outcome ρ) → Prop
  | nil : FailsLast []
  | failure (error : EnumerationError) : FailsLast [.error error]
  | cons {results} (record : ρ) : FailsLast results → FailsLast (.ok record :: results)

-- What comes of a walk: the results, the calls that are made for them, and the decoded items.
@[ext]
structure Walk (ι ρ : Type) where
  results : List (Outcome ρ) := []
  calls : List Call := []
  decoded : List ι := []

namespace Walk

instance : Append (Walk ι ρ) where
  append v w := ⟨v.results ++ w.results, v.calls ++ w.calls, v.decoded ++ w.decoded⟩

variable (u v w : Walk ι ρ)

@[simp]
theorem results_append : (v ++ w).results = v.results ++ w.results :=
  rfl

@[simp]
theorem calls_append : (v ++ w).calls = v.calls ++ w.calls :=
  rfl

@[simp]
theorem decoded_append : (v ++ w).decoded = v.decoded ++ w.decoded :=
  rfl

theorem append_assoc : u ++ v ++ w = u ++ (v ++ w) := by
  ext1 <;> simp

@[simp]
theorem append_empty : w ++ {} = w := by
  ext1 <;> simp

@[simp]
theorem empty_append : {} ++ w = w := by
  ext1 <;> simp

-- The end of a walk that fails while a context is held.
def failure (error : EnumerationError) (held : Option String) : Walk ι ρ where
  results := [.error error]
  calls := held.toList.map .release

-- Through the items of a page, and on if none of them fails.
def through (d : Decoder ι ρ) (held : Option String) (after : Walk ι ρ) : List ι → Walk ι ρ
  | [] => after
  | item :: items =>
    match d.decode item with
    | .ok record => { results := [.ok record], decoded := [item] } ++ through d held after items
    | .error error => { decoded := [item] } ++ failure error held

-- On to the page that an answer brings. The rest of the walk depends on the context it leaves and
-- its items.
def turn (maxElements : Nat) (context : String) (answer : Outcome (Answer ι))
    (rest : Option String → List ι → Walk ι ρ) : Walk ι ρ :=
  { calls := [.pull context maxElements] } ++
    match pageOf answer with
    | .ok items => rest (heldAfter answer) items
    | .error error => failure error (abandoned context answer)

-- From the items of a page, with what is held after it, through all the answers to come.
def ofAnswers (d : Decoder ι ρ) (maxElements : Nat) :
    List (PullAnswer ι) → Option String → List ι → Walk ι ρ
  | _, none, items => through d none {} items
  | [], some context, items =>
    through d (some context)
      (turn maxElements context (.error Service.scriptExhausted) fun _ _ => {}) items
  | a :: pulls, some context, items =>
    through d (some context)
      (turn maxElements context a.outcome (ofAnswers d maxElements pulls)) items

-- How a page is dealt with, given what is held after it and what follows it.
abbrev Visit (ι ρ : Type) :=
  Option String → Walk ι ρ → List ι → Walk ι ρ

-- What follows a page if pages are dealt with in a certain way.
def onward (visit : Visit ι ρ) (maxElements : Nat) : List (PullAnswer ι) → Option String → Walk ι ρ
  | _, none => {}
  | [], some context => turn maxElements context (.error Service.scriptExhausted) fun _ _ => {}
  | a :: pulls, some context =>
    turn maxElements context a.outcome fun held items =>
      visit held (onward visit maxElements pulls held) items

section Turning

variable {d : Decoder ι ρ} {maxElements : Nat} {item : ι} {items : List ι} {held : Option String}
variable {pulls : List (PullAnswer ι)}

theorem through_ok {after : Walk ι ρ} {record : ρ} (h : d.decode item = .ok record) :
    through d held after (item :: items) =
      { results := [.ok record], decoded := [item] } ++ through d held after items := by
  simp [through, h]

theorem through_error {after : Walk ι ρ} {error : EnumerationError}
    (h : d.decode item = .error error) :
    through d held after (item :: items) = { decoded := [item] } ++ failure error held := by
  simp [through, h]

-- What comes after a page does not depend on its items.
theorem ofAnswers_eq_through (d : Decoder ι ρ) (maxElements : Nat) (pulls : List (PullAnswer ι))
    (held : Option String) (items : List ι) :
    ofAnswers d maxElements pulls held items =
      through d held (ofAnswers d maxElements pulls held []) items := by
  cases held <;> cases pulls <;> simp [ofAnswers, through]

theorem ofAnswers_none_nil (d : Decoder ι ρ) (maxElements : Nat) (pulls : List (PullAnswer ι)) :
    ofAnswers d maxElements pulls none [] = {} := by
  cases pulls <;> simp [ofAnswers, through]

theorem ofAnswers_eq_onward (d : Decoder ι ρ) (maxElements : Nat) (pulls : List (PullAnswer ι))
    (held : Option String) (items : List ι) :
    ofAnswers d maxElements pulls held items =
      through d held (onward (through d) maxElements pulls held) items := by
  induction pulls generalizing held items with
  | nil => cases held <;> simp [ofAnswers, onward]
  | cons a pulls ih =>
    cases held with
    | none => simp [ofAnswers, onward]
    | some context =>
      have hr : ofAnswers d maxElements pulls = fun held items =>
          through d held (onward (through d) maxElements pulls held) items := by
        funext held items
        exact ih held items
      simp only [ofAnswers, onward, hr]

theorem ofAnswers_nil (d : Decoder ι ρ) (maxElements : Nat) (pulls : List (PullAnswer ι))
    (held : Option String) :
    ofAnswers d maxElements pulls held [] = onward (through d) maxElements pulls held := by
  rw [ofAnswers_eq_onward, through]

theorem onward_some (visit : Visit ι ρ) (maxElements : Nat) (s : Service ι) (context : String) :
    onward visit maxElements s.pulls (some context) =
      turn maxElements context s.nextAnswer fun held items =>
        visit held (onward visit maxElements s.pulls.tail held) items := by
  cases hp : s.pulls with
  | nil => simp [onward, turn, Service.nextAnswer, hp, pageOf]
  | cons a pulls => simp [onward, Service.nextAnswer, hp]

theorem failsLast_through {after : Walk ι ρ} (h : FailsLast after.results) (items : List ι) :
    FailsLast (through d held after items).results := by
  induction items with
  | nil => exact h
  | cons item items ih =>
    cases hd : d.decode item with
    | ok record => simpa [through_ok hd] using FailsLast.cons record ih
    | error error => simpa [through_error hd, failure] using FailsLast.failure error

theorem failsLast_turn {context : String} {answer : Outcome (Answer ι)}
    {rest : Option String → List ι → Walk ι ρ}
    (h : ∀ held items, FailsLast (rest held items).results) :
    FailsLast (turn maxElements context answer rest).results := by
  rw [turn]
  split
  case h_1 items _ => exact h (heldAfter answer) items
  case h_2 error _ => exact .failure error

theorem failsLast_ofAnswers (d : Decoder ι ρ) (maxElements : Nat) (pulls : List (PullAnswer ι))
    (held : Option String) (items : List ι) :
    FailsLast (ofAnswers d maxElements pulls held items).results := by
  induction pulls generalizing held items with
  | nil =>
    cases held with
    | none => exact failsLast_through .nil items
    | some context => exact failsLast_through (failsLast_turn fun _ _ => .nil) items
  | cons a pulls ih =>
    cases held with
    | none => exact failsLast_through .nil items
    | some context => exact failsLast_through (failsLast_turn ih) items

end Turning

end Walk

-- What has come of an enumeration so far, apart from the results.
def Service.past (s : Service ι) : Walk ι ρ where
  calls := s.calls
  decoded := s.decoded

namespace Cursor

variable {d : Decoder ι ρ} {c : Cursor} {s : Service ι} {x : String}

theorem past_release (c : Cursor) (s : Service ι) :
    (c.release s).2.past = s.past ++ ({ calls := c.context.toList.map .release } : Walk ι ρ) := by
  ext1 <;> simp [Service.past, calls_release]

theorem past_append_onward_ok (visit : Walk.Visit ι ρ) {items : List ι} (h : c.Coherent)
    (hx : c.context = some x) (ho : (c.pull s).outcome = .ok items) :
    s.past ++ Walk.onward visit c.maxElements s.pulls c.context =
      (c.pull s).service.past ++ visit (c.pull s).cursor.context
        (Walk.onward visit c.maxElements (c.pull s).service.pulls (c.pull s).cursor.context)
        items := by
  have hp := pulls_pull_of_some (s := s) h hx
  have hpage : pageOf s.nextAnswer = .ok items := hp.outcome_eq ▸ ho
  rw [hx, Walk.onward_some, hp.cursor_eq, hp.pulls_eq]
  ext1 <;> simp [Walk.turn, Service.past, hpage, hp.calls_eq, hp.decoded_eq,
    abandoned_eq_none_of_pageOf hpage]

theorem past_append_onward_error (visit : Walk.Visit ι ρ) {error : EnumerationError}
    (h : c.Coherent) (hx : c.context = some x) (ho : (c.pull s).outcome = .error error) :
    s.past ++ Walk.onward visit c.maxElements s.pulls c.context =
      (c.pull s).service.past ++ { results := [.error error] } := by
  have hp := pulls_pull_of_some (s := s) h hx
  have hpage : pageOf s.nextAnswer = .error error := hp.outcome_eq ▸ ho
  rw [hx, Walk.onward_some]
  ext1 <;> simp [Walk.turn, Walk.failure, Service.past, hpage, hp.calls_eq, hp.decoded_eq]

theorem past_append_pull_ok {items : List ι} (h : c.Coherent) (hx : c.context = some x)
    (ho : (c.pull s).outcome = .ok items) :
    s.past ++ Walk.ofAnswers d c.maxElements s.pulls c.context [] =
      (c.pull s).service.past ++ Walk.ofAnswers d c.maxElements (c.pull s).service.pulls
        (c.pull s).cursor.context items := by
  rw [Walk.ofAnswers_nil, past_append_onward_ok _ h hx ho, Walk.ofAnswers_eq_onward]

theorem past_append_pull_error {error : EnumerationError} (h : c.Coherent)
    (hx : c.context = some x) (ho : (c.pull s).outcome = .error error) :
    s.past ++ Walk.ofAnswers d c.maxElements s.pulls c.context [] =
      (c.pull s).service.past ++ { results := [.error error] } := by
  rw [Walk.ofAnswers_nil, past_append_onward_error _ h hx ho]

theorem context_pull_error {error : EnumerationError} (h : c.Coherent) (hx : c.context = some x)
    (ho : (c.pull s).outcome = .error error) : (c.pull s).cursor.context = none := by
  have hp := pulls_pull_of_some (s := s) h hx
  rw [hp.cursor_eq]
  exact heldAfter_eq_none_of_pageOf (hp.outcome_eq ▸ ho)

theorem maxElements_pull (c : Cursor) (s : Service ι) (h : c.Coherent) :
    (c.pull s).cursor.maxElements = c.maxElements := by
  cases hx : c.context
  case none => rw [pull_eq_of_none hx]
  case some => rw [(pulls_pull_of_some h hx).cursor_eq, maxElements_holding]

end Cursor

namespace OnDemand

variable {d : Decoder ι ρ} {o : OnDemand ι} {s : Service ι}

-- What is still to come of a session.
def future (d : Decoder ι ρ) (o : OnDemand ι) (s : Service ι) : Walk ι ρ :=
  if o.failed then {} else .ofAnswers d o.cursor.maxElements s.pulls o.cursor.context o.buffer

theorem coherent_next (h : o.cursor.Coherent) : (o.next d s).2.1.cursor.Coherent := by
  fun_induction next d o s with
  | case1 => exact h
  | case2 => exact h
  | case3 => exact Cursor.coherent_release _ _
  | case4 => exact h
  | case5 _ _ _ _ _ _ _ _ ih => exact ih (Cursor.coherent_pull h)
  | case6 => exact Cursor.coherent_release _ _

-- Each result is taken off the walk.
theorem past_append_future_next (h : o.cursor.Coherent) :
    s.past ++ o.future d s = { results := (o.next d s).1.toList } ++
      ((o.next d s).2.2.past ++ (o.next d s).2.1.future d (o.next d s).2.2) := by
  fun_induction next d o s with
  | case1 => simp
  | case2 o s hf item buffer hb record hr =>
    rw [future, hb, Walk.ofAnswers_eq_through, Walk.through_ok hr, ← Walk.ofAnswers_eq_through]
    ext1 <;> simp [future, hf, Service.past]
  | case3 o s hf item buffer hb error hr =>
    rw [future, hb, Walk.ofAnswers_eq_through, Walk.through_error hr, fail, Cursor.past_release]
    ext1 <;> simp [future, hf, Service.past, Walk.failure]
  | case4 => simp
  | case5 o s hf hb hc p buffer hp ih =>
    obtain ⟨x, hx⟩ := h.exists_context (by simpa using hc)
    have hw := Cursor.past_append_pull_ok (d := d) h hx hp
    have hm := o.cursor.maxElements_pull s h
    rw [← ih (Cursor.coherent_pull h)]
    simpa [future, hf, hb, hm, p, Service.past, Service.note] using hw
  | case6 o s hf hb hc p error hp =>
    obtain ⟨x, hx⟩ := h.exists_context (by simpa using hc)
    have hw := Cursor.past_append_pull_error (d := d) h hx hp
    have hn := Cursor.context_pull_error h hx hp
    rw [fail, Cursor.past_release]
    ext1 <;> simp_all [future, Service.past, p, Walk.ext_iff]

-- A session without results has come to its end.
theorem future_next_of_none (h : o.cursor.Coherent) (hn : (o.next d s).1 = none) :
    (o.next d s).2.1.future d (o.next d s).2.2 = {} := by
  fun_induction next d o s with
  | case1 o s hf => simp [future, hf]
  | case2 => cases hn
  | case3 => cases hn
  | case4 o s hf hb hc =>
    have hx : o.cursor.context = none := by simpa [Cursor.Coherent, hc] using h
    simp [future, hb, hx, Walk.ofAnswers_none_nil]
  | case5 _ _ _ _ _ _ _ _ ih => exact ih (Cursor.coherent_pull h) hn
  | case6 => cases hn

theorem past_append_future_drain (h : o.cursor.Coherent) :
    s.past ++ o.future d s = { results := (o.drain d s).1 } ++ (o.drain d s).2.2.past := by
  fun_induction drain d o s with
  | case1 o s o' s' hn =>
    have hw := past_append_future_next (d := d) (s := s) h
    have hf := future_next_of_none (d := d) (s := s) h (by rw [hn])
    simp only [hn] at hw hf
    simpa [hf] using hw
  | case2 o s result o' s' hn results o'' s'' hd ih =>
    have hw := past_append_future_next (d := d) (s := s) h
    have hc := coherent_next (d := d) (s := s) h
    simp only [hn] at hw hc
    rw [hw, ih hc, hd]
    ext1 <;> simp

end OnDemand

end ResourceQuery.Enumeration
