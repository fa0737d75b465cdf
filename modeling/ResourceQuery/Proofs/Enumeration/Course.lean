import ResourceQuery.Enumeration.Paged
import ResourceQuery.Proofs.Enumeration.Walk

namespace ResourceQuery.Enumeration

variable {α ι ρ σ τ : Type}

def untilFailure : List (Outcome α) → List (Outcome α)
  | [] => []
  | .ok result :: results => .ok result :: untilFailure results
  | .error error :: _ => [.error error]

def successes : List (Outcome α) → List α
  | [] => []
  | .ok result :: results => result :: successes results
  | .error _ :: results => successes results

def failures : List (Outcome α) → List EnumerationError
  | [] => []
  | .ok _ :: results => failures results
  | .error error :: results => error :: failures results

theorem untilFailure_map_ok_append (results : List α) (rest : List (Outcome α)) :
    untilFailure (results.map .ok ++ rest) = results.map .ok ++ untilFailure rest := by
  induction results with
  | nil => rfl
  | cons result results ih => simp [untilFailure, ih]

theorem successes_map_ok_append (results : List α) (rest : List (Outcome α)) :
    successes (results.map .ok ++ rest) = results ++ successes rest := by
  induction results with
  | nil => rfl
  | cons result results ih => simp [successes, ih]

theorem failures_map_ok_append (results : List α) (rest : List (Outcome α)) :
    failures (results.map .ok ++ rest) = failures rest := by
  induction results with
  | nil => rfl
  | cons result results ih => simp [failures, ih]

namespace Decoder

variable {d : Decoder ι ρ} {items : List ι}

-- The items that are decoded for a list of records. The first one that fails is the last one.
def attempted (d : Decoder ι ρ) (items : List ι) : List ι :=
  items.take (untilFailure (items.map d.decode)).length

-- The page of records that an answer brings, unless one of its items fails.
def decodePage (d : Decoder ι ρ) (total : Option Nat) (endOfSequence : Bool) (items : List ι) :
    Outcome (Page ρ) :=
  (items.mapM d.decode).map ({ items := ·, total, endOfSequence })

theorem mapM_decode_cons_ok {item : ι} {record : ρ} (h : d.decode item = .ok record) :
    (item :: items).mapM d.decode = (items.mapM d.decode).map (record :: ·) := by
  rw [List.mapM_cons, h]
  cases items.mapM d.decode <;> rfl

theorem mapM_decode_cons_error {item : ι} {error : EnumerationError}
    (h : d.decode item = .error error) : (item :: items).mapM d.decode = .error error := by
  rw [List.mapM_cons, h]
  rfl

theorem decodePage_cons_ok {item : ι} {record : ρ} (h : d.decode item = .ok record)
    (total : Option Nat) (endOfSequence : Bool) :
    d.decodePage total endOfSequence (item :: items) =
      (d.decodePage total endOfSequence items).map fun page =>
        { page with items := record :: page.items } := by
  rw [decodePage, decodePage, mapM_decode_cons_ok h]
  cases items.mapM d.decode <;> rfl

theorem decodePage_cons_error {item : ι} {error : EnumerationError}
    (h : d.decode item = .error error) (total : Option Nat) (endOfSequence : Bool) :
    d.decodePage total endOfSequence (item :: items) = .error error := by
  rw [decodePage, mapM_decode_cons_error h]
  rfl

theorem attempted_cons_ok {item : ι} {record : ρ} (h : d.decode item = .ok record) :
    d.attempted (item :: items) = item :: d.attempted items := by
  simp [attempted, untilFailure, h]

theorem attempted_cons_error {item : ι} {error : EnumerationError}
    (h : d.decode item = .error error) : d.attempted (item :: items) = [item] := by
  simp [attempted, untilFailure, h]

-- Either all items of a page can be decoded, or those before the first failure.
theorem map_decode_of_mapM_ok {records : List ρ} (h : items.mapM d.decode = .ok records) :
    items.map d.decode = records.map .ok := by
  induction items generalizing records with
  | nil => cases h; rfl
  | cons item items ih =>
    cases hd : d.decode item with
    | error error => simp [mapM_decode_cons_error hd] at h
    | ok record =>
      rw [mapM_decode_cons_ok hd] at h
      cases hm : items.mapM d.decode with
      | error error => simp [hm, Except.map] at h
      | ok rest =>
        simp only [hm, Except.map, Except.ok.injEq] at h
        simp [← h, hd, ih hm]

theorem untilFailure_of_mapM_error {error : EnumerationError}
    (h : items.mapM d.decode = .error error) :
    ∃ records : List ρ, ∀ rest,
      untilFailure (items.map d.decode ++ rest) = records.map .ok ++ [.error error] := by
  induction items with
  | nil => cases h
  | cons item items ih =>
    cases hd : d.decode item with
    | error failure =>
      rw [mapM_decode_cons_error hd] at h
      exact ⟨[], fun rest => by simp [hd, untilFailure, Except.error.inj h]⟩
    | ok record =>
      rw [mapM_decode_cons_ok hd] at h
      cases hm : items.mapM d.decode with
      | ok rest => simp [hm, Except.map] at h
      | error failure =>
        simp only [hm, Except.map, Except.error.injEq] at h
        have ⟨records, hr⟩ := ih (h ▸ hm)
        exact ⟨record :: records, fun rest => by simp [hd, untilFailure, hr]⟩

end Decoder

structure Course (ι : Type) where
  answers : List (Answer ι) := []
  failure : Option EnumerationError := none

namespace Course

-- An answer in front of what comes if the enumeration goes on after it. An answer that leaves open
-- how to go on is as good as none.
def ofAnswer (answer : Outcome (Answer ι)) (rest : Course ι) : Course ι :=
  match answer with
  | .error error => { failure := some error }
  | .ok a =>
    if a.endOfSequence then { answers := [a] }
    else if a.context = none then { failure := some .missingContext }
    else { rest with answers := a :: rest.answers }

-- The course that the answers to all pulls to come determine.
def ofPulls : List (PullAnswer ι) → Course ι
  | [] => { failure := some Service.scriptExhausted }
  | a :: pulls => ofAnswer a.outcome (ofPulls pulls)

def items (c : Course ι) : List ι :=
  c.answers.flatMap (·.items)

-- The items of a page. There are none after the last page.
def page (c : Course ι) (n : Nat) : List ι :=
  (c.answers[n]?.map (·.items)).getD []

-- What comes of a course if a page with some items yields some results.
def results (c : Course ι) (yields : Bool → List ι → List (Outcome σ)) : List (Outcome σ) :=
  untilFailure (c.answers.flatMap (fun a => yields a.endOfSequence a.items) ++
    c.failure.toList.map .error)

-- One result for each item.
def records (d : Decoder ι ρ) (c : Course ι) : List (Outcome ρ) :=
  c.results fun _ items => items.map d.decode

-- One result for each page.
def pages (d : Decoder ι ρ) (total : Option Nat) (c : Course ι) : List (Outcome (Page ρ)) :=
  c.results fun endOfSequence items => [d.decodePage total endOfSequence items]

theorem ofAnswer_eq_failure {answer : Outcome (Answer ι)} {error : EnumerationError}
    (h : pageOf answer = .error error) (rest : Course ι) :
    ofAnswer answer rest = { failure := some error } := by
  cases answer with
  | error => cases h; rfl
  | ok a =>
    cases he : a.endOfSequence <;> cases hc : a.context <;>
      simp_all [pageOf, Answer.page, ofAnswer]

variable {d : Decoder ι ρ} {c : Course ι} {total : Option Nat}

-- A page of which an item fails is lost, together with the records before that item.
theorem records_and_pages (d : Decoder ι ρ) (total : Option Nat) (c : Course ι) :
    failures (c.records d) = failures (c.pages d total) ∧
      successes (c.records d) = (successes (c.pages d total)).flatMap Page.items ++
        successes (untilFailure ((c.page (successes (c.pages d total)).length).map d.decode)) := by
  obtain ⟨answers, failure⟩ := c
  induction answers with
  | nil => cases failure <;> exact ⟨rfl, rfl⟩
  | cons a answers ih =>
    simp only [records, pages, results, page, List.flatMap_cons, List.append_assoc] at ih ⊢
    cases hm : a.items.mapM d.decode with
    | ok records =>
      have hp : d.decodePage total a.endOfSequence a.items =
          .ok { items := records, total, endOfSequence := a.endOfSequence } := by
        simp [Decoder.decodePage, hm, Except.map]
      rw [Decoder.map_decode_of_mapM_ok hm, untilFailure_map_ok_append, failures_map_ok_append,
        successes_map_ok_append, hp]
      simpa [untilFailure, failures, successes] using ih
    | error error =>
      have hp : d.decodePage total a.endOfSequence a.items = .error error := by
        simp [Decoder.decodePage, hm, Except.map]
      have ⟨records, hr⟩ := Decoder.untilFailure_of_mapM_error hm
      have hself := hr []
      rw [List.append_nil] at hself
      rw [hr, hp]
      simp [untilFailure, failures, successes, failures_map_ok_append, hself]

-- The item before the bad one is a record, but is on no page.
example :
    let d := Decoder.labelling ["bad"] [] []
    let c : Course String := {
      answers := [{ items := ["a"] }, { items := ["b", "bad", "c"], endOfSequence := true }]
    }
    c.records d = [.ok "record-a", .ok "record-b", .error (.decode "record bad is malformed")] ∧
      c.pages d none = [.ok { items := ["record-a"], total := none, endOfSequence := false },
        .error (.decode "record bad is malformed")] :=
  ⟨rfl, rfl⟩

end Course

-- A page comes with the last answer, or with one that tells how to go on.
theorem pageOf_eq_ok {answer : Outcome (Answer ι)} {items : List ι}
    (h : pageOf answer = .ok items) :
    ∃ a, answer = .ok a ∧ items = a.items ∧
      (a.endOfSequence = true ∧ a.held = none ∨
        a.endOfSequence = false ∧ ∃ x, a.context = some x ∧ a.held = some x) := by
  cases answer with
  | error => cases h
  | ok a =>
    refine ⟨a, rfl, ?_⟩
    cases he : a.endOfSequence <;> cases hc : a.context <;>
      simp [pageOf, Answer.page, Answer.held, he, hc] at h ⊢ <;> exact h.symm

namespace Walk

-- From an answer on, and to the end. A failure releases what has been held so far.
def along (visit : Visit ι σ) (maxElements : Nat) (pulls : List (PullAnswer ι))
    (held : Option String) (answer : Outcome (Answer ι)) : Walk ι σ :=
  match pageOf answer with
  | .ok items => visit (heldAfter answer) (onward visit maxElements pulls (heldAfter answer)) items
  | .error error => failure error held

-- A page is taken as a whole.
def pagewise (d : Decoder ι ρ) (total : Option Nat) : Visit ι (Page ρ) := fun held after items =>
  { decoded := d.attempted items } ++
    match d.decodePage total held.isNone items with
    | .ok page => { results := [.ok page] } ++ after
    | .error error => failure error held

variable {d : Decoder ι ρ} {maxElements : Nat} {total : Option Nat} {held : Option String}

section Relation

-- A relation between walks and courses that failures and last pages establish, and that calls and
-- further pages keep.
variable {visit : Visit ι σ} {R : Walk ι σ → Course ι → Prop}
variable (failed : ∀ error held, R (failure error held) { failure := some error })
variable (last : ∀ a : Answer ι, a.endOfSequence = true →
  R (visit none {} a.items) { answers := [a] })
variable (called : ∀ call w c, R w c → R ({ calls := [call] } ++ w) c)
variable (page : ∀ (a : Answer ι) x w c, a.endOfSequence = false → R w c →
  R (visit (some x) w a.items) { c with answers := a :: c.answers })
include failed last page

theorem along_of_onward {pulls : List (PullAnswer ι)} {rest : Course ι}
    (h : ∀ x, R (onward visit maxElements pulls (some x)) rest) (held : Option String)
    (answer : Outcome (Answer ι)) :
    R (along visit maxElements pulls held answer) (Course.ofAnswer answer rest) := by
  cases hp : pageOf answer with
  | error error => simpa [along, hp, Course.ofAnswer_eq_failure hp] using failed error held
  | ok items =>
    obtain ⟨a, rfl, rfl, ⟨he, hn⟩ | ⟨he, x, hc, hx⟩⟩ := pageOf_eq_ok hp
    case inl => simpa [along, hp, heldAfter, hn, onward, Course.ofAnswer, he] using last a he
    case inr =>
      simpa [along, hp, heldAfter, hx, Course.ofAnswer, he, hc] using page a x _ rest he (h x)

include called

theorem along_course (maxElements : Nat) (pulls : List (PullAnswer ι)) (held : Option String)
    (answer : Outcome (Answer ι)) :
    R (along visit maxElements pulls held answer)
      (Course.ofAnswer answer (Course.ofPulls pulls)) := by
  refine along_of_onward failed last page (fun x => ?_) held answer
  induction pulls generalizing x with
  | nil => exact called _ _ _ (failed _ (some x))
  | cons a pulls ih =>
    exact called _ _ _ (along_of_onward failed last page ih (abandoned x a.outcome) a.outcome)

end Relation

theorem results_through {after : Walk ι ρ} {results : List (Outcome ρ)}
    (h : after.results = untilFailure results) (items : List ι) :
    (through d held after items).results = untilFailure (items.map d.decode ++ results) := by
  induction items with
  | nil => exact h
  | cons item items ih =>
    cases hd : d.decode item with
    | ok record => simp [through_ok hd, hd, untilFailure, ih]
    | error error => simp [through_error hd, hd, untilFailure, failure]

-- Each result comes of one item.
theorem decoded_through {after : Walk ι ρ} {later : List ι}
    (h : after.decoded = later.take after.results.length) (items : List ι) :
    (through d held after items).decoded =
      (items ++ later).take (through d held after items).results.length := by
  induction items with
  | nil => exact h
  | cons item items ih =>
    cases hd : d.decode item with
    | ok record => simp [through_ok hd, ih]
    | error error => simp [through_error hd, failure]

theorem results_pagewise {after : Walk ι (Page ρ)} {results : List (Outcome (Page ρ))}
    (h : after.results = untilFailure results) (items : List ι) :
    (pagewise d total held after items).results =
      untilFailure (d.decodePage total held.isNone items :: results) := by
  rw [pagewise]
  cases d.decodePage total held.isNone items <;> simp [untilFailure, failure, h]

theorem results_along_through (d : Decoder ι ρ) (maxElements : Nat) (pulls : List (PullAnswer ι))
    (held : Option String) (answer : Outcome (Answer ι)) :
    (along (through d) maxElements pulls held answer).results =
      (Course.ofAnswer answer (Course.ofPulls pulls)).records d := by
  refine along_course (R := fun w c => w.results = c.records d) ?_ ?_ ?_ ?_ ..
  case refine_1 => exact fun _ _ => rfl
  case refine_2 =>
    intro a _
    have h : ({} : Walk ι ρ).results = untilFailure [] := rfl
    rw [results_through h]
    simp [Course.records, Course.results]
  case refine_3 => exact fun _ _ _ h => by simpa using h
  case refine_4 =>
    intro a x w c _ h
    rw [results_through h]
    simp [Course.records, Course.results]

theorem decoded_along_through (d : Decoder ι ρ) (maxElements : Nat) (pulls : List (PullAnswer ι))
    (held : Option String) (answer : Outcome (Answer ι)) :
    (along (through d) maxElements pulls held answer).decoded =
      (Course.ofAnswer answer (Course.ofPulls pulls)).items.take
        (along (through d) maxElements pulls held answer).results.length := by
  refine along_course (R := fun w c => w.decoded = c.items.take w.results.length) ?_ ?_ ?_ ?_ ..
  case refine_1 => exact fun _ _ => rfl
  case refine_2 =>
    intro a _
    have h : ({} : Walk ι ρ).decoded = List.take 0 [] := rfl
    rw [decoded_through h]
    simp [Course.items]
  case refine_3 => exact fun _ _ _ h => by simpa using h
  case refine_4 =>
    intro a x w c _ h
    rw [decoded_through h]
    simp [Course.items]

theorem results_along_pagewise (d : Decoder ι ρ) (total : Option Nat) (maxElements : Nat)
    (pulls : List (PullAnswer ι)) (held : Option String) (answer : Outcome (Answer ι)) :
    (along (pagewise d total) maxElements pulls held answer).results =
      (Course.ofAnswer answer (Course.ofPulls pulls)).pages d total := by
  refine along_course (R := fun w c => w.results = c.pages d total) ?_ ?_ ?_ ?_ ..
  case refine_1 => exact fun _ _ => rfl
  case refine_2 =>
    intro a he
    have h : ({} : Walk ι (Page ρ)).results = untilFailure [] := rfl
    rw [results_pagewise h]
    simp [Course.pages, Course.results, he]
  case refine_3 => exact fun _ _ _ h => by simpa using h
  case refine_4 =>
    intro a x w c he h
    rw [results_pagewise h]
    simp [Course.pages, Course.results, he]

-- Walks with the same calls and the same decoded items, whatever comes of them.
structure Alike (v : Walk ι σ) (w : Walk ι τ) : Prop where
  calls_eq : v.calls = w.calls
  decoded_eq : v.decoded = w.decoded

theorem Alike.append {u : Walk ι σ} {u' : Walk ι τ} {v : Walk ι σ} {v' : Walk ι τ} (hu : Alike u u')
    (hv : Alike v v') : Alike (u ++ v) (u' ++ v') :=
  ⟨by simp [hu.calls_eq, hv.calls_eq], by simp [hu.decoded_eq, hv.decoded_eq]⟩

section Alike

variable {visit : Visit ι σ} {visit' : Visit ι τ}
variable (h : ∀ held items v w, Alike v w → Alike (visit held v items) (visit' held w items))
include h

theorem alike_along_of_onward {pulls : List (PullAnswer ι)}
    (ho : ∀ held,
      Alike (onward visit maxElements pulls held) (onward visit' maxElements pulls held))
    (held : Option String) (answer : Outcome (Answer ι)) :
    Alike (along visit maxElements pulls held answer)
      (along visit' maxElements pulls held answer) := by
  rw [along, along]
  cases pageOf answer with
  | ok items => exact h _ _ _ _ (ho _)
  | error error => exact ⟨rfl, rfl⟩

theorem alike_along (maxElements : Nat) (pulls : List (PullAnswer ι)) (held : Option String)
    (answer : Outcome (Answer ι)) :
    Alike (along visit maxElements pulls held answer)
      (along visit' maxElements pulls held answer) := by
  refine alike_along_of_onward h (fun held => ?_) held answer
  induction pulls generalizing held with
  | nil => cases held <;> exact ⟨rfl, rfl⟩
  | cons a pulls ih =>
    cases held with
    | none => exact ⟨rfl, rfl⟩
    | some x =>
      exact .append ⟨rfl, rfl⟩ (alike_along_of_onward h ih (abandoned x a.outcome) a.outcome)

end Alike

theorem alike_through_pagewise (d : Decoder ι ρ) (total : Option Nat) (held : Option String)
    (items : List ι) {v : Walk ι ρ} {w : Walk ι (Page ρ)} (h : Alike v w) :
    Alike (through d held v items) (pagewise d total held w items) := by
  induction items with
  | nil => exact .append (u := {}) ⟨rfl, rfl⟩ (.append (u := {}) ⟨rfl, rfl⟩ h)
  | cons item items ih =>
    cases hd : d.decode item with
    | error error =>
      simp only [through_error hd, pagewise, Decoder.attempted_cons_error hd,
        Decoder.decodePage_cons_error hd]
      exact ⟨rfl, rfl⟩
    | ok record =>
      simp only [through_ok hd, pagewise, Decoder.attempted_cons_ok hd,
        Decoder.decodePage_cons_ok hd]
      rw [pagewise] at ih
      cases hp : d.decodePage total held.isNone items <;> rw [hp] at ih <;>
        exact ⟨by simpa [Except.map] using ih.calls_eq, by simpa [Except.map] using ih.decoded_eq⟩

end Walk

end ResourceQuery.Enumeration
