import ResourceQuery.Enumeration.Cursor
import ResourceQuery.Enumeration.Decoder

namespace ResourceQuery.Enumeration

structure Page (α : Type) where
  items : List α
  total : Option Nat := none
  endOfSequence : Bool := false
  deriving DecidableEq

structure Paged (ι : Type) where
  cursor : Cursor
  initial : Option (List ι)
  hasMore : Bool := true
  pagesReturned : Nat := 0

namespace Paged

variable {ι ρ : Type}

-- Decodes items up to the first failure.
def decodeAll (d : Decoder ι ρ) : List ι → Service ι → Outcome (List ρ) × Service ι
  | [], s => (.ok [], s)
  | item :: items, s =>
    match d.decode item with
    | .error error => (.error error, s.recordDecoding item)
    | .ok record =>
      let (records, s) := decodeAll d items (s.recordDecoding item)
      (records.map (record :: ·), s)

theorem pulls_decodeAll (d : Decoder ι ρ) (items : List ι) (s : Service ι) :
    (decodeAll d items s).2.pulls = s.pulls := by
  fun_induction decodeAll d items s <;> simp_all [Service.recordDecoding]

-- Returns a page. A page of which an item fails is lost, and ends the session.
def deliver (d : Decoder ι ρ) (p : Paged ι) (items : List ι) (s : Service ι) :
    Outcome (Page ρ) × Paged ι × Service ι :=
  match decodeAll d items s with
  | (.ok records, s) =>
    let hasMore := !p.cursor.finished
    (.ok { items := records, total := p.cursor.total, endOfSequence := !hasMore },
      { p with hasMore, pagesReturned := p.pagesReturned + 1 }, s)
  | (.error error, s) =>
    let (cursor, s) := p.cursor.release s
    (.error error, { p with cursor, hasMore := false }, s)

def nextPage (d : Decoder ι ρ) (p : Paged ι) (s : Service ι) :
    Outcome (Page ρ) × Paged ι × Service ι :=
  if p.hasMore then
    match p.initial with
    | some items => { p with initial := none }.deliver d items s
    | none =>
      let pulled := p.cursor.pull s
      match pulled.outcome with
      | .ok items => { p with cursor := pulled.cursor }.deliver d items pulled.service
      | .error error =>
        (.error error, { p with cursor := pulled.cursor, hasMore := false }, pulled.service)
  else
    (.error .exhausted, p, s)

-- The next page or failure, or nothing after the end.
def next (d : Decoder ι ρ) (p : Paged ι) (s : Service ι) :
    Option (Outcome (Page ρ)) × Paged ι × Service ι :=
  if p.hasMore then
    let (result, p, s) := p.nextPage d s
    (some result, p, s)
  else
    (none, p, s)

-- What the session can still give is bounded by the pulls that the script answers, and after the
-- last of them by the first page.
def bound (p : Paged ι) (s : Service ι) : Nat × Nat :=
  (s.pulls.length, p.initial.toList.length + p.hasMore.toNat)

theorem pulls_deliver (d : Decoder ι ρ) (p : Paged ι) (items : List ι) (s : Service ι) :
    (p.deliver d items s).2.2.pulls = s.pulls := by
  have := pulls_decodeAll d items s
  unfold deliver
  split <;> simp_all

theorem initial_deliver (d : Decoder ι ρ) (p : Paged ι) (items : List ι) (s : Service ι) :
    (p.deliver d items s).2.1.initial = p.initial := by
  unfold deliver
  split <;> rfl

-- Each result brings the session closer to its end.
theorem bound_next {d : Decoder ι ρ} {p : Paged ι} {s : Service ι} (h : p.hasMore = true) :
    Prod.Lex (· < ·) (· < ·) ((p.nextPage d s).2.1.bound (p.nextPage d s).2.2) (p.bound s) := by
  rw [nextPage, if_pos h, Prod.lex_def]
  cases hi : p.initial with
  | some items =>
    refine .inr ⟨by simp only [bound, pulls_deliver], ?_⟩
    have := Bool.toNat_le ({ p with initial := none }.deliver d items s).2.1.hasMore
    simp [bound, initial_deliver, hi, h] at this ⊢
    omega
  | none =>
    simp only
    split
    next items ho =>
      have := Cursor.length_pulls_lt_of_ok ho
      simp [bound, pulls_deliver, this]
    next error ho =>
      have := p.cursor.length_pulls_le s
      simp [bound, hi, h]
      omega

-- The results of the given number of calls.
def nextPages (d : Decoder ι ρ) :
    Nat → Paged ι → Service ι → List (Outcome (Page ρ)) × Paged ι × Service ι
  | 0, p, s => ([], p, s)
  | n + 1, p, s =>
    let (result, p, s) := p.nextPage d s
    let (results, p, s) := nextPages d n p s
    (result :: results, p, s)

-- The results of the given number of steps of the iteration.
def nextMany (d : Decoder ι ρ) :
    Nat → Paged ι → Service ι →
      List (Option (Outcome (Page ρ))) × Paged ι × Service ι
  | 0, p, s => ([], p, s)
  | n + 1, p, s =>
    let (result, p, s) := p.next d s
    let (results, p, s) := nextMany d n p s
    (result :: results, p, s)

-- All results that are left.
def drain (d : Decoder ι ρ) (p : Paged ι) (s : Service ι) :
    List (Outcome (Page ρ)) × Paged ι × Service ι :=
  if _h : p.hasMore then
    let first := p.nextPage d s
    let (results, p, s) := drain d first.2.1 first.2.2
    (first.1 :: results, p, s)
  else
    ([], p, s)
termination_by p.bound s
decreasing_by exact bound_next _h

-- Gives the session up.
def drop (p : Paged ι) (s : Service ι) : Service ι :=
  p.cursor.drop s

end Paged

end ResourceQuery.Enumeration
