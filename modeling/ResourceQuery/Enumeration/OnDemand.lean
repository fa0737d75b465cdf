import ResourceQuery.Enumeration.Cursor
import ResourceQuery.Enumeration.Decoder

namespace ResourceQuery.Enumeration

structure OnDemand (ι : Type) where
  cursor : Cursor
  buffer : List ι
  failed : Bool := false

namespace OnDemand

variable {ι ρ : Type}

def isFinished (o : OnDemand ι) : Bool :=
  o.failed || (o.buffer.isEmpty && o.cursor.finished)

def fail (o : OnDemand ι) (s : Service ι) : OnDemand ι × Service ι :=
  let (cursor, s) := o.cursor.release s
  ({ cursor, buffer := [], failed := true }, s)

-- The next record or failure. A session that has come to its end gives nothing from then on.
def next (d : Decoder ι ρ) (o : OnDemand ι) (s : Service ι) :
    Option (Outcome ρ) × OnDemand ι × Service ι :=
  if o.failed then
    (none, o, s)
  else
    match o.buffer with
    | item :: buffer =>
      match d.decode item with
      | .ok record => (some (.ok record), { o with buffer }, s.recordDecoding item)
      | .error error => (some (.error error), { o with buffer }.fail (s.recordDecoding item))
    | [] =>
      if o.cursor.finished then
        (none, o, s)
      else
        let p := o.cursor.pull s
        match _h : p.outcome with
        | .ok buffer =>
          next d { o with cursor := p.cursor, buffer } (p.service.note (.buffered buffer.length))
        | .error error => (some (.error error), { o with cursor := p.cursor }.fail p.service)
termination_by s.pulls.length
decreasing_by exact Cursor.length_pulls_lt_of_ok _h

-- What the session can still give is bounded by the pulls that the script answers, and after the
-- last of them by the items at hand.
def bound (o : OnDemand ι) (s : Service ι) : Nat × Nat :=
  (s.pulls.length, o.buffer.length + if o.failed then 0 else 1)

theorem bound_fail (o : OnDemand ι) (s : Service ι) :
    (o.fail s).1.bound (o.fail s).2 = (s.pulls.length, 0) := by
  simp [fail, bound]

-- Each result brings the session closer to its end.
theorem bound_next {d : Decoder ι ρ} {o : OnDemand ι} {s : Service ι}
    (h : (o.next d s).1.isSome) :
    Prod.Lex (· < ·) (· < ·) ((o.next d s).2.1.bound (o.next d s).2.2) (o.bound s) := by
  fun_induction next d o s with
  | case1 => simp at h
  | case2 o s hf item buffer hb record =>
    simp [bound, hb, hf, Service.recordDecoding, Prod.lex_def]
  | case3 o s hf item buffer hb error =>
    simp only [bound_fail]
    simp [bound, hb, hf, Service.recordDecoding, Prod.lex_def]
  | case4 => simp at h
  | case5 o s hf hb hc p buffer hp ih =>
    have ih := Prod.lex_def.mp (ih h)
    have : p.service.pulls.length < s.pulls.length := Cursor.length_pulls_lt_of_ok hp
    refine Prod.lex_def.mpr (.inl ?_)
    simp only [bound, Service.pulls_note] at ih ⊢
    omega
  | case6 o s hf hb hc p error hp =>
    have : p.service.pulls.length ≤ s.pulls.length := Cursor.length_pulls_le o.cursor s
    simp only [bound_fail]
    simp [bound, hb, hf, Prod.lex_def]
    omega

-- The results of the given number of calls.
def nextMany (d : Decoder ι ρ) :
    Nat → OnDemand ι → Service ι → List (Option (Outcome ρ)) × OnDemand ι × Service ι
  | 0, o, s => ([], o, s)
  | n + 1, o, s =>
    let (result, o, s) := o.next d s
    let (results, o, s) := nextMany d n o s
    (result :: results, o, s)

-- As many results as there are, but at most the given number.
def take (d : Decoder ι ρ) :
    Nat → OnDemand ι → Service ι → List (Outcome ρ) × OnDemand ι × Service ι
  | 0, o, s => ([], o, s)
  | n + 1, o, s =>
    match o.next d s with
    | (none, o, s) => ([], o, s)
    | (some result, o, s) =>
      let (results, o, s) := take d n o s
      (result :: results, o, s)

-- All results that are left.
def drain (d : Decoder ι ρ) (o : OnDemand ι) (s : Service ι) :
    List (Outcome ρ) × OnDemand ι × Service ι :=
  match _h : o.next d s with
  | (none, o, s) => ([], o, s)
  | (some result, o', s') =>
    let (results, o, s) := drain d o' s'
    (result :: results, o, s)
termination_by o.bound s
decreasing_by
  have := bound_next (d := d) (o := o) (s := s)
  simp only [_h] at this
  exact this rfl

-- Gives the session up.
def drop (o : OnDemand ι) (s : Service ι) : Service ι :=
  o.cursor.drop s

end OnDemand

end ResourceQuery.Enumeration
