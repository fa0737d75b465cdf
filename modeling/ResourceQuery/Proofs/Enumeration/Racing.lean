import Mathlib.Data.List.Basic
import ResourceQuery.Enumeration.Race
import ResourceQuery.Enumeration.Schedule

namespace ResourceQuery.Enumeration

namespace Stage

-- Whether a call has come to the flag.
def hasRaised : Stage → Bool
  | started => false
  | _ => true

-- Whether a call has found the flag down.
def won : Stage → Bool
  | raised | returned true => true
  | _ => false

theorem hasRaised_iff {s : Stage} : s.hasRaised = true ↔ s ≠ started := by
  cases s <;> simp [hasRaised]

@[simp]
theorem hasRaised_afterRaise (first : Bool) : (afterRaise first).hasRaised = true := by
  cases first <;> rfl

@[simp]
theorem won_afterRaise (first : Bool) : (afterRaise first).won = first := by
  cases first <;> rfl

@[simp]
theorem afterRaise_ne_returned_true (first : Bool) : afterRaise first ≠ returned true := by
  cases first <;> simp [afterRaise]

end Stage

-- All that a family consists of.
@[ext]
structure Family where
  switch : Switch := {}
  clones : Nat := 0
  stages : List Stage := []

namespace Family

inductive Step : Family → Family → Prop
  | clone {f} : 0 < f.clones → Step f { f with clones := f.clones + 1 }
  | giveUp {f} : 0 < f.clones → Step f { f with clones := f.clones - 1 }
  | start {f} : 0 < f.clones → Step f { f with stages := f.stages ++ [.started] }
  | raise {f before after} : f.stages = before ++ .started :: after →
    Step f { f with
      switch := f.switch.raise.2
      stages := before ++ .afterRaise f.switch.raise.1 :: after }
  | disarm {f before after} : f.stages = before ++ .raised :: after →
    Step f { f with
      switch := f.switch.disarm
      stages := before ++ .returned true :: after }

-- The switch tells what the calls have done, and among those that have come to the flag one has
-- won.
structure Sound (f : Family) : Prop where
  cancelled_eq : f.switch.cancelled = f.stages.any Stage.hasRaised
  disarmed_iff : f.switch.armed = false ↔ .returned true ∈ f.stages
  winners_eq : f.stages.countP Stage.won = f.switch.cancelled.toNat

variable {f g : Family} {before after : List Stage}

theorem sound_silent (clones : Nat) : Sound { clones } where
  cancelled_eq := rfl
  disarmed_iff := by simp
  winners_eq := rfl

namespace Sound

theorem withClones (h : f.Sound) (clones : Nat) : Sound { f with clones } :=
  ⟨h.cancelled_eq, h.disarmed_iff, h.winners_eq⟩

theorem start (h : f.Sound) : Sound { f with stages := f.stages ++ [.started] } where
  cancelled_eq := by simpa [Stage.hasRaised] using h.cancelled_eq
  disarmed_iff := by simpa using h.disarmed_iff
  winners_eq := by simpa [Stage.won] using h.winners_eq

-- Whoever finds the flag down is the only winner.
theorem raise (h : f.Sound) (hs : f.stages = before ++ .started :: after) :
    Sound { f with
      switch := f.switch.raise.2
      stages := before ++ .afterRaise f.switch.raise.1 :: after } where
  cancelled_eq := by simp [Switch.raise]
  disarmed_iff := by
    have hd := h.disarmed_iff
    simpa [hs, Switch.raise, eq_comm (a := Stage.returned true)] using hd
  winners_eq := by
    have hw : before.countP Stage.won + after.countP Stage.won = f.switch.cancelled.toNat := by
      simpa [hs, List.countP_cons, Stage.won] using h.winners_eq
    simp only [List.countP_append, List.countP_cons, Stage.won_afterRaise, Switch.raise,
      Bool.toNat_true]
    cases hc : f.switch.cancelled with
    | false =>
      rw [hc, Bool.toNat_false] at hw
      simp only [Bool.not_false, if_true]
      omega
    | true =>
      rw [hc, Bool.toNat_true] at hw
      simp only [Bool.not_true, Bool.false_eq_true, if_false]
      omega

-- The winner stays the winner.
theorem disarm (h : f.Sound) (hs : f.stages = before ++ .raised :: after) :
    Sound { f with
      switch := f.switch.disarm
      stages := before ++ .returned true :: after } where
  cancelled_eq := by
    have hc := h.cancelled_eq
    simpa [hs, Switch.disarm, Stage.hasRaised] using hc
  disarmed_iff := by simp [Switch.disarm]
  winners_eq := by
    have hw := h.winners_eq
    simpa [hs, Switch.disarm, Stage.won, List.countP_cons] using hw

theorem step (h : f.Sound) (s : Step f g) : g.Sound := by
  cases s
  case clone => exact h.withClones _
  case giveUp => exact h.withClones _
  case start => exact h.start
  case raise hs => exact h.raise hs
  case disarm hs => exact h.disarm hs

theorem cancelled_iff (h : f.Sound) :
    f.switch.cancelled = true ↔ ∃ s ∈ f.stages, s ≠ .started := by
  simp only [h.cancelled_eq, List.any_eq_true, Stage.hasRaised_iff]

theorem cancelled_of_disarmed (h : f.Sound) (ha : f.switch.armed = false) :
    f.switch.cancelled = true :=
  h.cancelled_iff.mpr ⟨_, h.disarmed_iff.mp ha, by simp⟩

theorem count_first_le (h : f.Sound) : f.stages.count (.returned true) ≤ 1 := by
  calc f.stages.count (.returned true)
    _ ≤ f.stages.countP Stage.won := List.countP_mono_left fun s _ hs => by
      rw [eq_of_beq hs]
      rfl
    _ = f.switch.cancelled.toNat := h.winners_eq
    _ ≤ 1 := Bool.toNat_le _

theorem count_first_eq (h : f.Sound) (hn : f.stages ≠ [])
    (ho : ∀ s ∈ f.stages, s.isOver = true) : f.stages.count (.returned true) = 1 := by
  have ⟨s, hs⟩ := List.exists_mem_of_ne_nil _ hn
  have hc : f.switch.cancelled = true :=
    h.cancelled_iff.mpr ⟨s, hs, by rintro rfl; simpa [Stage.isOver] using ho _ hs⟩
  calc f.stages.count (.returned true)
    _ = f.stages.countP Stage.won := List.countP_congr fun s hs => by
      cases s with
      | returned first => cases first <;> simp [Stage.won]
      | _ => exact absurd (ho _ hs) nofun
    _ = f.switch.cancelled.toNat := h.winners_eq
    _ = 1 := by rw [hc, Bool.toNat_true]

end Sound

theorem Step.cancelled (s : Step f g) (h : f.switch.cancelled = true) :
    g.switch.cancelled = true := by
  cases s
  case raise => rfl
  all_goals exact h

-- What racing threads do to the token of a stream, they may do on some schedule of the stream.
theorem Step.reaches {ι ρ : Type} (d : Decoder ι ρ) {stream : Flow ι ρ} (s : Step f g)
    (h : f.Sound) (e : stream.switch = f.switch) :
    Flow.Reaches d stream [] { stream with switch := g.switch } := by
  cases s
  case clone => exact e ▸ .refl
  case giveUp => exact e ▸ .refl
  case start => exact e ▸ .refl
  case raise => exact e ▸ .single .raise
  case disarm hs =>
    have hc : f.switch.cancelled = true := h.cancelled_iff.mpr ⟨.raised, by simp [hs], by simp⟩
    rw [← e] at hc
    exact e ▸ .single (.disarm hc)

end Family

namespace Switchboard

variable {b : Switchboard} {t u : Token}

theorem state_put (s : Switch) (h : t.index < b.switches.length) : (b.put t s).state t = s := by
  simp [state, put, h]

theorem state_put_of_ne (s : Switch) (h : u ≠ t) : (b.put u s).state t = b.state t := by
  have hi : u.index ≠ t.index := fun hi => h (by cases u; cases t; simp_all)
  simp [state, put, hi]

theorem put_put (s₁ s₂ : Switch) : (b.put t s₁).put t s₂ = b.put t s₂ := by
  simp [put]

-- The switch of a token that was not issued is as it will be when it is.
theorem state_issue (b : Switchboard) (t : Token) : b.issue.2.state t = b.state t := by
  simp only [state, issue, List.getD_eq_getElem?_getD, List.getElem?_append]
  split
  · rfl
  case isFalse h =>
    rw [List.getElem?_eq_none (Nat.le_of_not_lt h)]
    cases t.index - b.switches.length <;> rfl

end Switchboard

namespace Race

variable {r r₁ r₂ : Race} {t u : Token} {turns : List Token}

def Issued (r : Race) (t : Token) : Prop :=
  t.index < r.board.switches.length

-- The stages of the calls on a token.
def stages (t : Token) (calls : List Cancelling) : List Stage :=
  calls.filterMap fun c => if c.token = t then some c.stage else none

def family (r : Race) (t : Token) : Family where
  switch := r.board.state t
  clones := r.tokens.count t
  stages := stages t r.calls

section Stages

variable {calls before after : List Cancelling} {s : Stage}

@[simp]
theorem mem_stages : s ∈ stages t calls ↔ ⟨t, s⟩ ∈ calls := by
  simp only [stages, List.mem_filterMap, Option.ite_none_right_eq_some, Option.some.injEq]
  constructor
  · rintro ⟨⟨t, s⟩, hc, rfl, rfl⟩
    exact hc
  · exact fun hc => ⟨⟨t, s⟩, hc, rfl, rfl⟩

theorem exists_mem_stages {P : Stage → Prop} :
    (∃ s ∈ stages t calls, P s) ↔ ∃ c ∈ calls, c.token = t ∧ P c.stage := by
  constructor
  · rintro ⟨s, hs, hp⟩
    exact ⟨⟨t, s⟩, mem_stages.mp hs, rfl, hp⟩
  · rintro ⟨⟨_, s⟩, hc, rfl, hp⟩
    exact ⟨s, mem_stages.mpr hc, hp⟩

theorem count_stages : (stages t calls).count s = calls.count ⟨t, s⟩ := by
  rw [stages, List.count_filterMap, List.count_eq_countP]
  congr
  funext ⟨u, s'⟩
  rw [Bool.eq_iff_iff]
  simp

@[simp]
theorem stages_append : stages t (before ++ after) = stages t before ++ stages t after :=
  List.filterMap_append

@[simp]
theorem stages_cons_self : stages t (⟨t, s⟩ :: calls) = s :: stages t calls := by
  simp [stages]

theorem stages_cons_of_ne (h : u ≠ t) : stages t (⟨u, s⟩ :: calls) = stages t calls := by
  simp [stages, h]

@[simp]
theorem stages_nil : stages t [] = [] :=
  rfl

-- A call of a family is a call among all, with the other calls of the family around it.
theorem split_of_stages {earlier later : List Stage} (h : stages t calls = earlier ++ s :: later) :
    ∃ before after, calls = before ++ ⟨t, s⟩ :: after ∧
      stages t before = earlier ∧ stages t after = later := by
  have ⟨before, rest, hc, hb, hr⟩ := List.filterMap_eq_append_iff.mp h
  have ⟨others, ⟨_, _⟩, after, hs, ho, hu, ha⟩ := List.filterMap_eq_cons_iff.mp hr
  simp only [Option.ite_none_right_eq_some, Option.some.injEq] at hu
  obtain ⟨rfl, rfl⟩ := hu
  have ho : stages _ others = [] := List.filterMap_eq_nil_iff.mpr ho
  refine ⟨before ++ others, after, by simp [hc, hs], ?_, ha⟩
  rw [stages_append, ho, List.append_nil]
  exact hb

end Stages

namespace Step

-- A step on an issued token is a step of its family.
theorem own (s : Step r t r₁) (h : r.Issued t) : Family.Step (r.family t) (r₁.family t) := by
  cases s
  case issue => exact absurd h (Nat.lt_irrefl _)
  case clone ht =>
    have hc : 0 < (r.family t).clones := List.count_pos_iff.mpr ht
    simpa [family] using Family.Step.clone hc
  case giveUp ht =>
    have hc : 0 < (r.family t).clones := List.count_pos_iff.mpr ht
    simpa [family] using Family.Step.giveUp hc
  case start ht =>
    have hc : 0 < (r.family t).clones := List.count_pos_iff.mpr ht
    simpa [family] using Family.Step.start hc
  case raise before after hc =>
    have hc : (r.family t).stages = stages t before ++ .started :: stages t after := by
      simp [family, hc]
    simpa [family, Switchboard.state_put _ h] using Family.Step.raise hc
  case disarm before after hc =>
    have hc : (r.family t).stages = stages t before ++ .raised :: stages t after := by
      simp [family, hc]
    simpa [family, Switchboard.state_put _ h] using Family.Step.disarm hc

-- All other families stay as they are.
theorem other (s : Step r u r₁) (h : u ≠ t) : r₁.family t = r.family t := by
  cases s
  case issue => simp [family, Switchboard.state_issue, h]
  case clone ht => simp [family, h]
  case giveUp ht => simp [family, List.count_erase_of_ne h.symm]
  case start ht => simp [family, stages_cons_of_ne h]
  case raise before after hc =>
    simp [family, hc, Switchboard.state_put_of_ne _ h, stages_cons_of_ne h]
  case disarm before after hc =>
    simp [family, hc, Switchboard.state_put_of_ne _ h, stages_cons_of_ne h]

-- What a family can do by itself, it can do among all others.
theorem among {f : Family} (h : r.Issued t) (s : Family.Step (r.family t) f) :
    ∃ r₁, Step r t r₁ ∧ r₁.family t = f := by
  cases s
  case clone hc => exact ⟨_, .clone (List.count_pos_iff.mp hc), by simp [family]⟩
  case giveUp hc => exact ⟨_, .giveUp (List.count_pos_iff.mp hc), by simp [family]⟩
  case start hc => exact ⟨_, .start (List.count_pos_iff.mp hc), by simp [family]⟩
  case raise hs =>
    have ⟨before, after, hc, hb, ha⟩ := split_of_stages hs
    exact ⟨_, .raise hc, by simp [family, hb, ha, Switchboard.state_put _ h]⟩
  case disarm hs =>
    have ⟨before, after, hc, hb, ha⟩ := split_of_stages hs
    exact ⟨_, .disarm hc, by simp [family, hb, ha, Switchboard.state_put _ h]⟩

-- A family begins with its first token.
theorem first (s : Step r t r₁) (h : r.family t = {}) :
    r₁.Issued t ∧ r₁.family t = { clones := 1 } := by
  have hc : t ∉ r.tokens := List.count_eq_zero.mp (congrArg Family.clones h)
  have hs : ∀ s, ⟨t, s⟩ ∉ r.calls := by
    have hn : stages t r.calls = [] := congrArg Family.stages h
    exact fun s hs => List.not_mem_nil (hn ▸ mem_stages.mpr hs)
  cases s
  case issue =>
    refine ⟨by simp [Issued, Switchboard.issue], ?_⟩
    have hs : r.board.state r.board.issue.1 = {} := congrArg Family.switch h
    have hn : stages r.board.issue.1 r.calls = [] := congrArg Family.stages h
    simp [family, Switchboard.state_issue, List.count_eq_zero.mpr hc, hs, hn]
  case clone ht => exact absurd ht hc
  case giveUp ht => exact absurd ht hc
  case start ht => exact absurd ht hc
  case raise before after he => exact absurd (by simp [he]) (hs .started)
  case disarm before after he => exact absurd (by simp [he]) (hs .raised)

theorem issued (s : Step r u r₁) (h : r.Issued t) : r₁.Issued t := by
  unfold Issued at h ⊢
  cases s <;> simp [Switchboard.issue, Switchboard.put] <;> omega

end Step

-- Tokens that were not issued are not used.
structure Sound (r : Race) : Prop where
  family : ∀ t, (r.family t).Sound
  unissued : ∀ t, ¬r.Issued t → r.family t = {}

theorem sound_initial : Sound {} where
  family _ := Family.sound_silent 0
  unissued _ _ := rfl

namespace Sound

theorem issued_of_cancelled (h : r.Sound) (hc : (r.family t).switch.cancelled = true) :
    r.Issued t := by
  by_contra hi
  rw [h.unissued t hi] at hc
  contradiction

theorem step (h : r.Sound) (s : Step r u r₁) : r₁.Sound := by
  refine ⟨fun t => ?_, fun t hn => ?_⟩
  all_goals by_cases hu : u = t
  case pos =>
    subst hu
    by_cases hi : r.Issued u
    case pos => exact (h.family u).step (s.own hi)
    case neg => exact (s.first (h.unissued u hi)).2 ▸ Family.sound_silent 1
  case neg => exact s.other hu ▸ h.family t
  case pos =>
    subst hu
    by_cases hi : r.Issued u
    case pos => exact absurd (s.issued hi) hn
    case neg => exact absurd (s.first (h.unissued u hi)).1 hn
  case neg => exact (s.other hu).trans (h.unissued t (hn ∘ s.issued))

end Sound

namespace Reaches

theorem sound (h : Reaches r turns r₁) (hr : r.Sound) : r₁.Sound := by
  induction h with
  | refl => exact hr
  | tail _ s ih => exact ih.step s

theorem issued (h : Reaches r turns r₁) (hi : r.Issued t) : r₁.Issued t := by
  induction h with
  | refl => exact hi
  | tail _ s ih => exact s.issued ih

theorem cancelled (h : Reaches r turns r₁) (hr : r.Sound)
    (hc : (r.family t).switch.cancelled = true) : (r₁.family t).switch.cancelled = true := by
  induction h with
  | refl => exact hc
  | @tail _ _ _ u h s ih =>
    by_cases hu : u = t
    case pos =>
      subst hu
      exact (s.own ((h.sound hr).issued_of_cancelled ih)).cancelled ih
    case neg => exact s.other hu ▸ ih

theorem apart (h : Reaches r turns r₁) (ht : t ∉ turns) : r₁.family t = r.family t := by
  induction h with
  | refl => rfl
  | tail _ s ih =>
    simp only [List.mem_append, List.mem_singleton, not_or] at ht
    exact (s.other (Ne.symm ht.2)).trans (ih ht.1)

-- A family does by its own steps what it does among those of others, whoever these are.
theorem alone {a : Race} (h : Reaches r turns r₁) (hr : r.Issued t) (ha : a.Issued t)
    (e : a.family t = r.family t) :
    ∃ a₁, Reaches a (turns.filter (· = t)) a₁ ∧ a₁.family t = r₁.family t := by
  induction h with
  | refl => exact ⟨a, .refl, e⟩
  | @tail _ _ _ u h s ih =>
    have ⟨a₁, ha₁, e⟩ := ih
    by_cases hu : u = t
    case pos =>
      subst hu
      have ⟨a₂, s', e'⟩ := Step.among (ha₁.issued ha) (e ▸ s.own (h.issued hr))
      exact ⟨a₂, by simpa using ha₁.tail s', e'⟩
    case neg => exact ⟨a₁, by simpa [hu] using ha₁, by rw [e, s.other hu]⟩

-- A call that nobody gets in the way of.
theorem cancel (ht : t ∈ r.tokens) (hi : r.Issued t) :
    ∃ turns, Reaches r turns { r with
      board := (r.board.cancel t).2
      calls := r.calls ++ [⟨t, .returned (r.board.cancel t).1⟩] } := by
  have hr := (Reaches.refl.tail (.start ht)).tail (@Step.raise _ t r.calls [] rfl)
  cases hc : (r.board.state t).cancelled with
  | true =>
    refine ⟨[t, t], ?_⟩
    simpa [Switchboard.cancel, Switch.cancel, Switch.raise, Stage.afterRaise, hc] using hr
  | false =>
    refine ⟨[t, t, t], ?_⟩
    simp only [Switch.raise, hc, Bool.not_false, Stage.afterRaise, if_true] at hr
    have hd := hr.tail (.disarm rfl)
    simpa [Switchboard.cancel, Switch.cancel, Switch.raise, Switchboard.state_put _ hi,
      Switchboard.put_put, hc] using hd

end Reaches

-- Whatever is done with a rack is a race in which calls do not overlap.
theorem reaches_of_perform {k k₁ : Rack} {action : Rack.Action} {result : Rack.Result}
    (hi : ∀ t ∈ k.tokens, t.index < k.board.switches.length)
    (h : k.perform action = some (result, k₁)) (calls : List Cancelling) :
    ∃ turns further, Reaches ⟨k.board, k.tokens, calls⟩ turns
        ⟨k₁.board, k₁.tokens, calls ++ further⟩ ∧
      ∀ first, result = .first first → ∃ t ∈ k.tokens, further = [⟨t, .returned first⟩] := by
  cases action with
  | issue =>
    cases h
    refine ⟨[k.board.issue.1], [], ?_, nofun⟩
    rw [List.append_nil]
    exact Reaches.refl.tail .issue
  | clone place =>
    have ⟨t, ht, h⟩ := Option.bind_eq_some_iff.mp h
    cases h
    have ht := List.mem_of_getElem? ht
    refine ⟨[t], [], ?_, nofun⟩
    rw [List.append_nil]
    exact Reaches.refl.tail (.clone ht)
  | cancel place =>
    have ⟨t, ht, h⟩ := Option.bind_eq_some_iff.mp h
    cases h
    have ht := List.mem_of_getElem? ht
    have ⟨turns, hr⟩ := Reaches.cancel (r := ⟨k.board, k.tokens, calls⟩) ht (hi t ht)
    exact ⟨turns, _, hr, fun first hf => ⟨t, ht, by cases hf; rfl⟩⟩

-- However calls race for a token, one of them wins: at most one at any time, and exactly one when
-- all are over. The flag is up from the first step of any of them. Nobody wakes before it is, and
-- everybody does once the winner has returned. To other families nothing of this matters.
theorem cancellation_is_won_once (h : Reaches {} turns r) (t : Token) :
    r.calls.count ⟨t, .returned true⟩ ≤ 1 ∧
    ((∃ c ∈ r.calls, c.token = t) → (∀ c ∈ r.calls, c.token = t → c.stage.isOver = true) →
      r.calls.count ⟨t, .returned true⟩ = 1) ∧
    (r.board.isCancelled t = true ↔ ∃ c ∈ r.calls, c.token = t ∧ c.stage ≠ .started) ∧
    (t ∈ r.tokens → r.Disconnected t → r.board.isCancelled t = true) ∧
    (⟨t, .returned true⟩ ∈ r.calls → r.Disconnected t) ∧
    ∀ {further : List Token} {r₁ : Race}, Reaches r further r₁ →
      (r.board.isCancelled t = true → r₁.board.isCancelled t = true) ∧
      (t ∉ further → r₁.family t = r.family t) ∧
      (r.Issued t → ∀ a : Race, a.Issued t → a.family t = r.family t →
        ∃ a₁, Reaches a (further.filter (· = t)) a₁ ∧ a₁.family t = r₁.family t) := by
  have hr := h.sound sound_initial
  have hf := hr.family t
  refine ⟨?_, ?_, ?_, ?_, ?_, fun hs => ⟨?_, hs.apart, fun hi a ha => hs.alone hi ha⟩⟩
  · rw [← count_stages]
    exact hf.count_first_le
  · rintro ⟨⟨_, s⟩, hc, rfl⟩ ho
    rw [← count_stages]
    refine hf.count_first_eq (List.ne_nil_of_mem (mem_stages.mpr hc)) fun s hs => ?_
    exact ho _ (mem_stages.mp hs) rfl
  · exact hf.cancelled_iff.trans exists_mem_stages
  · rintro ht (ha | hn)
    · exact hf.cancelled_of_disarmed ha
    · exact absurd ht hn
  · exact fun hc => .inl (hf.disarmed_iff.mpr (mem_stages.mpr hc))
  · exact hs.cancelled hr

-- Of two calls the one that was started last comes first.
theorem cancellation_is_won_once_overtaken :
    ∃ turns r, Reaches {} turns r ∧ r.tokens = [⟨0⟩, ⟨0⟩, ⟨1⟩] ∧
      r.calls = [⟨⟨0⟩, .returned false⟩, ⟨⟨0⟩, .returned true⟩] ∧
      r.calls.count ⟨⟨0⟩, .returned true⟩ = 1 ∧
      r.board.isCancelled ⟨0⟩ = true ∧ r.Disconnected ⟨0⟩ ∧ r.board.isCancelled ⟨1⟩ = false := by
  have hi := Reaches.refl.tail (.issue (r := {}))
  have hc := (hi.tail (.clone (t := ⟨0⟩) (by decide))).tail .issue
  have hs := (hc.tail (.start (t := ⟨0⟩) (by decide))).tail (.start (t := ⟨0⟩) (by decide))
  have hw := hs.tail (@Step.raise _ ⟨0⟩ [⟨⟨0⟩, .started⟩] [] rfl)
  have hl := hw.tail (@Step.raise _ ⟨0⟩ [] [⟨⟨0⟩, .raised⟩] rfl)
  have h : Reaches {} _ ⟨⟨[⟨true, false⟩, {}]⟩, [⟨0⟩, ⟨0⟩, ⟨1⟩],
      [⟨⟨0⟩, .returned false⟩, ⟨⟨0⟩, .returned true⟩]⟩ :=
    hl.tail (@Step.disarm _ ⟨0⟩ [⟨⟨0⟩, .returned false⟩] [] rfl)
  have ⟨_, hw, hc, _, hd, _⟩ := cancellation_is_won_once h ⟨0⟩
  refine ⟨_, _, h, rfl, rfl, hw ?_ ?_, hc.mpr ?_, hd ?_, rfl⟩
  all_goals decide

end Race

end ResourceQuery.Enumeration
