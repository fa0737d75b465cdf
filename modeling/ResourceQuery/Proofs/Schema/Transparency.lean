import Mathlib.Data.List.Forall2
import ResourceQuery.Schema.Consultation

namespace ResourceQuery

-- Answers from elsewhere make no difference as long as they are those of the schema.
theorem Inquiry.answerWith_of_invariant {α σ : Type} {schema : Schema} {p : σ → Prop}
    {describe? : String → σ → Option Attribute × σ} {hasType? : String → σ → Bool × σ} {s : σ}
    (hd : ∀ name s, p s → (describe? name s).1 = schema.attribute? name ∧ p (describe? name s).2)
    (ht : ∀ name s, p s → (hasType? name s).1 = schema.hasObjectType name ∧ p (hasType? name s).2)
    (i : Inquiry α) (h : p s) :
    (i.answerWith describe? hasType? s).1 = i.answer schema ∧
      p (i.answerWith describe? hasType? s).2 := by
  induction i generalizing s with
  | done | refuse => exact ⟨rfl, h⟩
  | describe name next ih =>
    have ⟨ha, hs⟩ := hd name s h
    simp only [answerWith, answer, ← ha]
    exact ih _ hs
  | hasType name next ih =>
    have ⟨ha, hs⟩ := ht name s h
    simp only [answerWith, answer, ← ha]
    exact ih _ hs

namespace Recent

variable {α : Type} {r : Recent α} {key : String} {value : α}

theorem mem_of_find? (h : r.find? key = some value) : (key, value) ∈ r.entries := by
  have ⟨before, after, he, _⟩ := List.lookup_eq_some_iff.mp h
  simp [he]

theorem mem_of_mem_erase {entry : String × α} (h : entry ∈ (r.erase key).entries) :
    entry ∈ r.entries :=
  List.mem_of_mem_filter h

theorem mem_of_mem_insert {entry : String × α} (h : entry ∈ (r.insert key value).entries) :
    entry = (key, value) ∨ entry ∈ r.entries :=
  List.mem_cons.mp (List.mem_of_mem_take h) |>.imp_right mem_of_mem_erase

theorem find?_insert (h : 0 < r.capacity) : (r.insert key value).find? key = some value := by
  simp [insert, find?, List.take_cons h]

theorem find?_touch (h : 0 < r.capacity) (hf : r.find? key = some value) :
    (r.touch key).find? key = some value := by
  rw [touch, hf]
  exact find?_insert h

end Recent

namespace Cache

-- What is kept under a name is what the schema tells of this name, and something can be kept.
structure Faithful {α : Type} (tell : String → α) (kept : Recent (Entry α)) : Prop where
  tells : ∀ name entry, (name, entry) ∈ kept.entries → entry.answer = tell name
  room : 0 < kept.capacity

namespace Faithful

variable {α : Type} {tell : String → α} {kept : Recent (Entry α)} {name : String}

theorem empty (capacity : Nat) : Faithful tell (.empty capacity) :=
  ⟨nofun, Nat.le_max_right capacity 1⟩

theorem clear (h : Faithful tell kept) : Faithful tell kept.clear :=
  ⟨nofun, h.room⟩

theorem erase (h : Faithful tell kept) : Faithful tell (kept.erase name) :=
  ⟨fun _ _ hm => h.tells _ _ (Recent.mem_of_mem_erase hm), h.room⟩

theorem insert {entry : Entry α} (h : Faithful tell kept) (he : entry.answer = tell name) :
    Faithful tell (kept.insert name entry) := by
  refine ⟨fun _ _ hm => ?_, h.room⟩
  obtain hm | hm := Recent.mem_of_mem_insert hm
  case inl => cases hm; exact he
  case inr => exact h.tells _ _ hm

theorem answer_eq {entry : Entry α} (h : Faithful tell kept) (hf : kept.find? name = some entry) :
    entry.answer = tell name :=
  h.tells _ _ (Recent.mem_of_find? hf)

theorem touch (h : Faithful tell kept) : Faithful tell (kept.touch name) := by
  rw [Recent.touch]
  split
  case h_1 => exact h
  case h_2 hf => exact h.insert (h.answer_eq hf)

-- An answer from the map is the schema's, and what is left of the map is kept rightly.
theorem remembered? {lifetime : Option Nat} {now : Nat} {answer? : Option α}
    {rest : Recent (Entry α)} (h : Faithful tell kept)
    (hr : Cache.remembered? kept lifetime now name = (answer?, rest)) :
    (∀ answer ∈ answer?, answer = tell name) ∧ Faithful tell rest := by
  rw [Cache.remembered?] at hr
  split at hr
  case h_1 =>
    cases hr
    exact ⟨nofun, h⟩
  case h_2 hf =>
    split at hr
    case isTrue =>
      cases hr
      exact ⟨nofun, h.erase⟩
    case isFalse =>
      cases hr
      exact ⟨fun _ ha => Option.some.inj ha ▸ h.answer_eq hf, h.touch⟩

-- An answer from the map remains there.
theorem find?_of_remembered? {lifetime : Option Nat} {now : Nat} {answer : α}
    {rest : Recent (Entry α)} (h : Faithful tell kept)
    (hr : Cache.remembered? kept lifetime now name = (some answer, rest)) :
    ∃ entry, rest.find? name = some entry := by
  rw [Cache.remembered?] at hr
  split at hr
  case h_1 => cases hr
  case h_2 entry hf =>
    split at hr <;> cases hr
    exact ⟨entry, Recent.find?_touch h.room hf⟩

end Faithful

theorem remembered?_of_find? {α : Type} {kept : Recent (Entry α)} {name : String}
    {entry : Entry α} (hf : kept.find? name = some entry) (now : Nat) :
    remembered? kept none now name = (some entry.answer, kept.touch name) := by
  simp [remembered?, hf, Entry.isExpired]

-- What is kept does not have to be asked for again, as long as answers do not expire.
theorem forwarded_lookup {kind : Schema.Kind} {schema : Schema} {clock : Clock} {name : String}
    {c : Cache} {entry : Entry kind.Answer} (hf : (c.kept kind).find? name = some entry)
    (hl : c.lifetime = none) : (c.lookup kind schema clock name).2.forwarded = c.forwarded := by
  rw [lookup, hl, remembered?_of_find? hf]
  exact forwarded_keep

-- Each of the maps keeps what the schema tells.
structure Reflects (schema : Schema) (config : Config) (c : Cache) : Prop where
  faithful : ∀ kind, Faithful (schema.tell kind) (c.kept kind)
  lifetime : c.lifetime = config.lifetime

-- A cache is cleared, or something is found out through it.
inductive Use : Type 1
  | clear
  | ask {α : Type} (i : Inquiry α)

def Use.perform (schema : Schema) (clock : Clock) (c : Cache) : Use → Cache
  | clear => c.clear
  | ask i => (i.answerCached schema clock c).2

-- A cache after some uses, in the order in which they take place.
def after (schema : Schema) (clock : Clock) (uses : List Use) (c : Cache) : Cache :=
  uses.foldl (Use.perform schema clock) c

namespace Reflects

variable {schema : Schema} {config : Config} {c : Cache}

theorem empty (schema : Schema) (config : Config) :
    (Cache.empty config).Reflects schema config where
  faithful kind := by cases kind <;> exact .empty _
  lifetime := rfl

theorem clear (h : c.Reflects schema config) : c.clear.Reflects schema config where
  faithful kind := kept_clear ▸ (h.faithful kind).clear
  lifetime := h.lifetime

theorem hit (h : c.Reflects schema config) : c.hit.Reflects schema config :=
  ⟨fun kind => kept_hit ▸ h.faithful kind, h.lifetime⟩

theorem miss (h : c.Reflects schema config) (request : Schema.Request) :
    (c.miss request).Reflects schema config :=
  ⟨fun kind => kept_miss request ▸ h.faithful kind, h.lifetime⟩

theorem keep {kind : Schema.Kind} {kept : Recent (Entry kind.Answer)}
    (h : c.Reflects schema config) (hk : Faithful (schema.tell kind) kept) :
    (c.keep kind kept).Reflects schema config where
  faithful other := by
    by_cases ho : other = kind
    case pos =>
      subst ho
      rwa [kept_keep]
    case neg =>
      rw [kept_keep_of_ne ho]
      exact h.faithful other
  lifetime := lifetime_keep.trans h.lifetime

theorem lookup (h : c.Reflects schema config) (kind : Schema.Kind) (clock : Clock)
    (name : String) :
    (c.lookup kind schema clock name).1 = schema.tell kind name ∧
      (c.lookup kind schema clock name).2.Reflects schema config := by
  rw [Cache.lookup]
  split
  case h_1 hr =>
    have ⟨ha, hk⟩ := (h.faithful kind).remembered? hr
    exact ⟨ha _ rfl, h.hit.keep hk⟩
  case h_2 hr =>
    have ⟨_, hk⟩ := (h.faithful kind).remembered? hr
    exact ⟨rfl, (h.miss _).keep (hk.insert rfl)⟩

theorem answerCached {α : Type} (h : c.Reflects schema config) (clock : Clock) (i : Inquiry α) :
    (i.answerCached schema clock c).1 = i.answer schema ∧
      (i.answerCached schema clock c).2.Reflects schema config :=
  i.answerWith_of_invariant (fun name _ h => h.lookup .attribute clock name)
    (fun name _ h => h.lookup .objectType clock name) h

theorem perform (h : c.Reflects schema config) (clock : Clock) (use : Use) :
    (use.perform schema clock c).Reflects schema config := by
  cases use
  case clear => exact h.clear
  case ask i => exact (h.answerCached clock i).right

theorem after (h : c.Reflects schema config) (clock : Clock) (uses : List Use) :
    (c.after schema clock uses).Reflects schema config := by
  induction uses generalizing c with
  | nil => exact h
  | cons use uses ih => exact ih (h.perform clock use)

-- The latest answer is kept.
theorem find?_lookup (h : c.Reflects schema config) (kind : Schema.Kind) (clock : Clock)
    (name : String) :
    ∃ entry, ((c.lookup kind schema clock name).2.kept kind).find? name = some entry := by
  rw [Cache.lookup]
  split
  case h_1 hr =>
    rw [kept_keep]
    exact (h.faithful kind).find?_of_remembered? hr
  case h_2 hr =>
    rw [kept_keep]
    exact ⟨_, Recent.find?_insert ((h.faithful kind).remembered? hr).right.room⟩

theorem forwarded_lookup_again (h : c.Reflects schema config) (hl : config.lifetime = none)
    (kind : Schema.Kind) (clock : Clock) (name : String) :
    let told := (c.lookup kind schema clock name).2
    (told.lookup kind schema clock name).2.forwarded = told.forwarded := by
  have ⟨_, hf⟩ := h.find?_lookup kind clock name
  exact forwarded_lookup hf ((h.lookup kind clock name).right.lifetime.trans hl)

end Reflects

-- After any uses, a cache answers like the schema, and whatever is built or asked has the outcome
-- that it has with the schema itself. All the same the cache spares the schema a question that was
-- just asked, unless answers expire.
theorem answers_after_eq (schema : Schema) (clock : Clock) (config : Config) (uses : List Use) :
    let c := after schema clock uses (.empty config)
    (∀ name, (c.describe schema clock name).1 = schema.attribute? name) ∧
    (∀ name, (c.hasType schema clock name).1 = schema.hasObjectType name) ∧
    (∀ {α : Type} (i : Inquiry α), (i.answerCached schema clock c).1 = i.answer schema) ∧
    (config.lifetime = none → ∀ name,
      let described := (c.describe schema clock name).2
      let told := (c.hasType schema clock name).2
      (described.describe schema clock name).2.forwarded = described.forwarded ∧
        (told.hasType schema clock name).2.forwarded = told.forwarded) := by
  intro c
  have h : c.Reflects schema config := (Reflects.empty schema config).after clock uses
  refine ⟨fun name => (h.lookup .attribute clock name).left,
    fun name => (h.lookup .objectType clock name).left, fun i => (h.answerCached clock i).left,
    fun hl name => ?_⟩
  exact ⟨h.forwarded_lookup_again hl .attribute clock name,
    h.forwarded_lookup_again hl .objectType clock name⟩

-- A cache for one answer has given up the first one when asked again, and has the same answer.
example :
    let schema := Catalog.toSchema { attributes := [⟨"age", .integer, false⟩] }
    let ask name := Use.ask (Inquiry.describeAttribute name)
    let c := after schema id [ask "age", ask "boss"] (.empty { capacity := 0 })
    c.attributes.keys = ["boss"] ∧
      (c.describe schema id "age").1 = some ⟨"age", .integer, false⟩ :=
  ⟨rfl, rfl⟩

end Cache

namespace Consultation

variable {catalog : Catalog} {config : Cache.Config} {c : Cache}

-- A reply to a question is the outcome with the catalog itself.
def Step.Tells (catalog : Catalog) (step : Step) (reply : Reply) : Prop :=
  ∀ question, step = .ask question → reply.finding = question.inquiry.answer catalog.toSchema

theorem Step.reflects_cached (h : c.Reflects catalog.toSchema config) (now : Nat)
    (step : Step) : (step.cached catalog now c).2.Reflects catalog.toSchema config := by
  cases step
  case ask question => exact (h.answerCached _ question.inquiry).right
  case inspect inspection =>
    cases inspection
    case clear => exact h.clear
    case statistics | listing | catalogSize => exact h

theorem runCached_tells (h : c.Reflects catalog.toSchema config) (now : Nat)
    (steps : List Step) :
    List.Forall₂ (Step.Tells catalog) steps (runCached catalog now c steps) := by
  induction steps generalizing now c with
  | nil => exact .nil
  | cons step steps ih =>
    refine .cons ?_ (ih (step.reflects_cached h now) (now + 1))
    intro question hq
    subst hq
    exact (h.answerCached _ question.inquiry).left

-- With a cache or without one, each question of a consultation has the same finding.
theorem run_tells (catalog : Catalog) (config : Option Cache.Config) (steps : List Step) :
    List.Forall₂ (Step.Tells catalog) steps (run catalog config steps) := by
  cases config
  case some config => exact runCached_tells (.empty _ config) 1 steps
  case none =>
    refine List.forall₂_map_right_iff.mpr (List.forall₂_same.mpr ?_)
    intro _ _ question hq
    subst hq
    exact Inquiry.answerRecorded_fst _ _ _

end Consultation

end ResourceQuery
