import Mathlib.Data.Finset.Card
import Mathlib.Data.List.DropRight
import ResourceQuery.Proofs.Schema.Transparency

namespace ResourceQuery

namespace Recency

-- Each name once, the latest first.
def latestFirst (names : List String) : List String :=
  names.foldl (fun latest name => name :: latest.filter (· != name)) []

-- Less than so many other names were used since the latest use of a name.
def IsRecent (capacity : Nat) (name : String) (names : List String) : Prop :=
  ∃ earlier later, names = earlier ++ name :: later ∧ name ∉ later ∧
    later.toFinset.card < capacity

variable {name : String} {names earlier later : List String}

theorem latestFirst_concat (names : List String) (name : String) :
    latestFirst (names ++ [name]) = name :: (latestFirst names).filter (· != name) := by
  simp [latestFirst]

theorem mem_latestFirst_iff : name ∈ latestFirst names ↔ name ∈ names := by
  induction names using List.reverseRecOn with
  | nil => simp [latestFirst]
  | append_singleton names last ih =>
    by_cases hn : name = last <;> simp [latestFirst_concat, ih, hn]

theorem nodup_latestFirst (names : List String) : (latestFirst names).Nodup := by
  induction names using List.reverseRecOn with
  | nil => exact List.nodup_nil
  | append_singleton names last ih =>
    rw [latestFirst_concat, List.nodup_cons]
    exact ⟨by simp, ih.filter _⟩

theorem length_latestFirst (names : List String) :
    (latestFirst names).length = names.toFinset.card := by
  rw [← List.toFinset_card_of_nodup (nodup_latestFirst names)]
  congr 1
  ext name
  simp [mem_latestFirst_iff]

-- Only what was used since then comes before a name.
theorem exists_latestFirst_eq (earlier : List String) (h : name ∉ later) :
    ∃ rest, latestFirst (earlier ++ name :: later) = latestFirst later ++ name :: rest := by
  induction later using List.reverseRecOn with
  | nil => exact ⟨_, latestFirst_concat earlier name⟩
  | append_singleton later last ih =>
    simp only [List.mem_append, List.mem_singleton, not_or] at h
    have ⟨hlater, hlast⟩ := h
    have ⟨rest, hrest⟩ := ih hlater
    have happend : earlier ++ name :: (later ++ [last]) = earlier ++ name :: later ++ [last] := by
      simp
    refine ⟨rest.filter (· != last), ?_⟩
    rw [happend, latestFirst_concat, latestFirst_concat, hrest]
    simp [hlast]

theorem exists_latest_of_mem (h : name ∈ names) :
    ∃ earlier later, names = earlier ++ name :: later ∧ name ∉ later := by
  have ⟨before, after, hr, hn⟩ := List.eq_append_cons_of_mem (List.mem_reverse.mpr h)
  refine ⟨after.reverse, before.reverse, ?_, by simpa using hn⟩
  rw [← names.reverse_reverse, hr]
  simp

theorem mem_take_latestFirst_iff (h : name ∉ later) (capacity : Nat) :
    name ∈ (latestFirst (earlier ++ name :: later)).take capacity ↔
      later.toFinset.card < capacity := by
  have ⟨rest, hrest⟩ := exists_latestFirst_eq earlier h
  have hn : name ∉ (latestFirst later).take capacity :=
    fun hm => h (mem_latestFirst_iff.mp (List.mem_of_mem_take hm))
  rw [hrest, ← length_latestFirst, List.take_append, List.mem_append]
  cases hd : capacity - (latestFirst later).length with
  | zero => simp only [hn, List.take_zero, List.not_mem_nil, or_self, false_iff]; omega
  | succ n => simp; omega

theorem mem_take_latestFirst_iff_isRecent {capacity : Nat} :
    name ∈ (latestFirst names).take capacity ↔ IsRecent capacity name names := by
  constructor
  case mp =>
    intro h
    obtain ⟨earlier, later, rfl, hn⟩ :=
      exists_latest_of_mem (mem_latestFirst_iff.mp (List.mem_of_mem_take h))
    exact ⟨earlier, later, rfl, hn, (mem_take_latestFirst_iff hn capacity).mp h⟩
  case mpr =>
    rintro ⟨earlier, later, rfl, hn, hc⟩
    exact (mem_take_latestFirst_iff hn capacity).mpr hc

-- One name less leaves room for the name that comes after the first ones.
theorem take_filter_take {latest : List String} (h : latest.Nodup) (name : String) (n : Nat) :
    ((latest.take (n + 1)).filter (· != name)).take n = (latest.filter (· != name)).take n := by
  induction latest generalizing n with
  | nil => simp
  | cons first latest ih =>
    have ⟨hfirst, hlatest⟩ := List.nodup_cons.mp h
    by_cases hn : first = name
    case pos =>
      subst hn
      have hkept {others : List String} (ho : first ∉ others) :
          others.filter (· != first) = others :=
        List.filter_eq_self.mpr fun other hm => by simpa using ne_of_mem_of_not_mem hm ho
      have htaken : first ∉ latest.take n := fun hm => hfirst (List.mem_of_mem_take hm)
      simp [hkept hfirst, hkept htaken]
    case neg =>
      cases n with
      | zero => simp
      | succ n => simp [hn, ih hlatest]

end Recency

namespace Recent

open Recency

variable {α : Type} {r : Recent α} {capacity : Nat} {name : String} {names : List String}

theorem keys_insert (r : Recent α) (name : String) (value : α) :
    (r.insert name value).keys = (name :: r.keys.filter (· != name)).take r.capacity := by
  simp [insert, erase, keys, List.map_take, List.filter_map, Function.comp_def]

theorem find?_eq_none_iff : r.find? name = none ↔ name ∉ r.keys := by
  simp only [find?, keys, List.lookup_eq_none_iff, List.mem_map, bne_iff_ne]
  constructor
  case mp =>
    rintro h ⟨entry, hm, he⟩
    exact h entry hm he.symm
  case mpr => exact fun h entry hm he => h ⟨entry, hm, he.symm⟩

-- Of the names that were put into a map, the latest are kept, as many as have room.
structure Keeps (capacity : Nat) (names : List String) (r : Recent α) : Prop where
  capacity_eq : r.capacity = capacity
  keys_eq : r.keys = (latestFirst names).take capacity

namespace Keeps

theorem empty (capacity : Nat) : (Recent.empty capacity : Recent α).Keeps (max capacity 1) [] :=
  ⟨rfl, by simp [Recent.empty, keys, latestFirst]⟩

theorem clear (h : r.Keeps capacity names) : r.clear.Keeps capacity [] :=
  ⟨h.capacity_eq, by simp [Recent.clear, keys, latestFirst]⟩

theorem insert (h : r.Keeps capacity names) (name : String) (value : α) :
    (r.insert name value).Keeps capacity (names ++ [name]) := by
  refine ⟨h.capacity_eq, ?_⟩
  rw [keys_insert, h.capacity_eq, h.keys_eq, latestFirst_concat]
  cases capacity with
  | zero => simp
  | succ n => simp [take_filter_take (nodup_latestFirst names)]

theorem touch {value : α} (h : r.Keeps capacity names) (hf : r.find? name = some value) :
    (r.touch name).Keeps capacity (names ++ [name]) := by
  rw [Recent.touch, hf]
  exact h.insert name value

theorem mem_keys_iff (h : r.Keeps capacity names) :
    name ∈ r.keys ↔ IsRecent capacity name names := by
  rw [h.keys_eq, mem_take_latestFirst_iff_isRecent]

theorem size_eq (h : r.Keeps capacity names) : r.size = min capacity names.toFinset.card := by
  rw [← length_latestFirst, ← List.length_take, ← h.keys_eq, keys, List.length_map, size]

end Keeps

end Recent

namespace Cache

open Recency

-- What is done with a cache: a name is looked up, or the cache is cleared.
inductive Access
  | lookup (kind : Schema.Kind) (name : String)
  | clear
  deriving DecidableEq

namespace Access

def isLookup : Access → Bool
  | lookup _ _ => true
  | clear => false

def name? (kind : Schema.Kind) : Access → Option String
  | lookup other name => if other = kind then some name else none
  | clear => none

def perform (schema : Schema) (clock : Clock) (c : Cache) : Access → Cache
  | lookup kind name => (c.lookup kind schema clock name).2
  | clear => c.clear

end Access

def sinceClear (history : List Access) : List Access :=
  history.rtakeWhile (· != .clear)

-- The names of one kind that were looked up since the cache was cleared, in order.
def names (kind : Schema.Kind) (history : List Access) : List String :=
  (sinceClear history).filterMap (Access.name? kind)

def attributeNames (history : List Access) : List String :=
  names .attribute history

def objectTypeNames (history : List Access) : List String :=
  names .objectType history

-- A new cache without a lifetime after some accesses.
def accessed (schema : Schema) (clock : Clock) (capacity : Nat) (history : List Access) : Cache :=
  history.foldl (Access.perform schema clock) (.empty { capacity })

section Names

variable (kind : Schema.Kind) (name : String) (history : List Access)

@[simp]
theorem names_clear : names kind (history ++ [.clear]) = [] := by
  simp [names, sinceClear]

@[simp]
theorem names_lookup :
    names kind (history ++ [.lookup kind name]) = names kind history ++ [name] := by
  simp [names, sinceClear, Access.name?]

theorem names_lookup_of_ne {other : Schema.Kind} (h : other ≠ kind) :
    names other (history ++ [.lookup kind name]) = names other history := by
  simp [names, sinceClear, Access.name?, h.symm]

end Names

-- A cache after so many accesses.
structure Follows (capacity : Nat) (history : List Access) (c : Cache) : Prop where
  keeps : ∀ kind, (c.kept kind).Keeps capacity (names kind history)
  lifetime_eq : c.lifetime = none
  misses_eq : c.misses = c.forwarded.length
  lookups_eq : c.lookups = history.countP Access.isLookup

-- A name that is recent enough is remembered, and is the latest from then on.
theorem remembered?_of_keeps {α : Type} {kept rest : Recent (Entry α)} {answer? : Option α}
    {capacity now : Nat} {name : String} {names : List String} (h : kept.Keeps capacity names)
    (hr : remembered? kept none now name = (answer?, rest)) :
    IsRecent capacity name names ∧ (∃ answer, answer? = some answer) ∧
      rest.Keeps capacity (names ++ [name]) ∨
    ¬IsRecent capacity name names ∧ answer? = none ∧ rest = kept := by
  rw [← h.mem_keys_iff]
  cases hf : kept.find? name with
  | none =>
    simp only [remembered?, hf, Prod.mk.injEq] at hr
    exact .inr ⟨Recent.find?_eq_none_iff.mp hf, hr.left.symm, hr.right.symm⟩
  | some entry =>
    simp only [remembered?_of_find? hf, Prod.mk.injEq] at hr
    have hm : name ∈ kept.keys := List.mem_map_of_mem (Recent.mem_of_find? hf)
    exact .inl ⟨hm, ⟨_, hr.left.symm⟩, hr.right ▸ h.touch hf⟩

namespace Follows

variable {c : Cache} {capacity : Nat} {history : List Access}

theorem empty (capacity : Nat) : (Cache.empty { capacity }).Follows (max capacity 1) [] where
  keeps kind := by cases kind <;> exact .empty capacity
  lifetime_eq := rfl
  misses_eq := rfl
  lookups_eq := rfl

theorem clear (h : c.Follows capacity history) :
    c.clear.Follows capacity (history ++ [.clear]) where
  keeps kind := by
    rw [kept_clear, names_clear]
    exact (h.keeps kind).clear
  lifetime_eq := h.lifetime_eq
  misses_eq := h.misses_eq
  lookups_eq := h.lookups_eq.trans (by simp [Access.isLookup])

variable (schema : Schema) (clock : Clock) (kind : Schema.Kind) (name : String)

-- The name that was looked up is the latest of its kind, and all other names are as before.
theorem keep {kept : Recent (Entry kind.Answer)} (h : c.Follows capacity history) {after : Cache}
    (ha : ∀ other, after.kept other = c.kept other) (hl : after.lifetime = c.lifetime)
    (hk : kept.Keeps capacity (names kind history ++ [name]))
    (hm : after.misses = after.forwarded.length) (hu : after.lookups = c.lookups + 1) :
    (after.keep kind kept).Follows capacity (history ++ [.lookup kind name]) where
  keeps other := by
    by_cases ho : other = kind
    case pos =>
      subst ho
      simpa using hk
    case neg =>
      rw [kept_keep_of_ne ho, ha, names_lookup_of_ne _ _ _ ho]
      exact h.keeps other
  lifetime_eq := by rw [lifetime_keep, hl, h.lifetime_eq]
  misses_eq := by simpa using hm
  lookups_eq := by
    have hk : (after.keep kind kept).lookups = after.lookups := by simp [lookups]
    simp [hk, hu, h.lookups_eq, Access.isLookup]

-- A lookup is answered by the cache itself if the name is recent enough among those of its kind.
theorem lookup (h : c.Follows capacity history) :
    (c.lookup kind schema clock name).2.Follows capacity (history ++ [.lookup kind name]) ∧
    ((c.lookup kind schema clock name).2.forwarded = c.forwarded ↔
      IsRecent capacity name (names kind history)) := by
  rw [Cache.lookup, h.lifetime_eq]
  cases hr : remembered? (c.kept kind) none (clock (2 * c.lookups)) name with | mk answer? rest =>
  rcases remembered?_of_keeps (h.keeps kind) hr with
    ⟨hrecent, ⟨answer, rfl⟩, hkeeps⟩ | ⟨hold, rfl, rfl⟩
  case inl =>
    refine ⟨h.keep kind name (fun _ => kept_hit) rfl hkeeps h.misses_eq ?_, by simp [hit, hrecent]⟩
    exact Nat.add_right_comm _ _ _
  case inr =>
    refine ⟨h.keep kind name (fun _ => kept_miss _) rfl ((h.keeps kind).insert name _) ?_ rfl, ?_⟩
    · simp [miss, h.misses_eq]
    · simp [miss, hold]

theorem perform (h : c.Follows capacity history) (access : Access) :
    (access.perform schema clock c).Follows capacity (history ++ [access]) := by
  cases access with
  | clear => exact h.clear
  | lookup kind name => exact (h.lookup schema clock kind name).left

end Follows

theorem follows_accessed (schema : Schema) (clock : Clock) (capacity : Nat)
    (history : List Access) :
    (accessed schema clock capacity history).Follows (max capacity 1) history := by
  induction history using List.reverseRecOn with
  | nil => exact .empty capacity
  | append_singleton history access ih =>
    rw [accessed, List.foldl_concat]
    exact ih.perform schema clock access

theorem kept_lookup_of_ne {kind other : Schema.Kind} (h : other ≠ kind) (schema : Schema)
    (clock : Clock) (name : String) (c : Cache) :
    (c.lookup kind schema clock name).2.kept other = c.kept other := by
  rw [lookup]
  split <;> simp [kept_keep_of_ne h]

end Cache

namespace Consultation

-- Derived questions whose name is refused, and the wildcard.
def Question.IsIdle : Question → Prop
  | attributeType name | isMultivalued name | validateAttribute name | resolveAttribute name =>
    Name.fault? name ≠ none
  | validateObjectType name => Name.objectTypeFault? name ≠ none ∨ name = anyObjectType
  | describeAttribute _ | hasObjectType _ | express _ => False

theorem resolveAttribute_of_fault {name : String} (h : Name.fault? name ≠ none) :
    ∃ error, Inquiry.resolveAttribute name = .refuse error := by
  have ⟨fault, hf⟩ := Option.ne_none_iff_exists'.mp h
  refine ⟨.invalidName name fault, ?_⟩
  rw [Inquiry.resolveAttribute, Name.check, hf]
  rfl

theorem validateObjectType_of_fault {name : String} (h : Name.objectTypeFault? name ≠ none) :
    ∃ error, Inquiry.validateObjectType name = .refuse error := by
  have ⟨fault, hf⟩ := Option.ne_none_iff_exists'.mp h
  refine ⟨.invalidName name fault, ?_⟩
  rw [Inquiry.validateObjectType, Name.checkObjectType, hf]
  rfl

theorem Question.inquiry_of_isIdle {question : Question} (h : question.IsIdle) :
    (∃ finding, question.inquiry = .done finding) ∨ ∃ error, question.inquiry = .refuse error := by
  cases question with
  | attributeType name =>
    have ⟨error, hr⟩ := resolveAttribute_of_fault h
    exact .inr ⟨error, by rw [inquiry, Inquiry.attributeType, hr]; rfl⟩
  | isMultivalued name =>
    have ⟨error, hr⟩ := resolveAttribute_of_fault h
    exact .inr ⟨error, by rw [inquiry, Inquiry.isMultivalued, hr]; rfl⟩
  | validateAttribute name =>
    have ⟨error, hr⟩ := resolveAttribute_of_fault h
    exact .inr ⟨error, by rw [inquiry, Inquiry.validateAttribute, hr]; rfl⟩
  | resolveAttribute name =>
    have ⟨error, hr⟩ := resolveAttribute_of_fault h
    exact .inr ⟨error, by rw [inquiry, hr]; rfl⟩
  | validateObjectType name =>
    rcases h with h | rfl
    · have ⟨error, hr⟩ := validateObjectType_of_fault h
      exact .inr ⟨error, by rw [inquiry, hr]; rfl⟩
    · exact .inl ⟨.valid, rfl⟩
  | describeAttribute | hasObjectType | express => cases h

theorem Question.answerCached_of_isIdle {question : Question} (h : question.IsIdle)
    (schema : Schema) (clock : Clock) (c : Cache) :
    (question.inquiry.answerCached schema clock c).2 = c := by
  rcases inquiry_of_isIdle h with ⟨finding, hq⟩ | ⟨error, hq⟩
  · rw [hq]; rfl
  · rw [hq]; rfl

end Consultation

namespace Cache

open Recency

-- A new cache without a lifetime, after any accesses. A lookup does not reach the schema if and
-- only if its name was looked up since the cache was cleared, and since then less other names than
-- the cache has room for; what the other map keeps makes no difference. Lookups that reach the
-- schema are misses, and all others hits. Each map holds the names that were looked up, as many as
-- have room. Questions that need no lookup leave the cache as it is.
theorem hits_by_recency (schema : Schema) (clock : Clock) (capacity : Nat)
    (history : List Access) :
    let c := accessed schema clock capacity history
    let room := max capacity 1
    (∀ name, ((c.describe schema clock name).2.forwarded = c.forwarded ↔
        IsRecent room name (attributeNames history)) ∧
      (c.describe schema clock name).2.objectTypes = c.objectTypes) ∧
    (∀ name, ((c.hasType schema clock name).2.forwarded = c.forwarded ↔
        IsRecent room name (objectTypeNames history)) ∧
      (c.hasType schema clock name).2.attributes = c.attributes) ∧
    c.misses = c.forwarded.length ∧
    c.hits + c.misses = history.countP Access.isLookup ∧
    (c.clear.hits = c.hits ∧ c.clear.misses = c.misses) ∧
    c.attributes.size = min room (attributeNames history).toFinset.card ∧
    c.objectTypes.size = min room (objectTypeNames history).toFinset.card ∧
    ∀ question : Consultation.Question, question.IsIdle →
      (question.inquiry.answerCached schema clock c).2 = c := by
  intro c room
  have h : c.Follows room history := follows_accessed schema clock capacity history
  refine ⟨fun name => ⟨(h.lookup schema clock .attribute name).right, ?_⟩,
    fun name => ⟨(h.lookup schema clock .objectType name).right, ?_⟩, h.misses_eq, h.lookups_eq,
    ⟨rfl, rfl⟩, (h.keeps .attribute).size_eq, (h.keeps .objectType).size_eq, fun question hq => ?_⟩
  · exact kept_lookup_of_ne (by decide : Schema.Kind.objectType ≠ .attribute) schema clock name c
  · exact kept_lookup_of_ne (by decide : Schema.Kind.attribute ≠ .objectType) schema clock name c
  · exact Consultation.Question.answerCached_of_isIdle hq schema clock c

-- With room for two names, the third one takes the place of the one that was used before the other.
example :
    let history := ["age", "boss", "age", "rank"].map (Access.lookup .attribute ·)
    let c := accessed ⟨fun _ => none, fun _ => false⟩ id 2 history
    c.attributes.keys = ["rank", "age"] ∧ c.statistics = ⟨1, 3, 2, 0⟩ := by
  decide

end Cache

end ResourceQuery
