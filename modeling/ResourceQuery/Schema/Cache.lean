import ResourceQuery.Schema.Inquiry
import ResourceQuery.Schema.Recent
import ResourceQuery.Text.Decimal
import ResourceQuery.Text.Listing

namespace ResourceQuery

-- The time in milliseconds at each reading. A lookup reads the clock once to judge the age of an
-- answer, and once to date a new one.
abbrev Clock := Nat → Nat

namespace Cache

def defaultCapacity : Nat := 1024

structure Entry (α : Type) where
  answer : α
  storedAt : Nat

-- Answers without a lifetime never expire.
def Entry.isExpired {α : Type} (e : Entry α) (lifetime : Option Nat) (now : Nat) : Bool :=
  match lifetime with
  | none => false
  | some lifetime => now - e.storedAt > lifetime

structure Config where
  capacity : Nat := defaultCapacity
  lifetime : Option Nat := none

end Cache

open Cache

-- `forwarded` are the requests that reached the schema.
structure Cache where
  attributes : Recent (Entry (Option Attribute))
  objectTypes : Recent (Entry Bool)
  lifetime : Option Nat
  hits : Nat := 0
  misses : Nat := 0
  forwarded : List Schema.Request := []

namespace Cache

def empty (config : Config) : Cache where
  attributes := .empty config.capacity
  objectTypes := .empty config.capacity
  lifetime := config.lifetime

-- Forgets all answers, but not the counts.
def clear (c : Cache) : Cache :=
  { c with attributes := c.attributes.clear, objectTypes := c.objectTypes.clear }

def lookups (c : Cache) : Nat :=
  c.hits + c.misses

-- The kept answer for a name if it has not expired, and the answers from then on. Use makes the
-- name the latest, and an expired answer is dropped.
def remembered? {α : Type} (kept : Recent (Entry α)) (lifetime : Option Nat) (now : Nat)
    (name : String) : Option α × Recent (Entry α) :=
  match kept.find? name with
  | none => (none, kept)
  | some entry =>
    if entry.isExpired lifetime now then (none, kept.erase name)
    else (some entry.answer, kept.touch name)

def kept (c : Cache) : (kind : Schema.Kind) → Recent (Entry kind.Answer)
  | .attribute => c.attributes
  | .objectType => c.objectTypes

def keep (c : Cache) : (kind : Schema.Kind) → Recent (Entry kind.Answer) → Cache
  | .attribute, kept => { c with attributes := kept }
  | .objectType, kept => { c with objectTypes := kept }

def hit (c : Cache) : Cache :=
  { c with hits := c.hits + 1 }

def miss (c : Cache) (request : Schema.Request) : Cache :=
  { c with misses := c.misses + 1, forwarded := c.forwarded ++ [request] }

-- Answers from one of the maps, or else asks the schema and keeps its answer.
def lookup (kind : Schema.Kind) (schema : Schema) (clock : Clock) (name : String) (c : Cache) :
    kind.Answer × Cache :=
  match remembered? (c.kept kind) c.lifetime (clock (2 * c.lookups)) name with
  | (some answer, kept) => (answer, c.hit.keep kind kept)
  | (none, kept) =>
    let answer := schema.tell kind name
    let kept := kept.insert name ⟨answer, clock (2 * c.lookups + 1)⟩
    (answer, (c.miss (kind.request name)).keep kind kept)

def describe (schema : Schema) (clock : Clock) (name : String) (c : Cache) :
    Option Attribute × Cache :=
  c.lookup .attribute schema clock name

def hasType (schema : Schema) (clock : Clock) (name : String) (c : Cache) : Bool × Cache :=
  c.lookup .objectType schema clock name

section Maps

variable {c : Cache} {kind other : Schema.Kind} {kept : Recent (Entry kind.Answer)}

@[simp]
theorem kept_keep : (c.keep kind kept).kept kind = kept := by
  cases kind <;> rfl

theorem kept_keep_of_ne (h : other ≠ kind) : (c.keep kind kept).kept other = c.kept other := by
  cases kind <;> cases other <;> first | rfl | contradiction

@[simp]
theorem kept_clear : c.clear.kept kind = (c.kept kind).clear := by
  cases kind <;> rfl

@[simp]
theorem kept_hit : c.hit.kept kind = c.kept kind := by
  cases kind <;> rfl

@[simp]
theorem kept_miss (request : Schema.Request) : (c.miss request).kept kind = c.kept kind := by
  cases kind <;> rfl

@[simp]
theorem lifetime_keep : (c.keep kind kept).lifetime = c.lifetime := by
  cases kind <;> rfl

@[simp]
theorem forwarded_keep : (c.keep kind kept).forwarded = c.forwarded := by
  cases kind <;> rfl

@[simp]
theorem hits_keep : (c.keep kind kept).hits = c.hits := by
  cases kind <;> rfl

@[simp]
theorem misses_keep : (c.keep kind kept).misses = c.misses := by
  cases kind <;> rfl

end Maps

structure Statistics where
  hits : Nat
  misses : Nat
  attributeEntries : Nat
  objectTypeEntries : Nat
  deriving DecidableEq, Repr

def statistics (c : Cache) : Statistics where
  hits := c.hits
  misses := c.misses
  attributeEntries := c.attributes.size
  objectTypeEntries := c.objectTypes.size

-- A duration in the largest unit that it fills, without trailing zeros.
def durationListing (milliseconds : Nat) : String :=
  if milliseconds = 0 then "0ns"
  else if milliseconds < 1000 then s!"{milliseconds}ms"
  else
    let digits := (Decimal.lastDigits 3 milliseconds).reverse.dropWhile (· = '0')
    let fraction := if digits.isEmpty then "" else "." ++ String.ofList digits.reverse
    s!"{milliseconds / 1000}" ++ fraction ++ "s"

def listing (c : Cache) : String :=
  Listing.record "CachedSchema" [
    ("attribute_entries", toString c.attributes.size),
    ("object_type_entries", toString c.objectTypes.size),
    ("ttl", Listing.option (c.lifetime.map durationListing))
  ]

end Cache

-- The outcome of an inquiry through a cache.
def Inquiry.answerCached {α : Type} (schema : Schema) (clock : Clock) :
    Inquiry α → Cache → Except FilterError α × Cache :=
  answerWith (Cache.describe schema clock) (Cache.hasType schema clock)

end ResourceQuery
