import ResourceQuery.Text.Name
import ResourceQuery.Text.Quoted

namespace ResourceQuery

namespace Delimited

variable {α : Type} {p : α → Prop}

-- The common principle: both the piece and the rest after it can be read off a longer list.
theorem append_cons_inj {t u r s : List α} {c d : α} (ht : ∀ x ∈ t, p x) (hu : ∀ x ∈ u, p x)
    (hc : ¬p c) (hd : ¬p d) (h : t ++ c :: r = u ++ d :: s) : t = u ∧ c = d ∧ r = s := by
  induction t generalizing u with
  | nil =>
    cases u with
    | nil => simpa using h
    | cons y u =>
      simp only [List.nil_append, List.cons_append, List.cons.injEq] at h
      exact absurd (h.left ▸ hu y List.mem_cons_self) hc
  | cons x t ih =>
    cases u with
    | nil =>
      simp only [List.nil_append, List.cons_append, List.cons.injEq] at h
      exact absurd (h.left ▸ ht x List.mem_cons_self) hd
    | cons y u =>
      simp only [List.cons_append, List.cons.injEq] at h
      have ⟨htu, hrest⟩ := ih (fun z hz => ht z (List.mem_cons_of_mem x hz))
        (fun z hz => hu z (List.mem_cons_of_mem y hz)) h.right
      exact ⟨by rw [h.left, htu], hrest⟩

-- With the same character after both pieces it is enough that neither contains it.
theorem append_cons_inj_of_notMem {t u r s : List α} {c : α} (ht : c ∉ t) (hu : c ∉ u)
    (h : t ++ c :: r = u ++ c :: s) : t = u ∧ r = s := by
  have hp {v : List α} (hv : c ∉ v) : ∀ x ∈ v, x ≠ c := fun x hx hxc => hv (hxc ▸ hx)
  have ⟨htu, _, hrs⟩ := append_cons_inj (p := (· ≠ c)) (hp ht) (hp hu) (by simp) (by simp) h
  exact ⟨htu, hrs⟩

end Delimited

namespace Name

theorem isPart_of_isStart {c : Char} (h : isStart c) : isPart c := by
  simp only [isStart, isPart, Char.isAlphanum, Bool.or_eq_true] at h ⊢
  exact h.imp_left .inl

theorem firstBad?_eq_none_iff {position : Nat} {cs : List Char} :
    firstBad? position cs = none ↔ ∀ c ∈ cs, isPart c := by
  induction cs generalizing position with
  | nil => simp [firstBad?]
  | cons c cs ih => by_cases hc : isPart c <;> simp [firstBad?, hc, ih]

-- A name is a letter or underscore and any number of letters, digits and underscores.
theorem fault?_eq_none_iff {name : String} :
    fault? name = none ↔ ∃ c cs, name.toList = c :: cs ∧ isStart c ∧ ∀ d ∈ cs, isPart d := by
  rw [fault?]
  cases name.toList with
  | nil => simp
  | cons c cs =>
    by_cases hc : isStart c
    case pos =>
      simp only [hc, if_true, Option.map_eq_none_iff, firstBad?_eq_none_iff, List.cons.injEq]
      exact ⟨fun h => ⟨c, cs, ⟨rfl, rfl⟩, hc, h⟩, fun ⟨_, _, ⟨_, hcs⟩, _, h⟩ => hcs ▸ h⟩
    case neg => simp [hc]

theorem isPart_of_mem {name : String} (h : fault? name = none) : ∀ c ∈ name.toList, isPart c := by
  have ⟨c, cs, hn, hc, hcs⟩ := fault?_eq_none_iff.mp h
  rw [hn, List.forall_mem_cons]
  exact ⟨isPart_of_isStart hc, hcs⟩

-- A name is also accepted where an object type is.
theorem objectTypeFault?_eq_none {name : String} (h : fault? name = none) :
    objectTypeFault? name = none := by
  rw [objectTypeFault?]
  split
  case isTrue => rfl
  case isFalse => exact h

theorem isPart_or_wildcard_of_mem {objectType : String} (h : objectTypeFault? objectType = none) :
    ∀ c ∈ objectType.toList, isPart c ∨ c = '*' := by
  rw [objectTypeFault?] at h
  split at h
  case isTrue hw => simp [hw, anyObjectType]
  case isFalse => exact fun c hc => .inl (isPart_of_mem h c hc)

-- A rest that cannot go on with the name before it.
def Ends (rest : List Char) : Prop :=
  ∃ c tail, rest = c :: tail ∧ ¬(isPart c ∨ c = '*')

theorem ends_cons {c : Char} {tail : List Char} (h : ¬(isPart c ∨ c = '*')) : Ends (c :: tail) :=
  ⟨c, tail, rfl, h⟩

theorem append_inj {n m : String} {r s : List Char} (hn : objectTypeFault? n = none)
    (hm : objectTypeFault? m = none) (hr : Ends r) (hs : Ends s)
    (h : n.toList ++ r = m.toList ++ s) : n = m ∧ r = s := by
  obtain ⟨c, r, rfl, hc⟩ := hr
  obtain ⟨d, s, rfl, hd⟩ := hs
  have ⟨hnm, hcd, hrs⟩ := Delimited.append_cons_inj (isPart_or_wildcard_of_mem hn)
    (isPart_or_wildcard_of_mem hm) hc hd h
  exact ⟨String.toList_injective hnm, by rw [hcd, hrs]⟩

end Name

namespace Decimal

theorem toDigits_injective {m n : Nat} (h : Nat.toDigits 10 m = Nat.toDigits 10 n) : m = n := by
  have := congrArg (Nat.ofDigitChars 10 · 0) h
  simpa using this

theorem isDigit_of_mem_toDigits {c : Char} {n : Nat} (h : c ∈ Nat.toDigits 10 n) : c.isDigit :=
  Nat.isDigit_of_mem_toDigits (by decide) (by decide) h

theorem minus_notMem_toDigits (n : Nat) : '-' ∉ Nat.toDigits 10 n :=
  fun h => absurd (isDigit_of_mem_toDigits h) (by decide)

theorem toList_toString_int (i : Int) :
    (toString i).toList =
      if i < 0 then '-' :: Nat.toDigits 10 i.natAbs else Nat.toDigits 10 i.natAbs := by
  cases i with
  | ofNat n => simp [toString, Int.repr, Nat.toList_repr]
  | negSucc n => simp [toString, Int.repr]

theorem isDigit_or_minus_of_mem_toString (i : Int) :
    ∀ c ∈ (toString i).toList, c.isDigit ∨ c = '-' := by
  intro c hc
  rw [toList_toString_int] at hc
  split at hc
  case isTrue =>
    cases hc with
    | head => exact .inr rfl
    | tail _ hc => exact .inl (isDigit_of_mem_toDigits hc)
  case isFalse => exact .inl (isDigit_of_mem_toDigits hc)

theorem toList_toString_ne_nil (i : Int) : (toString i).toList ≠ [] := by
  rw [toList_toString_int]
  split <;> simp [Nat.toDigits_ne_nil]

-- The sign is told from the first character, the magnitude from the digits.
theorem toList_toString_injective {i j : Int} (h : (toString i).toList = (toString j).toList) :
    i = j := by
  have hi := minus_notMem_toDigits i.natAbs
  have hj := minus_notMem_toDigits j.natAbs
  rw [toList_toString_int, toList_toString_int] at h
  split at h <;> split at h
  case isTrue.isTrue =>
    have := toDigits_injective (List.cons.inj h).right
    omega
  case isTrue.isFalse => exact absurd (h ▸ List.mem_cons_self) hj
  case isFalse.isTrue => exact absurd (h ▸ List.mem_cons_self) hi
  case isFalse.isFalse =>
    have := toDigits_injective h
    omega

end Decimal

end ResourceQuery
