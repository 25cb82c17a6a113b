import Mathlib.Data.List.TakeWhile
import PortGraph.Number.Decimal

/-!
# Written naturals

The decimal digits of a natural stand for it, and none but zero begins with a zero.  Digits that are
followed by something else are all of the digits that are read.
-/

set_option autoImplicit false

namespace PortGraph

/-- Taking characters as long as a property holds of them stops at what follows, if it does not hold
there. -/
theorem span_append {α : Type} {p : α → Bool} {rest : List α} (h : ∀ a ∈ rest.head?, p a = false)
    (as : List α) : (as ++ rest).takeWhile p = as.takeWhile p ∧
      (as ++ rest).dropWhile p = as.dropWhile p ++ rest := by
  induction as with
  | nil =>
    cases rest with
    | nil => exact ⟨rfl, rfl⟩
    | cons a rest =>
      have ha : p a = false := h a rfl
      exact ⟨List.takeWhile_cons_of_neg (by simp [ha]), List.dropWhile_cons_of_neg (by simp [ha])⟩
  | cons a as ih =>
    by_cases ha : p a = true
    · simp [ha, ih]
    · simp [ha]

theorem span_of_forall {α : Type} {p : α → Bool} {as rest : List α} (has : ∀ a ∈ as, p a = true)
    (h : ∀ a ∈ rest.head?, p a = false) :
    (as ++ rest).takeWhile p = as ∧ (as ++ rest).dropWhile p = rest := by
  obtain ⟨htake, hdrop⟩ := span_append h as
  rw [htake, hdrop, List.takeWhile_eq_self_iff.mpr has, List.dropWhile_eq_nil_iff.mpr has]
  exact ⟨rfl, rfl⟩

/-- Where something is written for every element, no fewer characters are written than there are
elements. -/
theorem length_le_flatMap {α β : Type} {f : α → List β} (h : ∀ a, f a ≠ []) (as : List α) :
    as.length ≤ (as.flatMap f).length := by
  induction as with
  | nil => exact Nat.le_refl 0
  | cons a as ih =>
    have hpos := List.length_pos_iff.mpr (h a)
    rw [List.flatMap_cons, List.length_append, List.length_cons]
    omega

theorem naturalOfDigits_toDigits (n : Nat) : naturalOfDigits (Nat.toDigits 10 n) = n :=
  Nat.ofDigitChars_toDigits (by decide) (by decide)

/-- What is found out digit by digit is found out of all the digits of a natural. -/
theorem foldl_toDigits {f : Option Nat → Char → Option Nat} {base : Nat} (hbase : 1 < base)
    (h : ∀ n, ∀ m < base, f (some n) m.digitChar = some (base * n + m)) (n : Nat) :
    (Nat.toDigits base n).foldl f (some 0) = some n := by
  induction n using Nat.strong_induction_on with
  | _ n ih =>
    by_cases hn : n < base
    · rw [Nat.toDigits_of_lt_base hn, List.foldl_cons, h 0 n hn, Nat.mul_zero, Nat.zero_add]
      rfl
    · have hlt : n / base < n := Nat.div_lt_self (by omega) hbase
      rw [Nat.toDigits_of_base_le hbase (by omega), List.foldl_append, ih _ hlt, List.foldl_cons,
        h _ _ (Nat.mod_lt n (by omega)), Nat.div_add_mod]
      rfl

/-- What holds of the ten digits holds of every digit. -/
theorem of_isDigit {p : Char → Prop} (h : ∀ n < 58, 48 ≤ n → p (Char.ofNat n)) {c : Char}
    (hc : c.isDigit = true) : p c := by
  simp only [Char.isDigit, Bool.and_eq_true, decide_eq_true_eq] at hc
  have hlow : 48 ≤ c.toNat := UInt32.le_iff_toNat_le.mp hc.1
  have hhigh : c.toNat ≤ 57 := UInt32.le_iff_toNat_le.mp hc.2
  exact Char.ofNat_toNat c ▸ h c.toNat (by omega) hlow

theorem isDigit_of_mem_toDigits {n : Nat} {c : Char} (h : c ∈ Nat.toDigits 10 n) :
    c.isDigit = true :=
  Nat.isDigit_of_mem_toDigits (by decide) (by decide) h

/-- **Only zero is written with a zero in front.** -/
theorem toDigits_eq_cons {n : Nat} (h : n ≠ 0) :
    ∃ c cs, Nat.toDigits 10 n = c :: cs ∧ c ≠ '0' := by
  induction n using Nat.strong_induction_on with
  | _ n ih =>
    by_cases hn : n < 10
    · have hdigit : ∀ m < 10, m ≠ 0 → m.digitChar ≠ '0' := by decide
      exact ⟨n.digitChar, [], Nat.toDigits_of_lt_base hn, hdigit n hn h⟩
    · obtain ⟨c, cs, hcs, hc⟩ := ih (n / 10) (by omega) (by omega)
      refine ⟨c, cs ++ [(n % 10).digitChar], ?_, hc⟩
      rw [Nat.toDigits_of_base_le (by decide) (by omega), hcs]
      rfl

theorem toList_toString (n : Int) : (toString n).toList =
    if n < 0 then '-' :: Nat.toDigits 10 n.natAbs else Nat.toDigits 10 n.natAbs := by
  cases n with
  | ofNat n =>
    rw [if_neg (by simp)]
    exact Nat.toList_repr
  | negSucc n =>
    rw [if_pos (Int.negSucc_lt_zero n)]
    change ("-" ++ (n + 1).repr).toList = _
    rw [String.toList_append, Nat.toList_repr]
    rfl

/-- **A natural is read off its digits.** -/
theorem naturalOfText?_toString (n : Nat) : naturalOfText? (toString n) = some n := by
  have hdigits : (toString n).toList = Nat.toDigits 10 n := Nat.toList_repr
  have hall : (Nat.toDigits 10 n).all Char.isDigit = true :=
    List.all_eq_true.mpr fun _ hc ↦ isDigit_of_mem_toDigits hc
  have hread := naturalOfDigits_toDigits n
  have hne : Nat.toDigits 10 n ≠ [] := Nat.toDigits_ne_nil
  rw [naturalOfText?, hdigits]
  cases hcs : Nat.toDigits 10 n with
  | nil => exact absurd hcs hne
  | cons c cs =>
    rw [hcs] at hall hread
    have hplus : c ≠ '+' := by
      rintro rfl
      exact absurd (List.all_eq_true.mp hall _ List.mem_cons_self) (by decide)
    simp [hplus, hall, hread]

end PortGraph
