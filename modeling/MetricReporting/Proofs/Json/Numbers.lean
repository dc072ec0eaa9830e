import MetricReporting.Json.Reader
import MetricReporting.Json.Writer
import MetricReporting.Proofs.Text.Numerals

/-!
# Integers of JSON read back

An integer that fits a 64-bit word, signed or not, is read as the integer it was written for: its
digits fit the word that they are gathered in, so nothing is scaled.
-/
namespace MetricReporting

namespace Decimal

open Text (ofDigits)

theorem le_foldl_digits (values : List Nat) (n : Nat) :
    n ≤ values.foldl (fun total value => total * 10 + value) n := by
  induction values generalizing n with
  | nil => exact Nat.le_refl n
  | cons value values ih =>
    have hstep := ih (n * 10 + value)
    rw [List.foldl_cons]
    omega

theorem appendDigits_eq {values : List Nat} {n : Nat}
    (h : values.foldl (fun total value => total * 10 + value) n < UInt64.size) :
    appendDigits n values = (values.foldl (fun total value => total * 10 + value) n, 0) := by
  induction values generalizing n with
  | nil => rfl
  | cons value values ih =>
    rw [List.foldl_cons] at h ⊢
    have hlonger := Nat.lt_of_le_of_lt (le_foldl_digits values (n * 10 + value)) h
    rw [appendDigits, if_pos hlonger, ih h]

theorem nearest_le {n : Nat} (h : n < UInt64.size) : nearest n ≤ 2 ^ 65 := by
  have hlog : Nat.log2 n < 64 := by
    by_cases hzero : n = 0
    · rw [hzero]
      decide
    · exact (Nat.log2_lt hzero).2 h
  have hunit : 2 ^ (Nat.log2 n + 1 - significantBits) ≤ 2 ^ 64 :=
    Nat.pow_le_pow_right (by decide) (by omega)
  have hnear := (roundDiv_near n
    (Nat.two_pow_pos (Nat.log2 n + 1 - significantBits))).1
  rw [UInt64.size] at h
  rw [nearest, Nat.one_shiftLeft]
  omega

theorem scalesTooFar_word {n : Nat} (h : n < UInt64.size) :
    scalesTooFar (Text.decimal n) [] 0 = false := by
  have hdigits : (Text.decimal n).foldl (fun total value => total * 10 + value) 0 = n :=
    Text.ofDigits_decimal n
  have hgathered : appendDigits 0 (Text.decimal n) = (n, 0) := by
    rw [appendDigits_eq (by rw [hdigits]; exact h), hdigits]
  have hone : nearest (Nat.pow 10 0) = 1 := by decide
  have hfinite : 2 ^ 65 < infiniteFrom := by decide +kernel
  have hfar : ¬ infiniteFrom ≤ nearest n * nearest (Nat.pow 10 0) := by
    rw [hone, Nat.mul_one]
    exact Nat.not_le_of_lt (Nat.lt_of_le_of_lt (nearest_le h) hfinite)
  simp only [scalesTooFar, hgathered, appendDigits]
  have hscale : (0 + ((0 : Nat) : Int) - ((([] : List Nat).length - 0 : Nat) : Int)) = 0 := rfl
  have hmost : ¬ mostScale < 0 := by decide
  rw [hscale, if_neg hmost, Int.toNat_zero, decide_eq_false hfar, ite_self]

end Decimal

namespace Json

open Text (IsWord decimal minus)

def Delimits (text : List Char) : Prop :=
  ∀ c ∈ text.head?, c = ',' ∨ c = '\n'

theorem Delimits.endsNumeral {text : List Char} (h : Delimits text) : Text.EndsNumeral 10 text := by
  intro c hc
  rcases h c hc with rfl | rfl <;> rfl

theorem Delimits.decimals {text : List Char} (h : Delimits text) :
    decimals text = some ([], text) := by
  cases text with
  | nil => rfl
  | cons c text => rcases h c rfl with rfl | rfl <;> rfl

theorem Delimits.exponent {text : List Char} (h : Delimits text) :
    exponent text = some (none, text) := by
  cases text with
  | nil => rfl
  | cons c text => rcases h c rfl with rfl | rfl <;> rfl

theorem number_magnitude (negative : Bool) {n : Nat} (h : n < UInt64.size) {rest : List Char}
    (hrest : Delimits rest) :
    number (minus negative ++ (Nat.toDigits 10 n ++ rest)) = some (integer negative n, rest) := by
  have hdigits := Text.digits_toDigits n _ hrest.endsNumeral
  have hvalue := Text.ofDigits_decimal n
  have hscale := Decimal.scalesTooFar_word h
  have hsign : ((minus negative ++ (Nat.toDigits 10 n ++ rest)).head? == some '-') = negative := by
    cases negative with
    | true => rfl
    | false => exact beq_eq_false_iff_ne.2 (Text.head?_toDigits_append n rest)
  have hmagnitude : (if negative = true then
      (minus negative ++ (Nat.toDigits 10 n ++ rest)).drop 1
      else minus negative ++ (Nat.toDigits 10 n ++ rest)) = Nat.toDigits 10 n ++ rest := by
    cases negative <;> rfl
  unfold number
  simp only [hsign, hmagnitude, hdigits]
  split
  · rename_i heq
    exact absurd (congrArg Prod.fst heq) (Text.decimal_ne_nil n)
  · rename_i second more _ heq
    have hlist : decimal n = 0 :: second :: more := congrArg Prod.fst heq
    rcases Nat.eq_zero_or_pos n with rfl | hpos
    · rw [Text.decimal_zero] at hlist
      cases hlist
    · exact absurd (by rw [hlist]; rfl) (Text.decimal_head hpos)
  · rename_i whole after _ _ heq
    obtain ⟨rfl, rfl⟩ := Prod.mk.inj heq
    simp only [hrest.decimals, hrest.exponent, Option.bind_eq_bind, Option.bind_some,
      Option.getD_none, hscale, List.append_nil, hvalue, true_and, if_true, Bool.false_eq_true,
      if_false]

theorem number_integer {n : Int} (h : IsWord n) {rest : List Char} (hrest : Delimits rest) :
    number ((toString n).toList ++ rest) = some (.integer n, rest) := by
  obtain ⟨hlow, hhigh⟩ := h
  have hleast : Int64.minValue.toInt = -2 ^ 63 := by decide
  have hword : n.natAbs < UInt64.size := by
    rw [UInt64.size] at hhigh ⊢
    omega
  rw [Text.toList_toString_int, List.append_assoc, number_magnitude _ hword hrest, integer]
  by_cases hneg : n < 0
  · have hrange : 0 < n.natAbs ∧ n.natAbs ≤ Int64.minValue.toInt.natAbs := by omega
    have hback : -(n.natAbs : Int) = n := by omega
    rw [if_pos (decide_eq_true hneg), if_pos hrange, hback]
  · have hback : (n.natAbs : Int) = n := by omega
    rw [if_neg (by simpa using hneg), if_pos hword, hback]

end Json

end MetricReporting
