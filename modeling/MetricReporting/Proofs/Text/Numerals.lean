import MetricReporting.Text.Digits
import MetricReporting.Text.Scan
import Mathlib.Algebra.Group.Int.Defs
import Mathlib.Algebra.Group.Nat.Defs

/-!
# Numerals read back

A number written in decimal is read digit by digit as the number it was, and has no leading zero;
two hexadecimal digits are read as the byte they were written for.
-/
namespace MetricReporting.Text

def valuesOf (numeral : List Char) : List Nat :=
  numeral.map fun c => c.toNat - '0'.toNat

def EndsNumeral (radix : Nat) (text : List Char) : Prop :=
  ∀ c ∈ text.head?, digitValue radix c = none

theorem digitValue_of_isDigit {c : Char} (h : c.isDigit = true) :
    digitValue 10 c = some (c.toNat - '0'.toNat) := by
  simp only [Char.isDigit, Bool.and_eq_true, decide_eq_true_eq] at h
  have hrange : '0' ≤ c ∧ c ≤ '9' := h
  have hlow : 48 ≤ c.toNat := h.1
  have hhigh : c.toNat ≤ 57 := h.2
  simp only [digitValue, hrange]
  refine Option.filter_eq_some_iff.2 ⟨rfl, decide_eq_true ?_⟩
  show c.toNat - 48 < 10
  omega

theorem digits_numeral {numeral : List Char} (h : ∀ c ∈ numeral, c.isDigit = true)
    {rest : List Char}
    (hrest : EndsNumeral 10 rest) : digits 10 (numeral ++ rest) = (valuesOf numeral, rest) := by
  induction numeral with
  | nil =>
    cases rest with
    | nil => rfl
    | cons c rest =>
      have hnone : digitValue 10 c = none := hrest c rfl
      simp only [List.nil_append, digits, hnone]
      rfl
  | cons c numeral ih =>
    have hdigit := digitValue_of_isDigit (h c List.mem_cons_self)
    have hothers := ih fun c hmem => h c (List.mem_cons_of_mem _ hmem)
    simp only [List.cons_append, digits, hdigit, hothers]
    rfl

theorem ofDigits_valuesOf (numeral : List Char) :
    ofDigits 10 (valuesOf numeral) = Nat.ofDigitChars 10 numeral 0 := by
  rw [ofDigits, valuesOf, List.foldl_map, Nat.ofDigitChars_eq_foldl]
  simp only [Nat.mul_comm]

def decimal (n : Nat) : List Nat :=
  valuesOf (Nat.toDigits 10 n)

theorem toList_toString (n : Nat) : (toString n).toList = Nat.toDigits 10 n :=
  Nat.toList_repr

theorem repr_injective : Function.Injective Nat.repr := by
  intro n m h
  rw [← Nat.ofDigitChars_ten_toDigits (n := n), ← Nat.toList_repr, h, Nat.toList_repr,
    Nat.ofDigitChars_ten_toDigits]

theorem isDigit_toDigits (n : Nat) : ∀ c ∈ Nat.toDigits 10 n, c.isDigit = true :=
  fun _ hmem => Nat.isDigit_of_mem_toDigits (by decide) (by decide) hmem

theorem digits_toDigits (n : Nat) (rest : List Char) (hrest : EndsNumeral 10 rest) :
    digits 10 (Nat.toDigits 10 n ++ rest) = (decimal n, rest) :=
  digits_numeral (isDigit_toDigits n) hrest

theorem ofDigits_decimal (n : Nat) : ofDigits 10 (decimal n) = n :=
  (ofDigits_valuesOf _).trans Nat.ofDigitChars_ten_toDigits

theorem decimal_ne_nil (n : Nat) : decimal n ≠ [] := by
  rw [decimal, valuesOf, Ne, List.map_eq_nil_iff]
  exact Nat.toDigits_ne_nil

theorem decimal_zero : decimal 0 = [0] :=
  rfl

theorem decimal_head {n : Nat} (h : 0 < n) : (decimal n).head? ≠ some 0 := by
  induction n using Nat.strongRecOn with
  | ind n ih =>
    by_cases hsmall : n < 10
    · rw [decimal, Nat.toDigits_of_lt_base hsmall]
      simp only [valuesOf, List.map_cons, List.head?_cons]
      rw [show n.digitChar.toNat - '0'.toNat = n from Nat.toNat_digitChar_sub_48_of_lt_ten hsmall]
      exact fun hzero => Nat.ne_of_gt h (Option.some.inj hzero)
    · have hfront := ih (n / 10) (by omega) (by omega)
      obtain ⟨first, others, hsplit⟩ := List.exists_cons_of_ne_nil (decimal_ne_nil (n / 10))
      rw [hsplit] at hfront
      rw [decimal, Nat.toDigits_of_base_le (by decide) (by omega), valuesOf, List.map_append]
      change (decimal (n / 10) ++ _).head? ≠ some 0
      rw [hsplit]
      exact hfront

/-! ## Integers -/

/-- The integers that fit a 64-bit word, signed or not. -/
def IsWord (n : Int) : Prop :=
  Int64.minValue.toInt ≤ n ∧ n < UInt64.size

def minus (negative : Bool) : List Char :=
  if negative then ['-'] else []

def OpensNumber (c : Char) : Prop :=
  c.isDigit = true ∨ c = '-'

theorem OpensNumber.ne {c d : Char} (h : OpensNumber c) (hdigit : d.isDigit = false)
    (hminus : d ≠ '-') : c ≠ d := by
  rintro rfl
  rcases h with hyes | hyes
  · rw [hdigit] at hyes
    cases hyes
  · exact hminus hyes

theorem not_mem_toDigits {c : Char} (h : c.isDigit = false) (n : Nat) : c ∉ Nat.toDigits 10 n := by
  intro hmem
  rw [isDigit_toDigits n c hmem] at h
  cases h

theorem head?_toDigits_append (n : Nat) (rest : List Char) :
    (Nat.toDigits 10 n ++ rest).head? ≠ some '-' := by
  have hminus := not_mem_toDigits (c := '-') rfl n
  obtain ⟨c, others, hsplit⟩ := List.exists_cons_of_ne_nil (Nat.toDigits_ne_nil (n := n) (b := 10))
  rw [hsplit] at hminus ⊢
  exact fun heq => hminus (Option.some.inj heq ▸ List.mem_cons_self)

theorem toList_toString_int (n : Int) :
    (toString n).toList = minus (decide (n < 0)) ++ Nat.toDigits 10 n.natAbs := by
  cases n with
  | ofNat n => exact toList_toString n
  | negSucc n =>
    have hneg : decide (Int.negSucc n < 0) = true := decide_eq_true (Int.negSucc_lt_zero n)
    rw [hneg]
    show ("-" ++ Nat.repr (n + 1)).toList = _
    rw [String.toList_append, Nat.toList_repr]
    rfl

theorem toList_integer (n : Int) : ∃ c text, (toString n).toList = c :: text ∧ OpensNumber c := by
  rw [toList_toString_int]
  obtain ⟨c, others, hsplit⟩ :=
    List.exists_cons_of_ne_nil (Nat.toDigits_ne_nil (n := n.natAbs) (b := 10))
  by_cases hneg : n < 0
  · rw [decide_eq_true hneg]
    exact ⟨'-', _, rfl, Or.inr rfl⟩
  · rw [decide_eq_false hneg, hsplit]
    have hdigit := isDigit_toDigits n.natAbs c (by rw [hsplit]; exact List.mem_cons_self)
    exact ⟨c, others, rfl, Or.inl hdigit⟩

/-! ## Numbers padded with zeros -/

theorem toList_padded (width n : Nat) : (padded width n).toList =
    List.replicate (width - (toString n).length) '0' ++ Nat.toDigits 10 n := by
  rw [padded, String.toList_append, String.toList_ofList, toList_toString]

theorem isDigit_padded (width n : Nat) : ∀ c ∈ (padded width n).toList, c.isDigit = true := by
  intro c hmem
  rw [toList_padded, List.mem_append] at hmem
  rcases hmem with hzero | hdigit
  · obtain rfl := List.eq_of_mem_replicate hzero
    rfl
  · exact isDigit_toDigits n c hdigit

theorem ofDigitChars_zeros (count : Nat) (numeral : List Char) :
    Nat.ofDigitChars 10 (List.replicate count '0' ++ numeral) 0 =
      Nat.ofDigitChars 10 numeral 0 := by
  induction count with
  | zero => rfl
  | succ count ih => exact ih

theorem ofDigitChars_padded (width n : Nat) :
    Nat.ofDigitChars 10 (padded width n).toList 0 = n := by
  rw [toList_padded, ofDigitChars_zeros, Nat.ofDigitChars_ten_toDigits]

theorem padded_injective (width : Nat) : Function.Injective (padded width) := by
  intro n m h
  rw [← ofDigitChars_padded width n, h, ofDigitChars_padded]

/-! ## Hexadecimal digits -/

theorem digitValue_hexDigit {n : Nat} (h : n < 16) : digitValue 16 (hexDigit n) = some n := by
  have hall : ∀ n : Fin 16, digitValue 16 (hexDigit n) = some n.val := by decide
  exact hall ⟨n, h⟩

theorem hexNumber?_byte {high low : Char} {n : Nat} (hhigh : digitValue 16 high = some (n / 16))
    (hlow : digitValue 16 low = some (n % 16)) (rest : List Char) :
    hexNumber? 4 ('0' :: '0' :: high :: low :: rest) = some n := by
  have hzero : digitValue 16 '0' = some 0 := rfl
  have hlength : 4 ≤ ('0' :: '0' :: high :: low :: rest).length := by
    simp only [List.length_cons]
    omega
  rw [hexNumber?, if_pos hlength]
  simp only [List.take_succ_cons, List.take_zero, number?, digits, hzero, hhigh, hlow, ofDigits,
    List.foldl_cons, List.foldl_nil]
  congr 1
  omega

end MetricReporting.Text
