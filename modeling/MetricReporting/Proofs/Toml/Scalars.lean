import MetricReporting.Proofs.Text.Numerals
import MetricReporting.Toml.Scalar

/-!
# Integers of TOML read back

An integer that fits a 64-bit word, signed or not, is no point in time and is read as the integer it
was written for.
-/
namespace MetricReporting.Toml

open Text (IsWord decimal minus)

/-! ## Points in time -/

theorem fixedNumber_rest {width : Nat} {text rest : List Char} {n : Nat}
    (h : fixedNumber width text = some (n, rest)) : rest = text.drop width := by
  rw [fixedNumber] at h
  split at h
  · cases h
  · obtain ⟨_, -, heq⟩ := Option.map_eq_some_iff.1 h
    exact (congrArg Prod.snd heq).symm

theorem after?_singleton_of_not_mem {c : Char} {text : List Char} (h : c ∉ text) :
    Text.after? [c] text = none := by
  cases text with
  | nil => rfl
  | cons first rest =>
    have hne : first ≠ c := fun heq => h (heq ▸ List.mem_cons_self)
    rw [Text.after?, if_neg hne]

theorem date_eq_none {text : List Char} (h : '-' ∉ text.drop 4) : date text = none := by
  unfold date
  cases hyear : fixedNumber 4 text with
  | none => rfl
  | some found =>
    obtain ⟨year, rest⟩ := found
    have hrest := fixedNumber_rest hyear
    subst hrest
    simp only [Option.bind_eq_bind, Option.bind_some, after?_singleton_of_not_mem h,
      Option.bind_none]

theorem time_eq_none {text : List Char} (h : ':' ∉ text) : time text = none := by
  unfold time
  cases hhour : fixedNumber 2 text with
  | none => rfl
  | some found =>
    obtain ⟨hour, rest⟩ := found
    have hrest := fixedNumber_rest hhour
    subst hrest
    have hcolon : ':' ∉ text.drop 2 := fun hmem => h (List.mem_of_mem_drop hmem)
    simp only [Option.bind_eq_bind, Option.bind_some, after?_singleton_of_not_mem hcolon,
      Option.bind_none]

theorem isPointInTime_integer (negative : Bool) (n : Nat) :
    isPointInTime (minus negative ++ Nat.toDigits 10 n) = false := by
  have hminus : '-' ∉ (minus negative ++ Nat.toDigits 10 n).drop 4 := by
    cases negative with
    | false => exact fun hmem => Text.not_mem_toDigits rfl n (List.mem_of_mem_drop hmem)
    | true => exact fun hmem => Text.not_mem_toDigits rfl n (List.mem_of_mem_drop (i := 3) hmem)
  have hcolon : ':' ∉ minus negative ++ Nat.toDigits 10 n := by
    intro hmem
    rcases List.mem_append.1 hmem with hsign | hdigit
    · cases negative with
      | false => cases hsign
      | true => cases hsign with | tail _ hnone => cases hnone
    · exact Text.not_mem_toDigits rfl n hdigit
  simp only [isPointInTime, date_eq_none hminus, time_eq_none hcolon]
  rfl

/-! ## Numbers -/

theorem groupedDigits?_toDigits (n : Nat) :
    groupedDigits? 10 (Nat.toDigits 10 n) = some (decimal n) := by
  have hsplit : (Nat.toDigits 10 n).splitOn '_' = [Nat.toDigits 10 n] :=
    List.splitOnP_eq_singleton fun c hmem =>
      beq_eq_false_iff_ne.2 fun heq => Nat.underscore_not_in_toDigits (heq ▸ hmem)
  have hdigits := Text.digits_toDigits n [] nofun
  rw [List.append_nil] at hdigits
  simp [groupedDigits?, hsplit, hdigits, Text.decimal_ne_nil]

theorem plainDigits?_toDigits (n : Nat) : plainDigits? (Nat.toDigits 10 n) = some (decimal n) := by
  rw [plainDigits?, groupedDigits?_toDigits, Option.filter_eq_some_iff]
  refine ⟨rfl, ?_⟩
  rcases Nat.eq_zero_or_pos n with rfl | hpos
  · rfl
  · have hhead : ((decimal n).head? != some 0) = true := bne_iff_ne.2 (Text.decimal_head hpos)
    rw [hhead]
    rfl

theorem radix?_toDigits (n : Nat) : radix? (Nat.toDigits 10 n) = none := by
  unfold radix?
  split
  · rename_i heq
    exact absurd (heq ▸ by simp) (Text.not_mem_toDigits (c := 'x') rfl n)
  · rename_i heq
    exact absurd (heq ▸ by simp) (Text.not_mem_toDigits (c := 'o') rfl n)
  · rename_i heq
    exact absurd (heq ▸ by simp) (Text.not_mem_toDigits (c := 'b') rfl n)
  · rfl

theorem sign_integer (negative : Bool) (n : Nat) : sign (minus negative ++ Nat.toDigits 10 n) =
    (if negative then some true else none, Nat.toDigits 10 n) := by
  cases negative with
  | true => rfl
  | false =>
    show sign (Nat.toDigits 10 n) = (none, Nat.toDigits 10 n)
    unfold sign
    split
    · rename_i heq
      exact absurd (heq ▸ List.mem_cons_self) (Text.not_mem_toDigits (c := '-') rfl n)
    · rename_i heq
      exact absurd (heq ▸ List.mem_cons_self) (Text.not_mem_toDigits (c := '+') rfl n)
    · rfl

theorem number?_integer (negative : Bool) (n : Nat) :
    number? (minus negative ++ Nat.toDigits 10 n) = some (integer negative n) := by
  have hword : ∀ c word, c.isDigit = false → Nat.toDigits 10 n ≠ c :: word :=
    fun c word hdigit heq =>
    Text.not_mem_toDigits hdigit n (heq ▸ List.mem_cons_self)
  have hspecial : ¬ (Nat.toDigits 10 n = "inf".toList ∨ Nat.toDigits 10 n = "nan".toList) := by
    rintro (heq | heq)
    · exact hword 'i' _ rfl heq
    · exact hword 'n' _ rfl heq
  have hnegative : (if negative then some true else none).getD false = negative := by
    cases negative <;> rfl
  simp only [number?, sign_integer, if_neg hspecial, radix?_toDigits, plainDigits?_toDigits,
    Text.ofDigits_decimal, hnegative]

theorem unquoted?_integer {n : Int} (h : IsWord n) :
    unquoted? (toString n) = some (.integer n) := by
  obtain ⟨hlow, hhigh⟩ := h
  obtain ⟨c, text, htext, hc⟩ := Text.toList_integer n
  have hne : ∀ other word, other.isDigit = false → other ≠ '-' →
      (toString n).toList ≠ other :: word := fun other word hdigit hminus heq =>
    hc.ne hdigit hminus (List.cons.inj (htext.symm.trans heq)).1
  have htrue : toString n ≠ "true" := fun heq =>
    hne 't' _ rfl (by decide) (congrArg String.toList heq)
  have hfalse : toString n ≠ "false" := fun heq =>
    hne 'f' _ rfl (by decide) (congrArg String.toList heq)
  have hmagnitude : (if decide (n < 0) = true then -(n.natAbs : Int) else n.natAbs) = n := by
    split
    · rename_i hneg
      have hlt := of_decide_eq_true hneg
      omega
    · rename_i hneg
      have hge : ¬ n < 0 := fun hlt => hneg (decide_eq_true hlt)
      omega
  rw [unquoted?, if_neg htrue, if_neg hfalse, Text.toList_toString_int, isPointInTime_integer,
    number?_integer, integer]
  simp only [Bool.false_eq_true, if_false, hmagnitude, if_pos (And.intro hlow hhigh)]

theorem unquoted?_boolean (value : Bool) :
    unquoted? (if value then "true" else "false") = some (.boolean value) := by
  cases value <;> rfl

end MetricReporting.Toml
