import MetricReporting.Payload.Reader
import MetricReporting.Proofs.Payload.Layout
import Mathlib.Algebra.Group.Nat.Defs

/-!
# Fields read back

A reader that stands before the bytes of a field takes exactly these off and gives the field's
value, whatever follows. The lemmas go from words to counts, ticks and headers, and from one field
to a row of them.
-/
namespace MetricReporting

namespace Bytes

theorem toNat_ofNat (width n : Nat) : toNat (ofNat width n) = n % 256 ^ width := by
  induction width generalizing n with
  | zero => simp [ofNat, toNat, Nat.mod_one]
  | succ width ih =>
    have h : (UInt8.ofNat (n % 256)).toNat = n % 256 := by
      simp [UInt8.toNat_ofNat']
    rw [ofNat, toNat, ih, h, Nat.pow_succ', Nat.mod_mul]

theorem toInt32_ofInt32 (word : Int32) : toInt32 (ofInt32 word) = word := by
  have hlt : word.toUInt32.toNat < 256 ^ 4 := word.toUInt32.toNat_lt
  rw [toInt32, ofInt32, toNat_ofNat, Nat.mod_eq_of_lt hlt, ← UInt32.toInt32_ofNat',
    UInt32.ofNat_toNat]
  rfl

theorem toInt64_ofInt64 (word : Int64) : toInt64 (ofInt64 word) = word := by
  have hlt : word.toUInt64.toNat < 256 ^ 8 := word.toUInt64.toNat_lt
  rw [toInt64, ofInt64, toNat_ofNat, Nat.mod_eq_of_lt hlt, ← UInt64.toInt64_ofNat',
    UInt64.ofNat_toNat]
  rfl

theorem toText?_ofText (text : String) : toText? (ofText text) = some text := by
  have hbytes : (⟨(ofText text).toArray⟩ : ByteArray) = text.toUTF8 := by simp [ofText]
  rw [toText?, hbytes]
  exact dif_pos text.isValidUTF8

end Bytes

namespace Payload

/-- The ticks of a batch that is based on `base` lie at distances that a payload can hold. -/
def Spanned (base : Int64) (entry : Entry) : Prop :=
  base ≤ entry.ticks ∧ entry.ticks.toInt - base.toInt < 2 ^ 31

theorem delta_toInt {base : Int64} {entry : Entry} (h : Spanned base entry) :
    (delta base entry).toInt = entry.ticks.toInt - base.toInt := by
  have hle := Int64.le_iff_toInt_le.1 h.1
  have hlt := h.2
  exact Int32.toInt_ofInt_of_le (by omega) (by omega)

namespace Reader

variable {α β : Type}

theorem bind_ok {first : Reader α} {next : α → Reader β} {bytes rest : Bytes} {a : α}
    (h : first bytes = .ok (a, rest)) : (first >>= next) bytes = next a rest := by
  show (first bytes >>= fun p => next p.1 p.2) = next a rest
  rw [h]
  rfl

theorem bytes_append (field : Field) (front rest : Bytes) :
    bytes field front.length (front ++ rest) = .ok (front, rest) := by
  simp [bytes]

theorem int32_append (field : Field) (word : Int32) (rest : Bytes) :
    int32 field (Bytes.ofInt32 word ++ rest) = .ok (word, rest) := by
  have h := bytes_append field (Bytes.ofInt32 word) rest
  rw [Bytes.ofInt32_length] at h
  rw [int32, bind_ok h, Bytes.toInt32_ofInt32]
  rfl

theorem int64_append (field : Field) (word : Int64) (rest : Bytes) :
    int64 field (Bytes.ofInt64 word ++ rest) = .ok (word, rest) := by
  have h := bytes_append field (Bytes.ofInt64 word) rest
  rw [Bytes.ofInt64_length] at h
  rw [int64, bind_ok h, Bytes.toInt64_ofInt64]
  rfl

theorem count_append (field : Field) {n : Nat} (hn : n < 2 ^ 31) (rest : Bytes) :
    count field (countBytes n ++ rest) = .ok (n, rest) := by
  have hvalue : (Int32.ofNat n).toInt = n := Int32.toInt_ofNat_of_lt hn
  have hnot : ¬ Int32.ofNat n < 0 := by
    rw [Int32.lt_iff_toInt_lt, hvalue]
    simp
  rw [count, countBytes, bind_ok (int32_append field _ rest), if_neg hnot, hvalue]
  rfl

theorem ticks_append {base : Int64} {entry : Entry} (h : Spanned base entry) (rest : Bytes) :
    ticks base (Bytes.ofInt32 (delta base entry) ++ rest) = .ok (entry.ticks, rest) := by
  have hsum : base.toInt + (delta base entry).toInt = entry.ticks.toInt := by
    rw [delta_toInt h]
    omega
  rw [ticks, bind_ok (int32_append .delta _ rest), hsum, if_pos (Ticks.representable_toInt _),
    Int64.ofInt_toInt]
  rfl

theorem header_append (base : Int64) (rest : Bytes) :
    header (headerBytes base ++ rest) = .ok (base, rest) := by
  rw [header, headerBytes, List.append_assoc, bind_ok (int64_append .version version _)]
  exact int64_append .baseTicks base rest

theorem many_flatMap (item : Reader β) (encode : α → Bytes) (value : α → β) {rows : List α}
    (h : ∀ a ∈ rows, ∀ rest, item (encode a ++ rest) = .ok (value a, rest)) (rest : Bytes) :
    many item rows.length (rows.flatMap encode ++ rest) = .ok (rows.map value, rest) := by
  induction rows with
  | nil => rfl
  | cons a rows ih =>
    have hhead := h a List.mem_cons_self
    have htail := ih fun b hb => h b (List.mem_cons_of_mem a hb)
    rw [List.flatMap_cons, List.append_assoc, List.length_cons, many, bind_ok (hhead _),
      bind_ok htail]
    rfl

end Reader

end Payload

end MetricReporting
