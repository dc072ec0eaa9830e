import MetricReporting.Json.Reader
import MetricReporting.Json.Writer
import MetricReporting.Proofs.Text.Numerals

/-!
# Quoted texts of JSON read back

Every character of a text is written as one piece, and the pieces of a quoted text are the
characters of the text.
-/
namespace MetricReporting.Json

open Text (hexDigit digitValue_hexDigit hexNumber?_byte)

theorem characters?_unit {n : Nat} (h : n < 0xD800) (pieces : List Piece) :
    characters? (.unit n :: pieces) = (characters? pieces).map (Char.ofNat n :: ·) := by
  have hnot : ¬ (0xD800 ≤ n ∧ n < 0xDC00) := by omega
  have hnot' : ¬ (0xDC00 ≤ n ∧ n < 0xE000) := by omega
  have hnot'' : ¬ (0xD800 ≤ n ∧ n < 0xE000) := by omega
  cases pieces with
  | nil => simp only [characters?, if_neg hnot'']
  | cons piece pieces =>
    cases piece with
    | character c => simp only [characters?, if_neg hnot'']
    | unit low => simp only [characters?, if_neg hnot, if_neg hnot']

structure Piece.Spells (piece : Piece) (c : Char) (spelling : List Char) : Prop where
  scan (rest : List Char) : quotation.scan 0 (spelling ++ rest) =
    (quotation.scan 0 rest).map fun (pieces, after) => (piece :: pieces, after)
  characters (pieces : List Piece) :
    characters? (piece :: pieces) = (characters? pieces).map (c :: ·)

theorem Piece.spells_unit {n : Nat} (hsmall : n < 0xD800) {high low : Char}
    (hhex : ∀ rest, Text.hexNumber? 4 ('0' :: '0' :: high :: low :: rest) = some n) :
    (Piece.unit n).Spells (Char.ofNat n) ['\\', 'u', '0', '0', high, low] where
  scan rest := by
    have hpiece : quotation.piece? '\\' ('u' :: '0' :: '0' :: high :: low :: rest) =
        some (.unit n, 5) := congrArg (Option.map fun n => (Piece.unit n, 5)) (hhex rest)
    simp only [List.cons_append, List.nil_append, Text.Quotation.scan, hpiece]
    rfl
  characters := characters?_unit hsmall

theorem Piece.spells_character {c : Char} (hquote : c ≠ '"') (hbackslash : c ≠ '\\')
    (hvisible : ¬ c.toNat < 0x20) : (Piece.character c).Spells c [c] where
  scan rest := by
    have hclose : quotation.close? (c :: rest) = none := by
      simp only [quotation]
      split
      · rename_i heq
        exact absurd (List.cons.inj heq).1 hquote
      · rfl
    have hpiece : quotation.piece? c rest = some (.character c, 0) := by
      simp only [quotation, if_neg hbackslash, if_neg hvisible]
    simp only [List.cons_append, List.nil_append, Text.Quotation.scan, hclose, hpiece]
  characters _ := rfl

theorem spells_written (c : Char) : ∃ piece : Piece, piece.Spells c (written c).toList := by
  unfold written
  split
  iterate 7 exact ⟨.character _, fun _ => rfl, fun _ => rfl⟩
  rename_i hquote hbackslash _ _ _ _ _
  split
  · rename_i hcontrol
    have hspells := Piece.spells_unit (n := c.toNat) (by omega) (hexNumber?_byte
      (digitValue_hexDigit (n := c.toNat / 16) (by omega))
      (digitValue_hexDigit (n := c.toNat % 16) (by omega)))
    rw [Char.ofNat_toNat] at hspells
    simp only [String.toList_append, String.toList_ofList]
    exact ⟨.unit c.toNat, hspells⟩
  · rename_i hvisible
    rw [Char.toString_eq_singleton, String.toList_singleton]
    exact ⟨.character c, Piece.spells_character hquote hbackslash hvisible⟩

def body (text : List Char) : List Char :=
  text.flatMap fun c => (written c).toList

theorem toList_quote (text : String) :
    (quote text).toList = '"' :: (body text.toList ++ ['"']) := by
  rw [quote, String.toList_append, String.toList_append, String.toList_join, List.flatMap_map]
  rfl

theorem scan_body (text rest : List Char) :
    ∃ pieces, quotation.scan 0 (body text ++ '"' :: rest) = some (pieces, rest) ∧
      characters? pieces = some text := by
  induction text with
  | nil => exact ⟨[], rfl, rfl⟩
  | cons c text ih =>
    obtain ⟨piece, hspells⟩ := spells_written c
    obtain ⟨pieces, hscan, hread⟩ := ih
    refine ⟨piece :: pieces, ?_, ?_⟩
    · rw [body, List.flatMap_cons, List.append_assoc, hspells.scan]
      change (quotation.scan 0 (body text ++ '"' :: rest)).map _ = _
      rw [hscan]
      rfl
    · rw [hspells.characters, hread]
      rfl

theorem quoted_body (text : String) (rest : List Char) :
    quoted (body text.toList ++ '"' :: rest) = some (some text, rest) := by
  obtain ⟨pieces, hscan, hread⟩ := scan_body text.toList rest
  rw [quoted, hscan]
  simp only [Option.map_some, hread, String.ofList_toList]

end MetricReporting.Json
