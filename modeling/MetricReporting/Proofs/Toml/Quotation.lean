import MetricReporting.Proofs.Text.Numerals
import MetricReporting.Toml.Token

/-!
# Quoted texts of TOML read back

A text is spelled between its marks character by character: as it is, as an escape, or, in a long
text, as a mark that does not make three in a row. However it is spelled, its characters are read.
-/
namespace MetricReporting

theorem Text.Quotation.scan_skip {π : Type} (quotation : Text.Quotation π)
    (passed text : List Char) :
    quotation.scan passed.length (passed ++ text) = quotation.scan 0 text := by
  induction passed with
  | nil => rfl
  | cons c passed ih => exact ih

theorem Text.Quotation.scan_close {π : Type} {quotation : Text.Quotation π} {c : Char}
    {text : List Char} {ending : List π × List Char}
    (h : quotation.close? (c :: text) = some ending) :
    quotation.scan 0 (c :: text) = some ending := by
  simp only [scan, h]

theorem Text.Quotation.scan_piece {π : Type} {quotation : Text.Quotation π} {c : Char}
    {text rest : List Char} {piece : π} {more : Nat} {pieces : List π}
    (hopen : quotation.close? (c :: text) = none)
    (hpiece : quotation.piece? c text = some (piece, more))
    (h : quotation.scan more text = some (pieces, rest)) :
    quotation.scan 0 (c :: text) = some (piece :: pieces, rest) := by
  simp only [scan, hopen, hpiece, h, Option.map_some]

namespace Toml

/-! ## Marks in a row -/

def lead (mark : Char) (text : List Char) : Nat :=
  (text.takeWhile fun c => c == mark).length

theorem lead_cons_self (mark : Char) (text : List Char) :
    lead mark (mark :: text) = lead mark text + 1 := by
  rw [lead, List.takeWhile_cons_of_pos (by simp)]
  rfl

theorem lead_cons_of_ne {mark c : Char} (h : c ≠ mark) (text : List Char) :
    lead mark (c :: text) = 0 := by
  rw [lead, List.takeWhile_cons_of_neg (by simpa using h)]
  rfl

theorem lead_of_head {mark : Char} {text : List Char} (h : text.head? ≠ some mark) :
    lead mark text = 0 := by
  cases text with
  | nil => rfl
  | cons c text => exact lead_cons_of_ne (fun heq => h (congrArg some heq)) text

theorem lead_replicate (mark : Char) (count : Nat) {text : List Char}
    (h : text.head? ≠ some mark) : lead mark (List.replicate count mark ++ text) = count := by
  induction count with
  | zero => exact lead_of_head h
  | succ count ih => rw [List.replicate_succ, List.cons_append, lead_cons_self, ih]

theorem after?_replicate (mark : Char) (count : Nat) (text : List Char) :
    Text.after? (List.replicate count mark) text =
      if count ≤ lead mark text then some (text.drop count) else none := by
  induction count generalizing text with
  | zero => rfl
  | succ count ih =>
    cases text with
    | nil => rfl
    | cons c text =>
      rw [List.replicate_succ, Text.after?]
      by_cases h : c = mark
      · rw [if_pos h, ih, h, lead_cons_self, List.drop_succ_cons]
        simp only [Nat.add_le_add_iff_right]
      · rw [if_neg h, lead_cons_of_ne h, if_neg (Nat.not_succ_le_zero count)]

/-! ## The end of a quoted text -/

variable {style : Style} {text rest : List Char}

theorem close?_of_short (hshort : style.isLong = false) (hlead : lead style.mark text = 0) :
    style.close? text = none := by
  simp only [Style.close?, Style.delimiter, hshort, Bool.false_eq_true, if_false,
    List.replicate_append_replicate, after?_replicate, hlead]
  rfl

theorem close?_of_lt (hlong : style.isLong = true) (hlead : lead style.mark text < 3) :
    style.close? text = none := by
  have hnone : ∀ more, ¬ more + 3 ≤ lead style.mark text := fun more => by omega
  simp only [Style.close?, Style.delimiter, hlong, if_true, List.replicate_append_replicate,
    after?_replicate, if_neg (hnone _)]
  rfl

theorem close?_of_lead (hlong : style.isLong = true) (hlow : 3 ≤ lead style.mark text)
    (hhigh : lead style.mark text ≤ 5) : style.close? text =
      some (List.replicate (lead style.mark text - 3) (.plain style.mark),
        text.drop (lead style.mark text)) := by
  simp only [Style.close?, Style.delimiter, hlong, if_true, List.replicate_append_replicate,
    after?_replicate]
  obtain h | h | h :
      lead style.mark text = 3 ∨ lead style.mark text = 4 ∨ lead style.mark text = 5 := by
    omega
  all_goals
    rw [h]
    rfl

theorem close?_delimiter (hrest : rest.head? ≠ some style.mark) :
    style.close? (style.delimiter ++ rest) = some ([], rest) := by
  cases hlong : style.isLong with
  | false =>
    simp only [Style.close?, Style.delimiter, hlong, Bool.false_eq_true, if_false,
      List.replicate_append_replicate, after?_replicate, lead_replicate _ _ hrest]
    rfl
  | true =>
    have hlead : lead style.mark (style.delimiter ++ rest) = 3 := by
      simp only [Style.delimiter, hlong, if_true, lead_replicate _ _ hrest]
    rw [close?_of_lead hlong (by omega) (by omega), hlead]
    simp only [Style.delimiter, hlong, if_true]
    rfl

/-! ## Spelling -/

/-- How a text may be written between the marks of a style, behind so many marks of its own. -/
inductive Style.Spells (style : Style) : Nat → List Char → List Char → Prop
  | done {marks : Nat} : Spells style marks [] []
  | mark {marks : Nat} {text written : List Char} : style.isLong = true → marks < 2 →
      Spells style (marks + 1) text written →
      Spells style marks (style.mark :: text) (style.mark :: written)
  | plain {marks : Nat} {c : Char} {text written : List Char} : c ≠ style.mark →
      (style.hasEscapes = true → c ≠ '\\') → (isControl c = true → c = '\n' ∧ style.isLong = true) →
      Spells style 0 text written → Spells style marks (c :: text) (c :: written)
  | escaped {marks : Nat} {c : Char} (code : List Char) {text written : List Char} :
      style.hasEscapes = true →
      (∀ rest, escaped? (code ++ rest) = some (c, code.length)) →
      (∀ rest, endsLine (code ++ rest) = false) →
      Spells style 0 text written → Spells style marks (c :: text) ('\\' :: (code ++ written))

/-- Marks at the front together with those before it do not close a text, or they do, and leave what
the text needs. -/
def Spaced (marks ahead : Nat) : Prop :=
  marks + ahead ≤ 2 ∨ 3 ≤ ahead ∧ marks + ahead ≤ 5

theorem Spaced.one {marks ahead : Nat} (h : Spaced (marks + 1) ahead) : Spaced 1 ahead := by
  rcases h with hfew | ⟨hclosed, hmost⟩
  · exact Or.inl (by omega)
  · exact Or.inr ⟨hclosed, by omega⟩

def Style.IsProper (style : Style) : Prop :=
  style.mark = '"' ∨ style.mark = '\''

theorem Style.IsProper.ne_backslash (h : style.IsProper) : style.mark ≠ '\\' := by
  rcases h with h | h <;> rw [h] <;> decide

theorem piece?_plain {c : Char} (hbackslash : style.hasEscapes = true → c ≠ '\\')
    (hcontrol : isControl c = true → c = '\n' ∧ style.isLong = true) (rest : List Char) :
    style.piece? c rest = some (.plain c, 0) := by
  have hescape : ¬ (c = '\\' ∧ style.hasEscapes = true) := fun h => hbackslash h.2 h.1
  rw [Style.piece?, if_neg hescape]
  by_cases hline : c = '\n' ∨ c = '\r' ∧ rest.head? = some '\n'
  · have hlong : style.isLong = true := by
      rcases hline with rfl | ⟨rfl, -⟩
      · exact (hcontrol rfl).2
      · exact (hcontrol rfl).2
    rw [if_pos hline, if_pos hlong]
  · have hvisible : ¬ isControl c = true := fun h => hline (Or.inl (hcontrol h).1)
    rw [if_neg hline, if_neg hvisible]

theorem scan_mark (hproper : style.IsProper) (hlong : style.isLong = true) {pieces : List Piece}
    (hspaced : Spaced 1 (lead style.mark text))
    (hscan : style.quotation.scan 0 text = some (pieces, rest)) :
    style.quotation.scan 0 (style.mark :: text) = some (.plain style.mark :: pieces, rest) := by
  have hlead := lead_cons_self style.mark text
  rcases hspaced with hfew | ⟨hclosed, hmost⟩
  · have hcontrol : isControl style.mark = false := by rcases hproper with h | h <;> rw [h] <;> rfl
    exact Text.Quotation.scan_piece (close?_of_lt hlong (by omega)) (piece?_plain
      (fun _ => hproper.ne_backslash) (fun h => absurd h (by rw [hcontrol]; decide)) text) hscan
  · have hends := close?_of_lead hlong hclosed (by omega)
    cases text with
    | nil => cases hclosed
    | cons c text =>
      rw [Text.Quotation.scan_close hends] at hscan
      obtain ⟨rfl, rfl⟩ := Prod.mk.inj (Option.some.inj hscan)
      refine Text.Quotation.scan_close ((close?_of_lead hlong (by omega) (by omega)).trans ?_)
      rw [hlead, List.drop_succ_cons, Nat.sub_add_comm hclosed, List.replicate_succ]

theorem close?_of_ne {c : Char} (h : c ≠ style.mark) (text : List Char) :
    style.close? (c :: text) = none := by
  have hlead := lead_cons_of_ne h text
  cases hlong : style.isLong with
  | false => exact close?_of_short hlong hlead
  | true => exact close?_of_lt hlong (by omega)

namespace Style.Spells

variable {marks : Nat} {written : List Char}

theorem spaced (h : style.Spells marks text written) (hle : marks ≤ 2) (hlong : style.isLong = true)
    (hproper : style.IsProper) (hrest : rest.head? ≠ some style.mark) :
    Spaced marks (lead style.mark (written ++ (style.delimiter ++ rest))) := by
  induction h with
  | done =>
    have hlead : lead style.mark (style.delimiter ++ rest) = 3 := by
      simp only [Style.delimiter, hlong, if_true, lead_replicate _ _ hrest]
    rw [List.nil_append, hlead]
    exact Or.inr ⟨Nat.le_refl 3, by omega⟩
  | @mark marks _ written _ hlt _ ih =>
    change Spaced marks (lead style.mark (style.mark :: (written ++ (style.delimiter ++ rest))))
    rw [lead_cons_self]
    rcases ih (by omega) with hopen | ⟨hclosed, hfew⟩
    · exact Or.inl (by omega)
    · exact Or.inr ⟨by omega, by omega⟩
  | plain hne =>
    rw [List.cons_append, lead_cons_of_ne hne]
    exact Or.inl hle
  | escaped =>
    rw [List.cons_append, lead_cons_of_ne hproper.ne_backslash.symm]
    exact Or.inl hle

/-- However a text is spelled, its characters are read, up to the marks that close it. -/
theorem scan (h : style.Spells marks text written) (hle : marks ≤ 2) (hproper : style.IsProper)
    (hrest : rest.head? ≠ some style.mark) :
    ∃ pieces, style.quotation.scan 0 (written ++ (style.delimiter ++ rest)) = some (pieces, rest) ∧
      characters false pieces = text := by
  induction h with
  | done =>
    refine ⟨[], ?_, rfl⟩
    have hends := close?_delimiter hrest
    unfold Style.delimiter at hends ⊢
    cases hlong : style.isLong with
    | false =>
      rw [hlong] at hends
      exact Text.Quotation.scan_close hends
    | true =>
      rw [hlong] at hends
      exact Text.Quotation.scan_close hends
  | mark hlong hlt hspells ih =>
    -- with the marks that follow it, it is not taken for the beginning of those that close the text
    obtain ⟨pieces, hscan, hread⟩ := ih (by omega)
    have hspaced := hspells.spaced (by omega) hlong hproper hrest
    exact ⟨.plain style.mark :: pieces, scan_mark hproper hlong hspaced.one hscan, congrArg _ hread⟩
  | plain hne hbackslash hcontrol _ ih =>
    obtain ⟨pieces, hscan, hread⟩ := ih (by omega)
    exact ⟨.plain _ :: pieces, Text.Quotation.scan_piece (close?_of_ne hne _)
      (piece?_plain hbackslash hcontrol _) hscan, congrArg _ hread⟩
  | @escaped marks c code _ written hescapes hcode hline _ ih =>
    obtain ⟨pieces, hscan, hread⟩ := ih (by omega)
    have hpiece : style.piece? '\\' (code ++ (written ++ (style.delimiter ++ rest))) =
        some (.escaped c, code.length) := by
      simp only [Style.piece?, hescapes, hline, hcode, Bool.false_eq_true, and_false, if_false,
        and_self, if_true, Option.map_some]
    refine ⟨.escaped c :: pieces, ?_, congrArg _ hread⟩
    rw [List.cons_append, List.append_assoc]
    exact Text.Quotation.scan_piece (close?_of_ne hproper.ne_backslash.symm _) hpiece
      ((Text.Quotation.scan_skip _ code _).trans hscan)

end Style.Spells

end Toml

end MetricReporting
