import MetricReporting.Proofs.Toml.Quotation
import MetricReporting.Toml.Writer

/-!
# The ways of quoting

Whatever way of quoting is chosen for a text, what is written between the marks spells the text: a
literal one is chosen only for texts without anything to escape, and in a basic one everything that
could be taken for something else is escaped.
-/
namespace MetricReporting.Toml

open Text (hexNumber?_byte)

variable {style : Style} {text written rest : List Char} {marks : Nat}

/-! ## Escapes -/

theorem digitValue_upperHexDigit {n : Nat} (h : n < 16) :
    Text.digitValue 16 (upperHexDigit n) = some n := by
  have hall : ∀ n : Fin 16, Text.digitValue 16 (upperHexDigit n) = some n.val := by decide
  exact hall ⟨n, h⟩

theorem isControl_lt {c : Char} (h : isControl c = true) : c.toNat < 0x80 := by
  simp only [isControl, Bool.or_eq_true, Bool.and_eq_true, decide_eq_true_eq] at h
  omega

theorem escaped?_byte {c high low : Char} (hsmall : c.toNat < 0xD800)
    (hhigh : Text.digitValue 16 high = some (c.toNat / 16))
    (hlow : Text.digitValue 16 low = some (c.toNat % 16)) (rest : List Char) :
    escaped? (['u', '0', '0', high, low] ++ rest) = some (c, 5) := by
  have hscalar : scalar? c.toNat = some c := by
    rw [scalar?, if_pos (Or.inl hsmall), Char.ofNat_toNat]
  show ((Text.hexNumber? 4 ('0' :: '0' :: high :: low :: rest)).bind scalar?).map
    (fun c => (c, 5)) = _
  rw [hexNumber?_byte hhigh hlow, Option.bind_some, hscalar]
  rfl

theorem spells_escape (hescapes : style.hasEscapes = true) (c : Char)
    (h : style.Spells 0 text written) :
    style.Spells marks (c :: text) ((escape c).toList ++ written) := by
  have hmark : style.mark = '"' := of_decide_eq_true hescapes
  unfold escape
  split
  iterate 7 exact .escaped [_] hescapes (fun _ => rfl) (fun _ => rfl) h
  rename_i hquote hbackslash
  split
  · rename_i hcontrol
    have hsmall := isControl_lt hcontrol
    simp only [String.toList_append, String.toList_ofList]
    exact .escaped ['u', '0', '0', _, _] hescapes (escaped?_byte (by omega)
      (digitValue_upperHexDigit (by omega)) (digitValue_upperHexDigit (by omega))) (fun _ => rfl) h
  · rename_i hvisible
    rw [Char.toString_eq_singleton, String.toList_singleton]
    exact .plain (hmark ▸ hquote) (fun _ => hbackslash) (fun hcontrol => absurd hcontrol hvisible) h

theorem spells_escapeAll (isLong : Bool) (text : List Char) (marks : Nat) :
    Style.Spells ⟨'"', isLong⟩ marks text
      ((escapeAll isLong marks text).flatMap String.toList) := by
  induction text generalizing marks with
  | nil => exact .done
  | cons c text ih =>
    rw [escapeAll]
    split
    · rename_i hline
      simp only [Bool.and_eq_true, decide_eq_true_eq] at hline
      obtain ⟨hlong, rfl⟩ := hline
      exact .plain (by decide : '\n' ≠ '"') (fun _ => by decide) (fun _ => ⟨rfl, hlong⟩) (ih 0)
    · split
      · rename_i hmark
        simp only [Bool.and_eq_true, decide_eq_true_eq] at hmark
        obtain ⟨⟨hlong, rfl⟩, hfew⟩ := hmark
        exact .mark hlong hfew (ih (marks + 1))
      · exact spells_escape rfl c (ih 0)

/-! ## Texts as they are -/

/-- One character more of a text: the longest run so far and the one at its end. -/
def runStep (wanted : Char) : Nat × Nat → Char → Nat × Nat :=
  fun (most, length) c =>
    let length := if c = wanted then length + 1 else 0
    (max most length, length)

theorem le_foldl_runStep (wanted : Char) (text : List Char) (runs : Nat × Nat) :
    runs.1 ≤ (text.foldl (runStep wanted) runs).1 := by
  induction text generalizing runs with
  | nil => exact Nat.le_refl _
  | cons c text ih => exact Nat.le_trans (Nat.le_max_left _ _) (ih (runStep wanted runs c))

theorem spells_raw (hraw : style.hasEscapes = false)
    (hcontrol : ∀ c ∈ text, isControl c = true → c = '\n' ∧ style.isLong = true) {most : Nat}
    (hruns : (text.foldl (runStep style.mark) (most, marks)).1 < if style.isLong then 3 else 1) :
    style.Spells marks text text := by
  induction text generalizing most marks with
  | nil => exact .done
  | cons c text ih =>
    have hothers := fun c hmem => hcontrol c (List.mem_cons_of_mem _ hmem)
    by_cases hmark : c = style.mark
    · rw [List.foldl_cons, runStep, if_pos hmark] at hruns
      have hrun := Nat.lt_of_le_of_lt (le_foldl_runStep style.mark text _) hruns
      rw [hmark]
      cases hlong : style.isLong with
      | false =>
        rw [hlong] at hrun
        simp only [Bool.false_eq_true, if_false] at hrun
        omega
      | true =>
        -- the run that ends here is not longer than the longest of all
        rw [hlong] at hrun
        simp only [if_true] at hrun
        exact .mark hlong (by omega) (ih hothers hruns)
    · rw [List.foldl_cons, runStep, if_neg hmark] at hruns
      exact .plain hmark (fun hescapes => absurd hescapes (by rw [hraw]; exact Bool.false_ne_true))
        (hcontrol c List.mem_cons_self) (ih hothers hruns)

theorem Style.holds_spells (h : style.holds text = true) (hraw : style.hasEscapes = false) :
    style.Spells 0 text text := by
  simp only [Style.holds, Bool.and_eq_true, Bool.or_eq_true, Bool.not_eq_true',
    decide_eq_true_eq] at h
  obtain ⟨⟨⟨hvisible, -⟩, hruns⟩, hlines⟩ := h
  refine spells_raw hraw (fun c hmem hcontrol => ?_) hruns
  have hline : c = '\n' := by
    have hno := List.any_eq_false.1 hvisible c hmem
    simpa [hcontrol] using hno
  refine ⟨hline, hlines.resolve_right fun hnone => ?_⟩
  rw [← hline] at hnone
  simp only [List.contains_eq_mem, decide_eq_false_iff_not] at hnone
  exact hnone hmem

/-! ## The way that is chosen -/

def Style.between (style : Style) (text : List Char) : List Char :=
  if style.hasEscapes then (escapeAll style.isLong 0 text).flatMap String.toList else text

theorem Style.for_mem (text : List Char) :
    Style.for text ∈ [basic, literal, longBasic, longLiteral] := by
  unfold Style.for
  cases hfound : [basic, literal, longBasic, longLiteral].find? fun style => style.holds text with
  | some style => exact List.mem_of_find?_eq_some hfound
  | none =>
    rw [Option.getD_none]
    split <;> decide

theorem Style.isProper_of_mem (h : style ∈ [basic, literal, longBasic, longLiteral]) :
    style.IsProper := by
  simp only [List.mem_cons, List.not_mem_nil, or_false] at h
  rcases h with rfl | rfl | rfl | rfl
  · exact Or.inl rfl
  · exact Or.inr rfl
  · exact Or.inl rfl
  · exact Or.inr rfl

theorem Style.for_holds (hraw : (Style.for text).hasEscapes = false) :
    (Style.for text).holds text = true := by
  unfold Style.for at hraw ⊢
  cases hfound : [basic, literal, longBasic, longLiteral].find? fun style => style.holds text with
  | some style =>
    have hholds := List.find?_some hfound
    exact hholds
  | none =>
    rw [hfound, Option.getD_none] at hraw
    split at hraw <;> cases hraw

theorem Style.for_spells (text : List Char) :
    (Style.for text).Spells 0 text ((Style.for text).between text) := by
  unfold Style.between
  cases hescapes : (Style.for text).hasEscapes with
  | false => exact Style.holds_spells (Style.for_holds hescapes) hescapes
  | true =>
    have hmark : (Style.for text).mark = '"' := of_decide_eq_true hescapes
    have hspells := spells_escapeAll (Style.for text).isLong text 0
    rw [← hmark] at hspells
    exact hspells

end MetricReporting.Toml
