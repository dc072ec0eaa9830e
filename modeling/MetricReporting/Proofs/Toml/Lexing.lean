import MetricReporting.Proofs.Toml.Spelling

/-!
# Tokens of TOML found again

What is written for a text, a word, a mark or a line end is the one token, whatever follows, as long
as that cannot be taken for a part of it.
-/
namespace MetricReporting.Toml

variable {style : Style} {text written rest : List Char} {marks : Nat}

/-! ## Behind the opening marks -/

theorem Style.Spells.lead_short (h : style.Spells marks text written)
    (hshort : style.isLong = false)
    (hproper : style.IsProper) (hrest : rest.head? ≠ some style.mark) :
    lead style.mark (written ++ (style.delimiter ++ rest)) ≤ 1 := by
  cases h with
  | done =>
    simp only [List.nil_append, Style.delimiter, hshort, Bool.false_eq_true, if_false,
      lead_replicate _ _ hrest, Nat.le_refl]
  | mark hlong => rw [hshort] at hlong; cases hlong
  | plain hne =>
    rw [List.cons_append, lead_cons_of_ne hne]
    exact Nat.zero_le 1
  | escaped =>
    rw [List.cons_append, lead_cons_of_ne hproper.ne_backslash.symm]
    exact Nat.zero_le 1

theorem afterNewline?_of_ne {c : Char} (hline : c ≠ '\n') (hreturn : c ≠ '\r') (text : List Char) :
    afterNewline? (c :: text) = none := by
  unfold afterNewline?
  split
  · rename_i heq
    exact absurd (List.cons.inj heq).1 hline
  · rename_i heq
    exact absurd (List.cons.inj heq).1 hreturn
  · rfl

theorem Style.Spells.afterNewline?_eq (h : style.Spells marks text written) (hlines : '\n' ∉ text)
    (hproper : style.IsProper) : afterNewline? (written ++ (style.delimiter ++ rest)) = none := by
  have hmark : style.mark ≠ '\n' ∧ style.mark ≠ '\r' := by
    rcases hproper with hquote | hquote <;> rw [hquote] <;> decide
  cases h with
  | done =>
    unfold Style.delimiter
    cases style.isLong <;> exact afterNewline?_of_ne hmark.1 hmark.2 _
  | mark => exact afterNewline?_of_ne hmark.1 hmark.2 _
  | @plain _ c _ _ _ _ hcontrol =>
    have hline : c ≠ '\n' := fun heq => hlines (heq ▸ List.mem_cons_self)
    refine afterNewline?_of_ne hline (fun hreturn => hline ?_) _
    rw [hreturn] at hcontrol ⊢
    exact (hcontrol rfl).1
  | escaped => exact afterNewline?_of_ne (by decide) (by decide) _

def Style.opening (style : Style) (text : List Char) : List Char :=
  if style.isLong && text.contains '\n' then ['\n'] else []

theorem content_opening (h : style.Spells 0 text written) (hproper : style.IsProper)
    (hrest : rest.head? ≠ some style.mark) :
    style.content (style.opening text ++ (written ++ (style.delimiter ++ rest))) =
      some (.quoted style.isLong (String.ofList text), rest) := by
  obtain ⟨pieces, hscan, hread⟩ := h.scan (Nat.zero_le 2) hproper hrest
  have hskipped : (if style.isLong then
      (afterNewline? (style.opening text ++ (written ++ (style.delimiter ++ rest)))).getD
        (style.opening text ++ (written ++ (style.delimiter ++ rest)))
      else style.opening text ++ (written ++ (style.delimiter ++ rest))) =
      written ++ (style.delimiter ++ rest) := by
    unfold Style.opening
    cases hlong : style.isLong with
    | false => rfl
    | true =>
      by_cases hline : '\n' ∈ text
      · have hcontains : text.contains '\n' = true := List.contains_iff_mem.2 hline
        rw [hcontains]
        rfl
      · have hcontains : text.contains '\n' = false := by
          rw [← Bool.not_eq_true, List.contains_iff_mem]
          exact hline
        rw [hcontains]
        simp only [if_true, Bool.and_false, Bool.false_eq_true, if_false, List.nil_append,
          h.afterNewline?_eq hline hproper, Option.getD_none]
  simp only [Style.content, hskipped, hscan, Option.map_some, hread]

/-! ## The opening marks -/

def opened? (text : List Char) : Option (Style × List Char) :=
  [longBasic, longLiteral, basic, literal].findSome? fun style =>
    (Text.after? style.delimiter text).map fun rest => (style, rest)

theorem opened?_of_ne {c : Char} (hquote : c ≠ '"') (hapostrophe : c ≠ '\'') (text : List Char) :
    opened? (c :: text) = none := by
  simp only [opened?, List.findSome?_cons, List.findSome?_nil, Style.delimiter, longBasic,
    longLiteral, basic, literal, if_true, Bool.false_eq_true, if_false, List.replicate, Text.after?,
    if_neg hquote, if_neg hapostrophe, Option.map_none]

theorem opened?_delimiter (hmem : style ∈ [basic, literal, longBasic, longLiteral])
    (text : List Char)
    (hlead : style.isLong = false → lead style.mark text ≤ 1) :
    opened? (style.delimiter ++ text) = some (style, text) := by
  have hlonger : ∀ mark, lead mark text ≤ 1 →
      Text.after? (List.replicate 3 mark) (mark :: text) = none := fun mark hle => by
    rw [after?_replicate, lead_cons_self, if_neg (by omega)]
  have hself : Text.after? style.delimiter (style.delimiter ++ text) = some text :=
    Text.after?_eq_some_iff.2 rfl
  simp only [List.mem_cons, List.not_mem_nil, or_false] at hmem
  rcases hmem with rfl | rfl | rfl | rfl
  · have hlongBasic : Text.after? longBasic.delimiter (basic.delimiter ++ text) = none :=
      hlonger '"' (hlead rfl)
    have hlongLiteral : Text.after? longLiteral.delimiter (basic.delimiter ++ text) = none := rfl
    simp only [opened?, List.findSome?_cons, hlongBasic, hlongLiteral, hself, Option.map_none,
      Option.map_some]
  · have hlongBasic : Text.after? longBasic.delimiter (literal.delimiter ++ text) = none := rfl
    have hlongLiteral : Text.after? longLiteral.delimiter (literal.delimiter ++ text) = none :=
      hlonger '\'' (hlead rfl)
    have hbasic : Text.after? basic.delimiter (literal.delimiter ++ text) = none := rfl
    simp only [opened?, List.findSome?_cons, hlongBasic, hlongLiteral, hbasic, hself,
      Option.map_none, Option.map_some]
  · simp only [opened?, List.findSome?_cons, hself, Option.map_some]
  · have hlongBasic : Text.after? longBasic.delimiter (longLiteral.delimiter ++ text) = none := rfl
    simp only [opened?, List.findSome?_cons, hlongBasic, hself, Option.map_none, Option.map_some]

theorem toList_quote (text : String) : (quote text).toList =
    (Style.for text.toList).delimiter ++ ((Style.for text.toList).opening text.toList ++
      ((Style.for text.toList).between text.toList ++ (Style.for text.toList).delimiter)) := by
  have hopening : (if (Style.for text.toList).isLong && text.toList.contains '\n' then
      String.ofList (Style.for text.toList).delimiter ++ "\n"
      else String.ofList (Style.for text.toList).delimiter).toList =
      (Style.for text.toList).delimiter ++ (Style.for text.toList).opening text.toList := by
    unfold Style.opening
    split
    · simp only [String.toList_append, String.toList_ofList]
      rfl
    · rw [String.toList_ofList, List.append_nil]
  have hcontent : (if (Style.for text.toList).hasEscapes then
      String.join (escapeAll (Style.for text.toList).isLong 0 text.toList) else text).toList =
      (Style.for text.toList).between text.toList := by
    unfold Style.between
    split
    · exact String.toList_join
    · rfl
  simp only [quote, String.toList_append, hopening, hcontent, String.toList_ofList,
    List.append_assoc]

theorem Style.delimiter_cons (style : Style) :
    ∃ others, style.delimiter = style.mark :: others := by
  unfold Style.delimiter
  cases style.isLong <;> exact ⟨_, rfl⟩

theorem quote_head (text : String) :
    ∃ c others, (quote text).toList = c :: others ∧ isBlank c = false := by
  obtain ⟨others, hdelimiter⟩ := (Style.for text.toList).delimiter_cons
  rw [toList_quote, hdelimiter]
  refine ⟨_, _, rfl, ?_⟩
  rcases Style.isProper_of_mem (Style.for_mem text.toList) with hmark | hmark
  · rw [hmark]
    rfl
  · rw [hmark]
    rfl

/-! ## Tokens -/

theorem token_quoted {c : Char} (h : opened? (c :: text) = some (style, rest)) :
    token c text = style.content rest := by
  unfold opened? at h
  simp only [token, h]

def EndsQuotation (text : List Char) : Prop :=
  ∀ c ∈ text.head?, c ≠ '"' ∧ c ≠ '\''

theorem EndsQuotation.head?_ne (h : EndsQuotation rest) (hproper : style.IsProper) :
    rest.head? ≠ some style.mark := by
  intro heq
  obtain ⟨hquote, hapostrophe⟩ := h style.mark heq
  rcases hproper with hmark | hmark
  · exact hquote hmark
  · exact hapostrophe hmark

theorem token_quote (text : String) (hrest : EndsQuotation rest) : ∃ c tail,
    (quote text).toList ++ rest = c :: tail ∧ rest.length ≤ tail.length ∧
      token c tail = some (.quoted (Style.for text.toList).isLong text, rest) := by
  have hmem := Style.for_mem text.toList
  have hspells := Style.for_spells text.toList
  rw [toList_quote]
  generalize Style.for text.toList = style at *
  have hproper := Style.isProper_of_mem hmem
  have hhead := hrest.head?_ne hproper
  have hopened := opened?_delimiter hmem (style.opening text.toList ++
    (style.between text.toList ++ (style.delimiter ++ rest))) fun hshort => by
      have hnone : style.opening text.toList = [] := by rw [Style.opening, hshort]; rfl
      rw [hnone, List.nil_append]
      exact hspells.lead_short hshort hproper hhead
  have hcontent := content_opening hspells hproper hhead
  rw [String.ofList_toList] at hcontent
  obtain ⟨others, hdelimiter⟩ := style.delimiter_cons
  rw [hdelimiter, List.cons_append, ← hdelimiter] at hopened
  refine ⟨style.mark, others ++ (style.opening text.toList ++
    (style.between text.toList ++ (style.delimiter ++ rest))), ?_, ?_, ?_⟩
  · rw [← List.cons_append, ← hdelimiter]
    simp only [List.append_assoc]
  · simp only [List.length_append]
    omega
  · rw [token_quoted hopened, hcontent]

/-- The tokens of a text, found in as many steps as it has characters. -/
def Lexes (text : List Char) (found : List Token) : Prop :=
  ∀ fuel, text.length ≤ fuel → tokens fuel text = some found

namespace Lexes

variable {found : List Token}

theorem nil : Lexes [] [] := by
  intro fuel _
  cases fuel <;> rfl

theorem cons {c : Char} {next : Token} (htoken : token c text = some (next, rest))
    (hlength : rest.length ≤ text.length) (h : Lexes rest found) :
    Lexes (c :: text) (next :: found) := by
  intro fuel hfuel
  rw [List.length_cons] at hfuel
  obtain ⟨fuel, rfl⟩ : ∃ more, fuel = more + 1 := ⟨fuel - 1, by omega⟩
  rw [tokens, htoken]
  simp only [Option.bind_eq_bind, Option.bind_some, h fuel (by omega)]

theorem quote (text : String) (hrest : EndsQuotation rest) (h : Lexes rest found) :
    Lexes ((Toml.quote text).toList ++ rest)
      (.quoted (Style.for text.toList).isLong text :: found) := by
  obtain ⟨c, tail, htext, hlength, htoken⟩ := token_quote text hrest
  rw [htext]
  exact cons htoken hlength h

theorem newline (h : Lexes rest found) : Lexes ('\n' :: rest) (.newline :: found) :=
  cons rfl (Nat.le_refl _) h

theorem equals (h : Lexes rest found) : Lexes ('=' :: rest) (.mark '=' :: found) :=
  cons rfl (Nat.le_refl _) h

theorem opening (h : Lexes rest found) : Lexes ('[' :: rest) (.mark '[' :: found) :=
  cons rfl (Nat.le_refl _) h

theorem closing (h : Lexes rest found) : Lexes (']' :: rest) (.mark ']' :: found) :=
  cons rfl (Nat.le_refl _) h

theorem blank (hrest : ∀ c ∈ rest.head?, isBlank c = false) (h : Lexes rest found) :
    Lexes (' ' :: rest) (.blank " " :: found) := by
  refine cons ?_ (Nat.le_refl _) h
  have htake : rest.takeWhile isBlank = [] := by
    cases rest with
    | nil => rfl
    | cons c rest => rw [List.takeWhile_cons_of_neg (by simp [hrest c rfl])]
  have hdrop : rest.dropWhile isBlank = rest := by
    cases rest with
    | nil => rfl
    | cons c rest => rw [List.dropWhile_cons_of_neg (by simp [hrest c rfl])]
  have hrun : run isBlank (' ' :: rest) = (" ", rest) := by
    rw [run, List.takeWhile_cons_of_pos rfl, List.dropWhile_cons_of_pos rfl, htake, hdrop]
  have htoken : token ' ' rest =
      some (.blank (run isBlank (' ' :: rest)).1, (run isBlank (' ' :: rest)).2) := rfl
  rw [htoken, hrun]

end Lexes

/-! ## Words -/

theorem isBare.ne {c other : Char} (h : isBare c = true) (hother : isBare other = false) :
    c ≠ other := by
  rintro rfl
  rw [hother] at h
  cases h

def wordEnds : List Char :=
  ['.', '=', ',', '[', ']', '\x7b', '\x7d', ' ', '\t', '\n', '\r', '#']

theorem endsWord_of_isBare {c : Char} (h : isBare c = true) : endsWord c = false := by
  refine Bool.eq_false_iff.2 fun hends => ?_
  have hcases : c ∈ wordEnds := by
    simpa [wordEnds, endsWord, isMark, isBlank, or_assoc] using hends
  have hall : (wordEnds.all fun other => !isBare other) = true := by decide
  have hnone := List.all_eq_true.1 hall c hcases
  rw [h] at hnone
  cases hnone

def EndsWord (text : List Char) : Prop :=
  ∀ c ∈ text.head?, endsWord c = true

theorem run_word {word : List Char} (hword : ∀ c ∈ word, isBare c = true) (hrest : EndsWord rest) :
    run (fun c => !endsWord c) (word ++ rest) = (String.ofList word, rest) := by
  have hall : ∀ c ∈ word, (!endsWord c) = true := fun c hmem => by
    rw [endsWord_of_isBare (hword c hmem)]
    rfl
  have htake : rest.takeWhile (fun c => !endsWord c) = [] := by
    cases rest with
    | nil => rfl
    | cons c rest => rw [List.takeWhile_cons_of_neg (by simp [hrest c rfl])]
  have hdrop : rest.dropWhile (fun c => !endsWord c) = rest := by
    cases rest with
    | nil => rfl
    | cons c rest => rw [List.dropWhile_cons_of_neg (by simp [hrest c rfl])]
  rw [run, List.takeWhile_append_of_pos hall, List.dropWhile_append_of_pos hall, htake, hdrop,
    List.append_nil]

theorem token_word {c : Char} (hc : isBare c = true) (text : List Char) :
    token c text = some (.word (run (fun c => !endsWord c) (c :: text)).1,
      (run (fun c => !endsWord c) (c :: text)).2) := by
  have hopened : opened? (c :: text) = none :=
    opened?_of_ne (isBare.ne hc rfl) (isBare.ne hc rfl) text
  have hline : afterNewline? (c :: text) = none :=
    afterNewline?_of_ne (isBare.ne hc rfl) (isBare.ne hc rfl) text
  have hends := endsWord_of_isBare hc
  simp only [endsWord, Bool.or_eq_false_iff, decide_eq_false_iff_not] at hends
  obtain ⟨⟨⟨⟨hmark, hblank⟩, -⟩, hreturn⟩, hhash⟩ := hends
  unfold opened? at hopened
  simp only [token, hopened, hline, if_neg hreturn, hmark, hblank, if_neg hhash, Bool.false_eq_true,
    if_false]

namespace Lexes

variable {found : List Token}

theorem word {word : List Char} (hne : word ≠ []) (hword : ∀ c ∈ word, isBare c = true)
    (hrest : EndsWord rest) (h : Lexes rest found) :
    Lexes (word ++ rest) (.word (String.ofList word) :: found) := by
  have hrun := run_word hword hrest
  cases word with
  | nil => exact absurd rfl hne
  | cons c word =>
    rw [List.cons_append] at hrun ⊢
    refine cons ((token_word (hword c List.mem_cons_self) _).trans ?_) ?_ h
    · rw [hrun]
    · simp only [List.length_append]
      omega

end Lexes

end MetricReporting.Toml
