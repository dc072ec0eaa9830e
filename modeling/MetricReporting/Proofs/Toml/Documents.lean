import MetricReporting.Proofs.Keyed
import MetricReporting.Proofs.Toml.Lexing
import MetricReporting.Proofs.Toml.Scalars
import Mathlib.Data.List.Nodup

/-!
# Documents of TOML read back

A document of plain fields and of tables with plain fields is read line by line as it was written: a
field goes to the end of the table that is being filled, a header begins a table at the end of the
document.
-/
namespace MetricReporting

namespace Toml

open Text (IsWord)

/-! ## Lines -/

inductive Told : Value → Token → Prop
  | boolean (value : Bool) : Told (.boolean value) (.word (if value then "true" else "false"))
  | integer {n : Int} : IsWord n → Told (.integer n) (.word (toString n))
  | text (isLong : Bool) (value : String) : Told (.text value) (.quoted isLong value)

theorem value_word (fuel room : Nat) (text : String) (rest : List Token) :
    value (fuel + 1) room (.word text :: .newline :: rest) =
      (unquoted? text).map fun value => (value, .newline :: rest) := by
  simp [value, unquoted, words]

theorem Told.value_eq {v : Value} {token : Token} (h : Told v token) (fuel room : Nat)
    (rest : List Token) :
    value (fuel + 1) room (token :: .newline :: rest) = some (v, .newline :: rest) := by
  cases h with
  | boolean value => rw [value_word, unquoted?_boolean]; rfl
  | integer hword => rw [value_word, unquoted?_integer hword]; rfl
  | text isLong value => simp only [Toml.value]

def IsBareKey (name : String) : Prop :=
  name ≠ "" ∧ name.toList.all isBare = true

instance (name : String) : Decidable (IsBareKey name) :=
  inferInstanceAs (Decidable (_ ∧ _))

theorem IsBareKey.toList_ne_nil {name : String} (h : IsBareKey name) : name.toList ≠ [] :=
  fun hnil => h.1 (String.toList_eq_nil_iff.1 hnil)

theorem IsBareKey.isBare_of_mem {name : String} (h : IsBareKey name) :
    ∀ c ∈ name.toList, isBare c = true :=
  List.all_eq_true.1 h.2

theorem key_equals {name : String} (h : IsBareKey name) (rest : List Token) :
    key (.word name :: .blank " " :: .mark '=' :: rest) =
      some (([], name), .blank " " :: .mark '=' :: rest) := by
  simp [key, keyPart?, h.2, keyRest, deepest]

theorem key_closing {name : String} (h : IsBareKey name) (rest : List Token) :
    key (.word name :: .mark ']' :: rest) = some (([], name), .mark ']' :: rest) := by
  simp [key, keyPart?, h.2, keyRest, deepest]

theorem skipBlanks_token {v : Value} {token : Token} (hv : Told v token) (rest : List Token) :
    skipBlanks (token :: rest) = token :: rest := by
  cases hv <;> rfl

theorem pair_field {name : String} (hname : IsBareKey name) {v : Value} {token : Token}
    (hv : Told v token) (fuel room : Nat) (rest : List Token) :
    pair (fuel + 2) room skipBlanks
      (.word name :: .blank " " :: .mark '=' :: .blank " " :: token :: .newline :: rest) =
      some ((([], name), v), .newline :: rest) := by
  have hequals : skipBlanks (.blank " " :: .mark '=' :: .blank " " :: token :: .newline :: rest) =
      .mark '=' :: .blank " " :: token :: .newline :: rest := rfl
  have hvalue : skipBlanks (.blank " " :: token :: .newline :: rest) = token :: .newline :: rest :=
    skipBlanks_token hv (.newline :: rest)
  rw [pair, key_equals hname]
  simp only [Option.bind_eq_bind, Option.bind_some, hequals, hvalue, hv.value_eq, Option.map_some]

theorem line_field {name : String} (hname : IsBareKey name) {v : Value} {token : Token}
    (hv : Told v token) (document : Document) (rest : List Token) :
    line document
      (.word name :: .blank " " :: .mark '=' :: .blank " " :: token :: .newline :: rest) =
      (document.assign ([], name) v).map fun document => (document, .newline :: rest) := by
  rw [line]
  · simp only [pair_field hname hv, Option.bind_eq_bind, Option.bind_some]
  · exact fun _ heq => by cases heq
  · exact fun _ heq => by cases heq

theorem line_header {name : String} (hname : IsBareKey name) (document : Document)
    (rest : List Token) : line document (.mark '[' :: .word name :: .mark ']' :: rest) =
      (document.openTable ([], name)).map fun document => (document, rest) := by
  simp [line, skipBlanks, key_closing hname]

/-! ## What is written on a line -/

def IsScalar : Value → Prop
  | .null | .boolean _ | .text _ => True
  | .integer n => IsWord n
  | _ => False

theorem endsWord_cons {c : Char} (h : endsWord c = true) (text : List Char) :
    EndsWord (c :: text) := by
  intro first hfirst
  rw [← Option.some.inj hfirst]
  exact h

theorem isBlank_cons {c : Char} (h : isBlank c = false) (text : List Char) :
    ∀ first ∈ (c :: text).head?, isBlank first = false := by
  intro first hfirst
  rw [← Option.some.inj hfirst]
  exact h

theorem lexes_word {word : String} (hword : IsBareKey word) {rest : List Char} {found : List Token}
    (h : Lexes rest found) : Lexes (' ' :: (word.toList ++ '\n' :: rest))
      (.blank " " :: .word word :: .newline :: found) := by
  have hlexes :=
    Lexes.word hword.toList_ne_nil hword.isBare_of_mem (endsWord_cons rfl rest) h.newline
  rw [String.ofList_toList] at hlexes
  refine .blank ?_ hlexes
  obtain ⟨first, others, hsplit⟩ := List.exists_cons_of_ne_nil hword.toList_ne_nil
  have hfirst := hword.isBare_of_mem first (by rw [hsplit]; exact List.mem_cons_self)
  have hends := endsWord_of_isBare hfirst
  simp only [endsWord, Bool.or_eq_false_iff] at hends
  rw [hsplit]
  exact isBlank_cons hends.1.1.1.2 _

theorem isBareKey_integer (n : Int) : IsBareKey (toString n) := by
  obtain ⟨first, text, htext, -⟩ := Text.toList_integer n
  refine ⟨fun hempty => ?_, List.all_eq_true.2 fun c hmem => ?_⟩
  · rw [hempty] at htext
    cases htext
  rw [Text.toList_toString_int] at hmem
  rcases List.mem_append.1 hmem with hsign | hdigit
  · unfold Text.minus at hsign
    split at hsign
    · rw [List.mem_singleton.1 hsign]
      rfl
    · cases hsign
  · simp only [isBare, Char.isAlphanum, Text.isDigit_toDigits _ c hdigit, Bool.or_true,
      Bool.true_or]

theorem lexes_inline {v : Value} (h : IsScalar v) (hnull : v ≠ .null) :
    ∃ token, Told v token ∧ ∀ {rest found}, Lexes rest found →
      Lexes (' ' :: ((writeInline v).toList ++ '\n' :: rest))
        (.blank " " :: token :: .newline :: found) := by
  cases v with
  | null => exact absurd rfl hnull
  | boolean value =>
    refine ⟨_, .boolean value, fun hrest => ?_⟩
    rw [writeInline]
    cases value with
    | true => exact lexes_word (by decide : IsBareKey "true") hrest
    | false => exact lexes_word (by decide : IsBareKey "false") hrest
  | integer n =>
    refine ⟨_, .integer h, fun hrest => ?_⟩
    rw [writeInline]
    exact lexes_word (isBareKey_integer n) hrest
  | text value =>
    refine ⟨_, .text (Style.for value.toList).isLong value, fun hrest => ?_⟩
    obtain ⟨first, others, hsplit, hvisible⟩ := quote_head value
    rw [writeInline]
    refine .blank ?_ (.quote value (fun c hc => ?_) hrest.newline)
    · rw [hsplit]
      exact isBlank_cons hvisible _
    · rw [← Option.some.inj hc]
      decide
  | fraction | list | record | unreadable => exact h.elim

/-! ## Reading on -/

/-- From this document on, a text is read as the rest of that one. It does not begin with a mark
that means nothing. -/
structure Reads (document : Document) (text : List Char) (final : Document) : Prop where
  lines : ∃ found, Lexes text found ∧ ∀ fuel, found.length < fuel →
    lines fuel document found = some final
  unmarked : ∀ c ∈ text.head?, c ≠ byteOrderMark

namespace Reads

variable {document next final : Document} {text : List Char} {name : String}

theorem nil (document : Document) : Reads document [] document where
  lines := by
    refine ⟨[], .nil, fun fuel hfuel => ?_⟩
    obtain ⟨fuel, rfl⟩ : ∃ more, fuel = more + 1 := ⟨fuel - 1, by omega⟩
    rfl
  unmarked := nofun

theorem newline (h : Reads document text final) : Reads document ('\n' :: text) final where
  lines := by
    obtain ⟨found, hlexes, hread⟩ := h.lines
    refine ⟨.newline :: found, hlexes.newline, fun fuel hfuel => ?_⟩
    rw [List.length_cons] at hfuel
    obtain ⟨fuel, rfl⟩ : ∃ more, fuel = more + 1 := ⟨fuel - 1, by omega⟩
    exact hread (fuel + 1) (by omega)
  unmarked := by
    intro c hc
    rw [← Option.some.inj hc]
    decide

theorem field (hname : IsBareKey name) {v : Value} (hv : IsScalar v) (hnull : v ≠ .null)
    (hassign : document.assign ([], name) v = some next) (h : Reads next text final) :
    Reads document
      (name.toList ++ ' ' :: '=' :: ' ' :: ((writeInline v).toList ++ '\n' :: text)) final where
  lines := by
    obtain ⟨found, hlexes, hread⟩ := h.lines
    obtain ⟨token, htold, hinline⟩ := lexes_inline hv hnull
    have hequals := (hinline hlexes).equals
    have hname' := Lexes.word hname.toList_ne_nil hname.isBare_of_mem
      (endsWord_cons rfl _) (.blank (isBlank_cons rfl _) hequals)
    rw [String.ofList_toList] at hname'
    refine ⟨_, hname', fun fuel hfuel => ?_⟩
    simp only [List.length_cons] at hfuel
    obtain ⟨fuel, rfl⟩ : ∃ more, fuel = more + 1 := ⟨fuel - 1, by omega⟩
    have hline := line_field hname htold document found
    rw [hassign, Option.map_some] at hline
    have hrest := hread fuel (by omega)
    simp only [Toml.lines, skipLines, hline, Option.bind_eq_bind, Option.bind_some, endOfLine,
      skipBlanks, hrest]
  unmarked := by
    intro c hc
    obtain ⟨first, others, hsplit⟩ := List.exists_cons_of_ne_nil hname.toList_ne_nil
    have hbare := hname.isBare_of_mem first (by rw [hsplit]; exact List.mem_cons_self)
    rw [hsplit] at hc
    rw [← Option.some.inj hc]
    exact isBare.ne hbare (by decide)

theorem header (hname : IsBareKey name) (hopen : document.openTable ([], name) = some next)
    (h : Reads next text final) :
    Reads document ('[' :: (name.toList ++ ']' :: '\n' :: text)) final where
  lines := by
    obtain ⟨found, hlexes, hread⟩ := h.lines
    have hname' := Lexes.word hname.toList_ne_nil hname.isBare_of_mem (endsWord_cons rfl _)
      hlexes.newline.closing
    rw [String.ofList_toList] at hname'
    refine ⟨_, hname'.opening, fun fuel hfuel => ?_⟩
    simp only [List.length_cons] at hfuel
    obtain ⟨fuel, rfl⟩ : ∃ more, fuel = more + 1 := ⟨fuel - 1, by omega⟩
    have hline := line_header hname document (.newline :: found)
    rw [hopen, Option.map_some] at hline
    have hrest := hread fuel (by omega)
    simp only [Toml.lines, skipLines, hline, Option.bind_eq_bind, Option.bind_some, endOfLine,
      skipBlanks, hrest]
  unmarked := by
    intro c hc
    rw [← Option.some.inj hc]
    decide

end Reads

/-! ## Tables being filled -/

def isNull : Value → Bool
  | .null => true
  | _ => false

def given (fields : List (String × Value)) : List (String × Value) :=
  fields.filter fun field => !isNull field.2

theorem given_cons {name : String} {v : Value} (hnull : v ≠ .null)
    (fields : List (String × Value)) :
    given ((name, v) :: fields) = (name, v) :: given fields := by
  refine List.filter_cons_of_pos ?_
  cases v with
  | null => exact absurd rfl hnull
  | _ => rfl

def closed (fields : List (String × Value)) : Entries :=
  fields.map fun field => (field.1, .closed field.2)

/-- Assigned keys go to the end of these entries of a document. -/
def Fills (place : Entries → Document) : Prop :=
  ∀ (entries : Entries) (name : String) (value : Value), name ∉ entries.map Prod.fst →
    (place entries).assign ([], name) value = some (place (entries ++ [(name, .closed value)]))

theorem assign_of_absent {entries : Entries} {name : String} (h : name ∉ entries.map Prod.fst)
    (value : Value) : Entries.assign [] name value .header entries =
      some (entries ++ [(name, .closed value)]) := by
  have hpath : ((Origin.header == .dotted) == ([] : List String).isEmpty) = false := rfl
  simp only [Entries.assign, Entries.change, hpath, Keyed.find?_of_absent h, Option.isSome_none,
    Bool.false_eq_true, if_false, Entries.put, Keyed.adjust_of_absent h]

theorem fills_top : Fills fun entries => ⟨entries, []⟩ := by
  intro entries name value h
  simp only [Document.assign, Entries.change, assign_of_absent h, Option.map_some]

def filling (front : Entries) (table : String) (inner : Entries) : Document where
  entries := front ++ [(table, .table .header inner)]
  current := [table]

theorem fills_table {front : Entries} {table : String} (hnew : table ∉ front.map Prod.fst) :
    Fills (filling front table) := by
  intro inner name value h
  have hfind : Keyed.find? table (front ++ [(table, Item.table .header inner)]) =
      some (.table .header inner) := by
    rw [Keyed.find?_append_of_absent hnew, Keyed.find?, if_pos rfl]
  have hput : ∀ after, Entries.put table (.table .header after)
      (front ++ [(table, Item.table .header inner)]) =
        front ++ [(table, .table .header after)] := by
    intro after
    rw [Entries.put, Keyed.adjust_append_of_absent hnew, Keyed.adjust, if_pos rfl]
  simp only [filling, Document.assign, Entries.change, hfind, Bool.false_eq_true, false_and,
    if_false, assign_of_absent h, Option.map_some, hput]

theorem openTable_new {front : Entries} {table : String} (hnew : table ∉ front.map Prod.fst)
    (current : List String) :
    Document.openTable ⟨front, current⟩ ([], table) = some (filling front table []) := by
  simp only [Document.openTable, Entries.openTable, Entries.change, Keyed.find?_of_absent hnew,
    Option.map_some, Entries.put, Keyed.adjust_of_absent hnew, filling, List.nil_append]

/-! ## Documents -/

structure Plain (fields : List (String × Value)) : Prop where
  names : ∀ field ∈ fields, IsBareKey field.1
  distinct : (fields.map Prod.fst).Nodup
  values : ∀ field ∈ fields, IsScalar field.2

theorem Plain.of_names {fields : List (String × Value)} (names : List String)
    (hnames : fields.map Prod.fst = names) (hbare : ∀ name ∈ names, IsBareKey name)
    (hdistinct : names.Nodup) (hvalues : ∀ field ∈ fields, IsScalar field.2) : Plain fields where
  names field hmem := hbare field.1 (hnames ▸ List.mem_map_of_mem hmem)
  distinct := hnames ▸ hdistinct
  values := hvalues

theorem Plain.tail {field : String × Value} {fields : List (String × Value)}
    (h : Plain (field :: fields)) : Plain fields where
  names other hmem := h.names other (List.mem_cons_of_mem _ hmem)
  distinct := (List.nodup_cons.1 h.distinct).2
  values other hmem := h.values other (List.mem_cons_of_mem _ hmem)

theorem writeLines_null (name : String) (fields : List (String × Value)) :
    writeLines ((name, .null) :: fields) = writeLines fields := by
  simp only [writeLines, inlineFields]

theorem toList_writeLines {name : String} (hname : IsBareKey name) {v : Value} (hnull : v ≠ .null)
    (fields : List (String × Value)) : (writeLines ((name, v) :: fields)).toList =
      name.toList ++ ' ' :: '=' :: ' ' ::
        ((writeInline v).toList ++ '\n' :: (writeLines fields).toList) := by
  have hkey : writeKey name = name := if_pos hname
  simp only [writeLines, inlineFields, hkey, List.map_cons, String.join_cons, String.toList_append,
    List.append_assoc]
  rfl

-- By induction on the fields: each goes behind the entries that the ones before it have made.
theorem Reads.fields {place : Entries → Document} (hplace : Fills place)
    {fields : List (String × Value)} (hplain : Plain fields) (entries : Entries)
    (hnew : ∀ field ∈ fields, field.1 ∉ entries.map Prod.fst) {text : List Char} {final : Document}
    (h : Reads (place (entries ++ closed (given fields))) text final) :
    Reads (place entries) ((writeLines fields).toList ++ text) final := by
  induction fields generalizing entries with
  | nil =>
    rw [given, List.filter_nil, closed, List.map_nil, List.append_nil] at h
    rw [writeLines, inlineFields]
    exact h
  | cons field fields ih =>
    obtain ⟨name, v⟩ := field
    obtain ⟨hhead, -⟩ := List.nodup_cons.1 hplain.distinct
    have hothers := fun field hmem => hnew field (List.mem_cons_of_mem _ hmem)
    by_cases hnull : v = .null
    · subst hnull
      rw [writeLines_null]
      exact ih hplain.tail entries hothers h
    · have hname := hplain.names _ List.mem_cons_self
      have hassign := hplace entries name v (hnew _ List.mem_cons_self)
      rw [toList_writeLines hname hnull]
      simp only [List.append_assoc, List.cons_append]
      refine .field hname (hplain.values _ List.mem_cons_self) hnull hassign
        (ih hplain.tail _ ?_ ?_)
      · intro field hmem hentry
        rw [List.map_append, List.mem_append] at hentry
        rcases hentry with hold | hlast
        · exact hothers field hmem hold
        · rw [List.map_cons, List.map_nil, List.mem_singleton] at hlast
          exact hhead (hlast ▸ List.mem_map_of_mem hmem)
      · rw [given_cons hnull] at h
        simpa only [closed, List.map_cons, List.append_assoc, List.cons_append, List.nil_append]
          using h

structure Tabular (field : String × Value) (inner : List (String × Value)) : Prop where
  record : field.2 = .record inner
  name : IsBareKey field.1
  plain : Plain inner

/-- What is read of a field: of a record, the fields that are given. -/
def shown : Value → Value
  | .record fields => .record (given fields)
  | value => value

def opened : String × Value → String × Item
  | (name, .record fields) => (name, .table .header (closed (given fields)))
  | (name, value) => (name, .closed value)

theorem Reads.tables {tables : List (String × Value)} (htables : ∀ field ∈ tables, ∃ inner,
    Tabular field inner) (hdistinct : (tables.map Prod.fst).Nodup) {front : Entries}
    (hnew : ∀ field ∈ tables, field.1 ∉ front.map Prod.fst) (current : List String) :
    ∃ last, Reads ⟨front, current⟩ (String.join (tables.map writeTable)).toList
      ⟨front ++ tables.map opened, last⟩ := by
  induction tables generalizing front current with
  | nil =>
    refine ⟨current, ?_⟩
    rw [List.map_nil, List.map_nil, List.append_nil]
    exact .nil _
  | cons field tables ih =>
    obtain ⟨name, v⟩ := field
    obtain ⟨inner, hrecord, hname, hplain⟩ := htables _ List.mem_cons_self
    obtain ⟨hhead, hmore⟩ := List.nodup_cons.1 hdistinct
    obtain rfl : v = .record inner := hrecord
    have habsent : name ∉ front.map Prod.fst := hnew _ List.mem_cons_self
    have hothers : ∀ field ∈ tables, field.1 ∉ (front ++
        [(name, Item.table .header (closed (given inner)))]).map Prod.fst := by
      intro field hmem hentry
      rw [List.map_append, List.mem_append] at hentry
      rcases hentry with hold | hlast
      · exact hnew field (List.mem_cons_of_mem _ hmem) hold
      · rw [List.map_cons, List.map_nil, List.mem_singleton] at hlast
        exact hhead (hlast ▸ List.mem_map_of_mem hmem)
    obtain ⟨last, hrest⟩ := ih (fun field hmem => htables field (List.mem_cons_of_mem _ hmem)) hmore
      hothers [name]
    refine ⟨last, ?_⟩
    have hlines : Reads (filling front name []) ((writeLines inner).toList ++
        (String.join (tables.map writeTable)).toList) _ :=
      Reads.fields (fills_table habsent) hplain [] (fun _ _ => List.not_mem_nil) hrest
    have htext : (String.join (((name, .record inner) :: tables).map writeTable)).toList =
        '\n' :: '[' :: (name.toList ++ ']' :: '\n' :: ((writeLines inner).toList ++
          (String.join (tables.map writeTable)).toList)) := by
      have hkey : writeKey name = name := if_pos hname
      simp only [List.map_cons, String.join_cons, writeTable, hkey, String.toList_append,
        List.append_assoc]
      rfl
    rw [htext]
    have hread := (Reads.header hname (openTable_new habsent current) hlines).newline
    simpa only [List.map_cons, opened, List.append_assoc, List.cons_append, List.nil_append]
      using hread

/-- The fields of a document that can be read back: plain ones, and tables of these. -/
structure Writable (fields : List (String × Value)) : Prop where
  distinct : (fields.map Prod.fst).Nodup
  values : ∀ field ∈ fields, IsBareKey field.1 ∧
    (IsScalar field.2 ∨ ∃ inner, field.2 = .record inner ∧ Plain inner)

/-- The fields in the order in which they are written: plain ones first, null ones left out. -/
def arranged (fields : List (String × Value)) : List (String × Value) :=
  given (fields.filter fun field => !isTable field.2) ++
    (fields.filter fun field => isTable field.2).map fun field => (field.1, shown field.2)

theorem toFields_append (front back : Entries) :
    Item.toFields (front ++ back) = Item.toFields front ++ Item.toFields back := by
  induction front with
  | nil => rfl
  | cons entry front ih =>
    obtain ⟨name, item⟩ := entry
    simp only [List.cons_append, Item.toFields, ih]

theorem toFields_closed (fields : List (String × Value)) :
    Item.toFields (closed fields) = fields := by
  induction fields with
  | nil => rfl
  | cons field fields ih =>
    rw [closed] at ih
    simp only [closed, List.map_cons, Item.toFields, Item.toValue, ih]

theorem toFields_opened (fields : List (String × Value)) :
    Item.toFields (fields.map opened) = fields.map fun field => (field.1, shown field.2) := by
  induction fields with
  | nil => rfl
  | cons field fields ih =>
    obtain ⟨name, v⟩ := field
    rw [List.map_cons, List.map_cons]
    cases v <;> simp only [opened, shown, Item.toFields, Item.toValue, toFields_closed, ih]

theorem map_fst_closed (fields : List (String × Value)) :
    (closed fields).map Prod.fst = fields.map Prod.fst := by
  rw [closed, List.map_map]
  rfl

namespace Writable

variable {fields : List (String × Value)}

theorem plain (h : Writable fields) : Plain (fields.filter fun field => !isTable field.2) where
  names field hmem := (h.values field (List.mem_filter.1 hmem).1).1
  distinct := h.distinct.sublist (List.filter_sublist.map Prod.fst)
  values field hmem := by
    obtain ⟨hfield, hplain⟩ := List.mem_filter.1 hmem
    rcases (h.values field hfield).2 with hscalar | ⟨inner, hrecord, -⟩
    · exact hscalar
    · rw [hrecord] at hplain
      cases hplain

theorem tabular (h : Writable fields) : ∀ field ∈ fields.filter fun field => isTable field.2,
    ∃ inner, Tabular field inner := by
  intro field hmem
  obtain ⟨hfield, htable⟩ := List.mem_filter.1 hmem
  obtain ⟨hname, hscalar | ⟨inner, hrecord, hplain⟩⟩ := h.values field hfield
  · generalize field.2 = v at hscalar htable
    cases v with
    | record => exact hscalar.elim
    | _ => cases htable
  · exact ⟨inner, hrecord, hname, hplain⟩

theorem apart (h : Writable fields) : ∀ field ∈ fields.filter fun field => isTable field.2,
    field.1 ∉ (closed (given (fields.filter fun field => !isTable field.2))).map Prod.fst := by
  intro field hmem hname
  obtain ⟨hfield, htable⟩ := List.mem_filter.1 hmem
  rw [map_fst_closed] at hname
  obtain ⟨other, hother, hsame⟩ := List.mem_map.1 hname
  obtain ⟨hother, hplain⟩ := List.mem_filter.1 (List.mem_filter.1 hother).1
  obtain rfl := List.inj_on_of_nodup_map h.distinct hother hfield hsame
  rw [htable] at hplain
  cases hplain

end Writable

/-- What is written for a document stands for its fields, less those that are null. -/
theorem read?_write {fields : List (String × Value)} (h : Writable fields) :
    read? (write fields) = some (.record (arranged fields)) := by
  have htext : (write fields).toList =
      (writeLines (fields.filter fun field => !isTable field.2)).toList ++
        (String.join ((fields.filter fun field => isTable field.2).map writeTable)).toList := by
    rw [write, List.partition_eq_filter_filter, String.toList_append]
    rfl
  have hdistinct := h.distinct.sublist
    ((List.filter_sublist (p := fun field : String × Value => isTable field.2)).map Prod.fst)
  obtain ⟨last, htables⟩ := Reads.tables h.tabular hdistinct h.apart []
  obtain ⟨⟨found, hlexes, hread⟩, hunmarked⟩ :=
    Reads.fields fills_top h.plain [] (fun _ _ => List.not_mem_nil) htables
  rw [← htext] at hlexes hunmarked
  have hmark : Text.after? [byteOrderMark] (write fields).toList = none := by
    cases hlist : (write fields).toList with
    | nil => rfl
    | cons c rest =>
      rw [hlist] at hunmarked
      rw [Text.after?, if_neg (hunmarked c rfl)]
  have htokens := hlexes (write fields).toList.length (Nat.le_refl _)
  have hlines := hread (found.length + 1) (Nat.lt_succ_self _)
  simp only [read?, hmark, Option.getD_none, htokens, Option.bind_eq_bind, Option.bind_some]
  change (lines (found.length + 1) ⟨[], []⟩ found).bind _ = _
  rw [hlines, Option.bind_some]
  show some (Value.record (Item.toFields (_ ++ _))) = _
  rw [toFields_append, toFields_closed, toFields_opened]
  rfl

end Toml

end MetricReporting
