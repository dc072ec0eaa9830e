import MetricReporting.Proofs.Json.Numbers
import MetricReporting.Proofs.Json.Quotation
import MetricReporting.Proofs.Rows

/-!
# Values of JSON read back

A value is read from what was written for it, wherever that stands in a text: behind blanks, and
before a comma, a line end or the end of the text.
-/
namespace MetricReporting.Json

open Text (IsWord OpensNumber)

mutual

/-- A value that is read as it is written, where `room` lists and records may lie in each other. -/
def Writable (room : Nat) : Value → Prop
  | .null | .boolean _ | .text _ => True
  | .integer n => IsWord n
  | .fraction _ | .unreadable _ => False
  | .list items => 0 < room ∧ ItemsWritable (room - 1) items
  | .record fields => 0 < room ∧ FieldsWritable (room - 1) fields

def ItemsWritable (room : Nat) : List Value → Prop
  | [] => True
  | item :: rest => Writable room item ∧ ItemsWritable room rest

def FieldsWritable (room : Nat) : List (String × Value) → Prop
  | [] => True
  | (_, value) :: rest => Writable room value ∧ FieldsWritable room rest

end

/-! ## Blanks -/

theorem skipSpace_append {spaces : List Char} (h : ∀ c ∈ spaces, isSpace c = true)
    (text : List Char) : skipSpace (spaces ++ text) = skipSpace text :=
  List.dropWhile_append_of_pos h

theorem skipSpace_of_head {c : Char} (h : isSpace c = false) (text : List Char) :
    skipSpace (c :: text) = c :: text :=
  List.dropWhile_cons_of_neg (by rw [h]; exact Bool.false_ne_true)

section Spaces

variable {spaces : List Char} (h : ∀ c ∈ spaces, isSpace c = true) (fuel room : Nat)
  (text : List Char)

include h

theorem value_spaces : value fuel room (spaces ++ text) = value fuel room text := by
  cases fuel with
  | zero => simp only [value]
  | succ fuel => simp only [value, skipSpace_append h]

theorem items_spaces : items fuel room (spaces ++ text) = items fuel room text := by
  cases fuel with
  | zero => simp only [items]
  | succ fuel => simp only [items, value_spaces h]

theorem fields_spaces : fields fuel room (spaces ++ text) = fields fuel room text := by
  cases fuel with
  | zero => simp only [fields]
  | succ fuel => simp only [fields, skipSpace_append h]

end Spaces

def margin (indent : Nat) : List Char :=
  '\n' :: List.replicate indent ' '

theorem toList_newline (indent : Nat) : (newline indent).toList = margin indent := by
  simp only [newline, String.toList_append, String.toList_ofList]
  rfl

theorem margin_spaces (indent : Nat) : ∀ c ∈ margin indent, isSpace c = true := by
  intro c hmem
  rcases List.mem_cons.1 hmem with rfl | hmem
  · rfl
  · rw [List.eq_of_mem_replicate hmem]
    rfl

theorem blank_spaces : ∀ c ∈ [' '], isSpace c = true := by
  intro c hmem
  rw [List.mem_singleton.1 hmem]
  rfl

theorem delimits_margin (indent : Nat) (text : List Char) : Delimits (margin indent ++ text) := by
  intro c hc
  exact Or.inr (Option.some.inj hc).symm

theorem delimits_comma (text : List Char) : Delimits (',' :: text) := by
  intro c hc
  exact Or.inl (Option.some.inj hc).symm

/-! ## What is written -/

def joined (indent : Nat) (texts : List String) : List Char :=
  (',' :: margin indent).intercalate (texts.map String.toList)

theorem toList_bracketed {opening closing : String} {indent : Nat} {items : List String}
    (h : items ≠ []) : (bracketed opening closing indent items).toList =
      opening.toList ++ (margin (indent + 2) ++ (joined (indent + 2) items ++
        (margin indent ++ closing.toList))) := by
  have hcomma : ("," ++ newline (indent + 2)).toList = ',' :: margin (indent + 2) := by
    rw [String.toList_append, toList_newline]
    rfl
  simp only [bracketed, if_neg h, String.toList_append, toList_newline, String.toList_intercalate,
    hcomma, joined, List.append_assoc]

theorem joined_singleton (indent : Nat) (text : String) : joined indent [text] = text.toList :=
  List.intercalate_singleton

theorem joined_cons (indent : Nat) (first : String) {more : List String} (h : more ≠ []) :
    joined indent (first :: more) =
      first.toList ++ (',' :: (margin indent ++ joined indent more)) := by
  have hne : more.map String.toList ≠ [] := fun hnil => h (List.map_eq_nil_iff.1 hnil)
  rw [joined, List.map_cons, List.intercalate_cons_of_ne_nil hne, List.append_assoc]
  rfl

theorem writeItems_ne_nil (indent : Nat) {items : List Value} (h : items ≠ []) :
    writeItems indent items ≠ [] := by
  cases items with
  | nil => exact absurd rfl h
  | cons => simp only [writeItems, ne_eq, reduceCtorEq, not_false_eq_true]

theorem writeFields_ne_nil (indent : Nat) {fields : List (String × Value)} (h : fields ≠ []) :
    writeFields indent fields ≠ [] := by
  cases fields with
  | nil => exact absurd rfl h
  | cons => simp only [writeFields, ne_eq, reduceCtorEq, not_false_eq_true]

theorem isSpace_of_opensNumber {c : Char} (h : OpensNumber c) : isSpace c = false := by
  simp only [isSpace, h.ne (d := ' ') rfl (by decide), h.ne (d := '\n') rfl (by decide),
    h.ne (d := '\t') rfl (by decide), h.ne (d := '\r') rfl (by decide), decide_false,
    Bool.or_self]

theorem value_number {c : Char} (hc : OpensNumber c) (fuel room : Nat) (text : List Char) :
    value (fuel + 1) room (c :: text) = number (c :: text) := by
  have hne : ∀ other : Char, other.isDigit = false → other ≠ '-' →
      ∀ rest, c :: text ≠ other :: rest :=
    fun other hdigit hminus rest heq => hc.ne hdigit hminus (List.cons.inj heq).1
  simp only [value, skipSpace_of_head (isSpace_of_opensNumber hc)]
  split
  iterate 6 exact absurd ‹_› (hne _ rfl (by decide) _)
  · rfl

theorem toList_writeNoItems (indent : Nat) : (write indent (.list [])).toList = ['[', ']'] := by
  rw [write, writeItems, bracketed, if_pos rfl, String.toList_append]
  rfl

theorem toList_writeNoFields (indent : Nat) :
    (write indent (.record [])).toList = ['\x7b', '\x7d'] := by
  rw [write, writeFields, bracketed, if_pos rfl, String.toList_append]
  rfl

theorem toList_writeList {indent : Nat} {items : List Value} (h : items ≠ []) :
    (write indent (.list items)).toList = '[' :: (margin (indent + 2) ++
      (joined (indent + 2) (writeItems (indent + 2) items) ++ (margin indent ++ [']']))) := by
  rw [write, toList_bracketed (writeItems_ne_nil _ h)]
  rfl

theorem toList_writeRecord {indent : Nat} {fields : List (String × Value)} (h : fields ≠ []) :
    (write indent (.record fields)).toList = '\x7b' :: (margin (indent + 2) ++
      (joined (indent + 2) (writeFields (indent + 2) fields) ++ (margin indent ++ ['\x7d']))) := by
  rw [write, toList_bracketed (writeFields_ne_nil _ h)]
  rfl

theorem write_head {room : Nat} (indent : Nat) {v : Value} (h : Writable room v) :
    ∃ c text, (write indent v).toList = c :: text ∧ isSpace c = false ∧ c ≠ ']' := by
  cases v with
  | null =>
    rw [write]
    exact ⟨'n', _, rfl, rfl, by decide⟩
  | boolean value =>
    rw [write]
    cases value with
    | true => exact ⟨'t', _, rfl, rfl, by decide⟩
    | false => exact ⟨'f', _, rfl, rfl, by decide⟩
  | integer n =>
    obtain ⟨c, text, htext, hc⟩ := Text.toList_integer n
    rw [write]
    exact ⟨c, text, htext, isSpace_of_opensNumber hc, hc.ne rfl (by decide)⟩
  | fraction | unreadable => exact h.elim
  | text value =>
    rw [write, toList_quote]
    exact ⟨'"', _, rfl, rfl, by decide⟩
  | list items =>
    cases items with
    | nil => exact ⟨'[', _, toList_writeNoItems indent, rfl, by decide⟩
    | cons =>
      rw [toList_writeList (List.cons_ne_nil _ _)]
      exact ⟨'[', _, rfl, rfl, by decide⟩
  | record fields =>
    cases fields with
    | nil => exact ⟨'\x7b', _, toList_writeNoFields indent, rfl, by decide⟩
    | cons =>
      rw [toList_writeRecord (List.cons_ne_nil _ _)]
      exact ⟨'\x7b', _, rfl, rfl, by decide⟩

theorem joined_head {room : Nat} (indent : Nat) {item : Value} (items : List Value)
    (h : Writable room item) :
    ∃ c text, joined indent (writeItems indent (item :: items)) = c :: text ∧
      isSpace c = false ∧ c ≠ ']' := by
  obtain ⟨c, text, htext, hc⟩ := write_head indent h
  cases items with
  | nil => exact ⟨c, text, by rw [writeItems, writeItems, joined_singleton, htext], hc⟩
  | cons second more =>
    rw [writeItems, joined_cons _ _ (writeItems_ne_nil indent (List.cons_ne_nil second more)),
      htext]
    exact ⟨c, _, rfl, hc⟩

def fieldText (indent : Nat) (field : String × Value) : List Char :=
  body field.1.toList ++ ('"' :: ':' :: ' ' :: (write indent field.2).toList)

theorem fieldText_append (indent : Nat) (name : String) (value : Value) (text : List Char) :
    fieldText indent (name, value) ++ text =
      body name.toList ++ '"' :: ':' :: ' ' :: ((write indent value).toList ++ text) := by
  rw [fieldText, List.append_assoc]
  rfl

theorem length_fieldText (indent : Nat) (name : String) (value : Value) :
    (fieldText indent (name, value)).length =
      (body name.toList).length + ((write indent value).toList.length + 3) := by
  simp only [fieldText, List.length_append, List.length_cons]

theorem toList_field (indent : Nat) (name : String) (value : Value) :
    (quote name ++ ": " ++ write indent value).toList = '"' :: fieldText indent (name, value) := by
  simp only [String.toList_append, toList_quote, List.append_assoc, List.cons_append]
  rfl

theorem joinedFields_head (indent : Nat) (field : String × Value) (fields : List (String × Value)) :
    ∃ text, joined indent (writeFields indent (field :: fields)) = '"' :: text := by
  cases fields with
  | nil => exact ⟨_, by rw [writeFields, writeFields, joined_singleton, toList_field]⟩
  | cons second more =>
    rw [writeFields, joined_cons _ _ (writeFields_ne_nil indent (List.cons_ne_nil second more)),
      toList_field]
    exact ⟨_, rfl⟩

/-! ## What is read -/

def named (fields : List (String × Value)) : List (Option String × Value) :=
  fields.map fun (name, value) => (some name, value)

theorem record_named (fields : List (String × Value)) : record (named fields) = .record fields := by
  have hread : (named fields).mapM (fun field => field.1.map fun name => (name, field.2)) =
      some fields := by
    rw [named, List.mapM_map]
    exact (mapM_eq_some fun _ _ => rfl).trans (congrArg some fields.map_id)
  rw [record, hread]

section Nesting

variable {room : Nat} (hroom : 0 < room) (fuel : Nat) {text more : List Char} {c : Char}
  (hskip : skipSpace text = c :: more)

include hroom

theorem value_noItems (rest : List Char) :
    value (fuel + 1) room ('[' :: ']' :: rest) = some (.list [], rest) := by
  simp only [value, skipSpace_of_head (c := '[') rfl, skipSpace_of_head (c := ']') rfl, nested,
    Nat.ne_of_gt hroom, if_false]

theorem value_noFields (rest : List Char) :
    value (fuel + 1) room ('\x7b' :: '\x7d' :: rest) = some (.record [], rest) := by
  simp only [value, skipSpace_of_head (c := '\x7b') rfl, skipSpace_of_head (c := '\x7d') rfl,
    nested, Nat.ne_of_gt hroom, if_false]

include hskip

theorem value_items (hc : c ≠ ']') : value (fuel + 1) room ('[' :: text) =
    (items fuel (room - 1) (c :: more)).map fun (items, rest) => (.list items, rest) := by
  simp only [value, skipSpace_of_head (c := '[') rfl, hskip]
  split
  · rename_i heq
    exact absurd (List.cons.inj heq).1 hc
  · simp only [nested, Nat.ne_of_gt hroom, if_false]

theorem value_fields (hc : c ≠ '\x7d') : value (fuel + 1) room ('\x7b' :: text) =
    (fields fuel (room - 1) (c :: more)).map fun (fields, rest) => (record fields, rest) := by
  simp only [value, skipSpace_of_head (c := '\x7b') rfl, hskip]
  split
  · rename_i heq
    exact absurd (List.cons.inj heq).1 hc
  · simp only [nested, Nat.ne_of_gt hroom, if_false]

end Nesting

section Fields

variable {fuel room indent : Nat} {name : String} {item : Value} {text rest : List Char}
  (hitem : value fuel room ((write indent item).toList ++ text) = some (item, text))

include hitem

theorem fields_last (hskip : skipSpace text = '\x7d' :: rest) :
    fields (fuel + 1) room ('"' :: (fieldText indent (name, item) ++ text)) =
      some ([(some name, item)], rest) := by
  have hspace : value fuel room (' ' :: ((write indent item).toList ++ text)) = some (item, text) :=
    (value_spaces blank_spaces fuel room _).trans hitem
  rw [Json.fields, skipSpace_of_head (c := '"') rfl, fieldText_append]
  simp only [quoted_body, Option.bind_eq_bind, Option.bind_some, skipSpace_of_head (c := ':') rfl,
    hspace, hskip]

theorem fields_next (hskip : skipSpace text = ',' :: rest) :
    fields (fuel + 1) room ('"' :: (fieldText indent (name, item) ++ text)) =
      (fields fuel room rest).map fun (fields, rest) => ((some name, item) :: fields, rest) := by
  have hspace : value fuel room (' ' :: ((write indent item).toList ++ text)) = some (item, text) :=
    (value_spaces blank_spaces fuel room _).trans hitem
  rw [Json.fields, skipSpace_of_head (c := '"') rfl, fieldText_append]
  simp only [quoted_body, Option.bind_eq_bind, Option.bind_some, skipSpace_of_head (c := ':') rfl,
    hspace, hskip]

end Fields

/-! ## Lists and records of what was read -/

theorem value_writeList {fuel room indent : Nat} (hroom : 0 < room) {item : Value}
    (hitem : Writable (room - 1) item) {items : List Value} {rest : List Char}
    (hread : Json.items fuel (room - 1)
      (joined (indent + 2) (writeItems (indent + 2) (item :: items)) ++
      (margin indent ++ ']' :: rest)) = some (item :: items, rest)) :
    value (fuel + 1) room ((write indent (.list (item :: items))).toList ++ rest) =
      some (.list (item :: items), rest) := by
  obtain ⟨c, text, htext, hspace, hclosing⟩ := joined_head (indent + 2) items hitem
  rw [toList_writeList (List.cons_ne_nil _ _)]
  simp only [List.cons_append, List.append_assoc, List.nil_append]
  rw [htext, List.cons_append] at hread ⊢
  rw [value_items hroom fuel ((skipSpace_append (margin_spaces _) _).trans
    (skipSpace_of_head hspace _)) hclosing, hread, Option.map_some]

theorem value_writeRecord {fuel room indent : Nat} (hroom : 0 < room) {field : String × Value}
    {fields : List (String × Value)} {rest : List Char}
    (hread : Json.fields fuel (room - 1)
      (joined (indent + 2) (writeFields (indent + 2) (field :: fields)) ++
        (margin indent ++ '\x7d' :: rest)) = some (named (field :: fields), rest)) :
    value (fuel + 1) room ((write indent (.record (field :: fields))).toList ++ rest) =
      some (.record (field :: fields), rest) := by
  obtain ⟨text, htext⟩ := joinedFields_head (indent + 2) field fields
  rw [toList_writeRecord (List.cons_ne_nil _ _)]
  simp only [List.cons_append, List.append_assoc, List.nil_append]
  rw [htext, List.cons_append] at hread ⊢
  rw [value_fields hroom fuel ((skipSpace_append (margin_spaces _) _).trans
    (skipSpace_of_head (c := '"') rfl _)) (by decide), hread, ← record_named (field :: fields)]
  rfl

-- The induction is on the value. A value inside another costs two steps and stands in two marks, so
-- twice the length of what is written is fuel enough.
mutual

theorem value_write (v : Value) (room indent fuel : Nat) (rest : List Char) (hv : Writable room v)
    (hfuel : 2 * (write indent v).toList.length < fuel) (hrest : Delimits rest) :
    value fuel room ((write indent v).toList ++ rest) = some (v, rest) := by
  obtain ⟨fuel, rfl⟩ : ∃ more, fuel = more + 1 := ⟨fuel - 1, by omega⟩
  cases v with
  | null =>
    rw [write]
    rfl
  | boolean value =>
    rw [write]
    cases value <;> rfl
  | integer n =>
    obtain ⟨c, text, htext, hc⟩ := Text.toList_integer n
    have hread := number_integer hv hrest
    rw [htext] at hread
    rw [write, htext]
    exact (value_number hc fuel room (text ++ rest)).trans hread
  | fraction | unreadable => exact hv.elim
  | text value =>
    rw [write, toList_quote, List.cons_append, List.append_assoc]
    simp only [Json.value, skipSpace_of_head (c := '"') rfl]
    rw [List.singleton_append, quoted_body]
    rfl
  | list items =>
    obtain ⟨hroom, hitems⟩ := hv
    cases items with
    | nil =>
      rw [toList_writeNoItems]
      exact value_noItems hroom fuel rest
    | cons item items =>
      rw [toList_writeList (List.cons_ne_nil _ _)] at hfuel
      simp only [List.length_cons, List.length_append] at hfuel
      exact value_writeList hroom hitems.1 (items_write (item :: items) (List.cons_ne_nil _ _)
        (room - 1) (indent + 2) indent fuel rest hitems (by omega))
  | record fields =>
    obtain ⟨hroom, hfields⟩ := hv
    cases fields with
    | nil =>
      rw [toList_writeNoFields]
      exact value_noFields hroom fuel rest
    | cons field fields =>
      rw [toList_writeRecord (List.cons_ne_nil _ _)] at hfuel
      simp only [List.length_cons, List.length_append] at hfuel
      exact value_writeRecord hroom (fields_write (field :: fields) (List.cons_ne_nil _ _)
        (room - 1) (indent + 2) indent fuel rest hfields (by omega))

theorem items_write (items : List Value) (hne : items ≠ []) (room indent outer fuel : Nat)
    (rest : List Char) (hitems : ItemsWritable room items)
    (hfuel : 2 * (joined indent (writeItems indent items)).length + 1 < fuel) :
    Json.items fuel room
      (joined indent (writeItems indent items) ++ (margin outer ++ ']' :: rest)) =
      some (items, rest) := by
  obtain ⟨fuel, rfl⟩ : ∃ more, fuel = more + 1 := ⟨fuel - 1, by omega⟩
  cases items with
  | nil => exact absurd rfl hne
  | cons item items =>
    obtain ⟨hitem, hitems⟩ := hitems
    cases items with
    | nil =>
      rw [writeItems, writeItems, joined_singleton] at hfuel ⊢
      rw [Json.items, value_write item room indent fuel _ hitem (by omega) (delimits_margin _ _)]
      simp only [Option.bind_eq_bind, Option.bind_some, skipSpace_append (margin_spaces outer),
        skipSpace_of_head (c := ']') rfl]
    | cons second more =>
      have hnonempty := writeItems_ne_nil indent (List.cons_ne_nil second more)
      rw [writeItems, joined_cons indent _ hnonempty] at hfuel ⊢
      rw [List.length_append, List.length_cons, List.length_append] at hfuel
      have hothers :=
        items_write (second :: more) (List.cons_ne_nil _ _) room indent outer fuel rest
        hitems (by omega)
      rw [List.append_assoc, Json.items, List.cons_append, List.append_assoc,
        value_write item room indent fuel _ hitem (by omega) (delimits_comma _)]
      simp only [Option.bind_eq_bind, Option.bind_some, skipSpace_of_head (c := ',') rfl,
        items_spaces (margin_spaces indent), hothers, Option.map_some]

theorem fields_write (fields : List (String × Value)) (hne : fields ≠ [])
    (room indent outer fuel : Nat) (rest : List Char) (hfields : FieldsWritable room fields)
    (hfuel : 2 * (joined indent (writeFields indent fields)).length + 1 < fuel) :
    Json.fields fuel room
      (joined indent (writeFields indent fields) ++ (margin outer ++ '\x7d' :: rest)) =
      some (named fields, rest) := by
  obtain ⟨fuel, rfl⟩ : ∃ more, fuel = more + 1 := ⟨fuel - 1, by omega⟩
  cases fields with
  | nil => exact absurd rfl hne
  | cons field fields =>
    obtain ⟨name, item⟩ := field
    obtain ⟨hitem, hfields⟩ := hfields
    cases fields with
    | nil =>
      rw [writeFields, writeFields, joined_singleton, toList_field] at hfuel ⊢
      rw [List.length_cons, length_fieldText] at hfuel
      have hread := value_write item room indent fuel _ hitem (by omega)
        (delimits_margin outer ('\x7d' :: rest))
      exact fields_last hread ((skipSpace_append (margin_spaces outer) _).trans
        (skipSpace_of_head (c := '\x7d') rfl rest))
    | cons second more =>
      have hnonempty := writeFields_ne_nil indent (List.cons_ne_nil second more)
      rw [writeFields, joined_cons indent _ hnonempty, toList_field] at hfuel ⊢
      rw [List.length_append, List.length_cons, List.length_cons, List.length_append,
        length_fieldText] at hfuel
      have hothers :=
        fields_write (second :: more) (List.cons_ne_nil _ _) room indent outer fuel rest
        hfields (by omega)
      have hread := value_write item room indent fuel _ hitem (by omega)
        (delimits_comma (margin indent ++ (joined indent (writeFields indent (second :: more)) ++
          (margin outer ++ '\x7d' :: rest))))
      rw [List.append_assoc, List.cons_append, List.cons_append, List.append_assoc,
        fields_next hread (skipSpace_of_head (c := ',') rfl _),
        fields_spaces (margin_spaces indent), hothers]
      rfl

end

theorem delimits_nil : Delimits [] :=
  nofun

/-- What is written for a value stands for that value. -/
theorem read?_write {v : Value} (h : Writable deepest v) (indent : Nat) :
    read? (write indent v) = some v := by
  have hread := value_write v deepest indent (2 * (write indent v).length + 2) [] h
    (by rw [String.length_toList]; omega) delimits_nil
  rw [List.append_nil] at hread
  simp only [read?, hread]
  rfl

end MetricReporting.Json
