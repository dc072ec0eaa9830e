import MetricReporting.Keyed

/-!
# Configuration values

The tree that a configuration file stands for, whatever its format: plain values, lists and
records. Some things that a file may hold cannot be read, and some of these cannot even be skipped;
they stand in the tree as such, so that only a reader that comes upon them fails.
-/
namespace MetricReporting

inductive Value
  | null
  | boolean (value : Bool)
  | integer (value : Int)
  | fraction (written : String)
  | text (value : String)
  | list (items : List Value)
  | record (fields : List (String × Value))
  /-- Something that cannot be read, but perhaps skipped. -/
  | unreadable (canSkip : Bool)
deriving Repr, Inhabited

namespace Value

mutual

/-- Whether a value holds nothing unreadable but what `passes`. -/
def isClean (passes : Bool → Bool) : Value → Bool
  | unreadable canSkip => passes canSkip
  | list items => areClean passes items
  | record fields => haveClean passes fields
  | _ => true

def areClean (passes : Bool → Bool) : List Value → Bool
  | [] => true
  | item :: rest => item.isClean passes && areClean passes rest

def haveClean (passes : Bool → Bool) : List (String × Value) → Bool
  | [] => true
  | (_, value) :: rest => value.isClean passes && haveClean passes rest

end

def isReadable : Value → Bool :=
  isClean fun _ => false

def isSkippable : Value → Bool :=
  isClean id

def text? : Value → Option String
  | text value => some value
  | _ => none

def natural? (bound : Nat) : Value → Option Nat
  | integer value => if 0 ≤ value ∧ value < bound then some value.toNat else none
  | _ => none

def nullable? {α : Type} (read? : Value → Option α) : Value → Option (Option α)
  | null => some none
  | value => (read? value).map some

def wordBound : Nat := UInt64.size

def portBound : Nat := UInt16.size

theorem natural?_ofNat {bound n : Nat} (h : n < bound) :
    natural? bound (.integer n) = some n := by
  simp [natural?]
  omega

end Value

abbrev Fields := String → Option Value

namespace Fields

/-- Whether each of the names is given at most once, and whatever else there is can be skipped. -/
def isRecord (names : List String) (fields : List (String × Value)) : Bool :=
  (names.all fun name => fields.countP (fun field => field.1 == name) ≤ 1) &&
    fields.all fun (name, value) => names.contains name || value.isSkippable

/-- The fields of a structure that declares the given names. A record may hold other fields
besides, but none of these twice; a list holds values for the first names, in this order, and
where items may be `spare`, more than that, which nobody looks at. -/
def ofValue? (spare : Bool) (names : List String) : Value → Option Fields
  | .record fields =>
      if isRecord names fields then some fun name => Keyed.find? name fields else none
  | .list items =>
      if spare ∨ items.length ≤ names.length then
        some fun name => Keyed.find? name (names.zip items)
      else none
  | _ => none

def required {α : Type} (fields : Fields) (name : String) (read? : Value → Option α) : Option α :=
  (fields name).bind read?

def optional {α : Type} (fields : Fields) (name : String) (read? : Value → Option α)
    (default : α) : Option α :=
  match fields name with
  | none => some default
  | some value => read? value

theorem optional_of_absent {α : Type} {fields : Fields} {name : String} (h : fields name = none)
    (read? : Value → Option α) (default : α) :
    fields.optional name read? default = some default := by
  simp [optional, h]

end Fields

end MetricReporting
