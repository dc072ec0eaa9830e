import MetricReporting.Keyed

/-!
# Tag table

Tag strings are interned into small ids, counted from one in the order they are first seen; the
empty tag is zero. Callers first look a tag up and only then, in a second step, insert it, so the
insertion looks again: another caller may have come between.
-/
namespace MetricReporting

structure TagTable where
  ids : List (String × Int32) := []
  /-- The tags by id, the empty tag first. -/
  names : Array String := #[""]
deriving DecidableEq, Repr, Inhabited

namespace TagTable

def untagged : Int32 := 0

/-- The first step of interning: the id of a tag already seen. -/
def lookup? (table : TagTable) (tag : String) : Option Int32 :=
  if tag.isEmpty then some untagged else Keyed.find? tag table.ids

/-- The second step of interning: the id found now, or else the next one. -/
def insert (table : TagTable) (tag : String) : Int32 × TagTable :=
  match Keyed.find? tag table.ids with
  | some id => (id, table)
  | none =>
      let id := Int32.ofNat table.names.size
      (id, { ids := (tag, id) :: table.ids, names := table.names.push tag })

def intern (table : TagTable) (tag : String) : Int32 × TagTable :=
  match table.lookup? tag with
  | some id => (id, table)
  | none => table.insert tag

def name? (table : TagTable) (id : Int32) : Option String :=
  if id < 0 then none else table.names[id.toInt.toNat]?

def size (table : TagTable) : Nat :=
  table.names.size - 1

theorem lookup?_insert (table : TagTable) (tag : String) (hne : tag.isEmpty = false) :
    (table.insert tag).2.lookup? tag = some (table.insert tag).1 := by
  unfold insert
  cases h : Keyed.find? tag table.ids with
  | some id => simp [lookup?, hne, h]
  | none => simp [lookup?, hne, Keyed.find?]

end TagTable

end MetricReporting
