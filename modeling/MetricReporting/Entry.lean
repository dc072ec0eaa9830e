/-!
# Entries

An entry is one recorded value with the moment it was recorded at and the id of its tag. Batches
are put in ascending order of ticks before they are encoded.
-/
namespace MetricReporting

structure Entry where
  ticks : Int64
  value : Int64
  tag : Int32
deriving DecidableEq, Repr

namespace Entry

def blank : Entry := ⟨0, 0, 0⟩

instance : Inhabited Entry := ⟨blank⟩

def published (entry : Entry) : Bool :=
  entry.ticks != 0

def place (entry : Entry) : List Entry → List Entry
  | [] => [entry]
  | other :: rest =>
      if entry.ticks ≤ other.ticks then entry :: other :: rest else other :: place entry rest

/-- The entries in ascending order of ticks, ties in the order given. -/
def sortByTicks (entries : List Entry) : List Entry :=
  entries.foldr place []

theorem place_perm (entry : Entry) (row : List Entry) : (place entry row).Perm (entry :: row) := by
  induction row with
  | nil => exact List.Perm.refl _
  | cons other rest ih =>
    rw [place]
    split
    · exact List.Perm.refl _
    · exact (ih.cons other).trans (List.Perm.swap entry other rest)

theorem sortByTicks_perm (entries : List Entry) : (sortByTicks entries).Perm entries := by
  induction entries with
  | nil => exact List.Perm.refl _
  | cons entry rest ih => exact (place_perm entry (sortByTicks rest)).trans (ih.cons entry)

theorem sortByTicks_length (entries : List Entry) :
    (sortByTicks entries).length = entries.length :=
  (sortByTicks_perm entries).length_eq

end Entry

end MetricReporting
