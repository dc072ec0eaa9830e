import MetricReporting.Config.Value

/-!
# Tables of TOML

How keys and headers build up the tables of a document. A table made on the way by a header can
still get a header of its own, one made by a dotted key can only be filled by dotted keys, and
values are closed.
-/
namespace MetricReporting.Toml

/-- How a table came to be: by its header, on the way of a longer header, or by a dotted key. -/
inductive Origin
  | header
  | passed
  | dotted
deriving DecidableEq, Repr

inductive Item
  | closed (value : Value)
  | table (origin : Origin) (entries : List (String × Item))
  /-- The tables that one header opened again and again. -/
  | tables (elements : List (List (String × Item)))

abbrev Entries := List (String × Item)

namespace Item

mutual

def toValue : Item → Value
  | closed value => value
  | table _ entries => .record (toFields entries)
  | tables elements => .list (toRecords elements)

def toFields : List (String × Item) → List (String × Value)
  | [] => []
  | (name, item) :: rest => (name, item.toValue) :: toFields rest

def toRecords : List (List (String × Item)) → List Value
  | [] => []
  | entries :: rest => .record (toFields entries) :: toRecords rest

end

end Item

namespace Entries

def put (name : String) (item : Item) (entries : Entries) : Entries :=
  Keyed.adjust name (fun _ => item) entries

/-- Changes the table at the end of a path. Tables that are missing on the way are made; of
repeated tables the last one is meant. Dotted keys lead into no table that has a header. -/
def change (dotted : Bool) (how : Origin → Entries → Option Entries) :
    List String → Origin → Entries → Option Entries
  | [], origin, entries => how origin entries
  | name :: path, _, entries =>
      match Keyed.find? name entries with
      | none =>
          let origin := if dotted then Origin.dotted else .passed
          (change dotted how path origin []).map fun made =>
            entries.put name (.table origin made)
      | some (.closed _) => none
      | some (.table origin inner) =>
          if dotted ∧ origin = .header then none
          else (change dotted how path origin inner).map fun inner =>
            entries.put name (.table origin inner)
      | some (.tables elements) =>
          (change dotted how path .header (elements.getLast?.getD [])).map fun last =>
            entries.put name (.tables (elements.dropLast ++ [last]))

/-- Gives a value to a key, which must not have one yet. Dotted keys end in tables made by dotted
keys, plain ones in the others. -/
def assign (path : List String) (name : String) (value : Value) :
    Origin → Entries → Option Entries :=
  change true (fun origin entries =>
    if (origin == .dotted) == path.isEmpty then none
    else if (Keyed.find? name entries).isSome then none
    else some (entries.put name (.closed value))) path

def openTable (path : List String) (name : String) : Entries → Option Entries :=
  change false (fun _ entries =>
    match Keyed.find? name entries with
    | none => some (entries.put name (.table .header []))
    | some (.table .passed inner) => some (entries.put name (.table .header inner))
    | some _ => none) path .header

def openElement (path : List String) (name : String) : Entries → Option Entries :=
  change false (fun _ entries =>
    match Keyed.find? name entries with
    | none => some (entries.put name (.tables [[]]))
    | some (.tables elements) => some (entries.put name (.tables (elements ++ [[]])))
    | some _ => none) path .header

end Entries

end MetricReporting.Toml
