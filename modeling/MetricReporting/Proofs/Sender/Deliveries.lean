import MetricReporting.Proofs.Sender.FileNames
import Mathlib.Data.List.Nodup

/-!
# Sends side by side

Several streams send into one directory, each through a sink of its own. A send takes its number at
once; then it opens its file, fills it piece by piece and closes it, while others do the same, and
the system may refuse to go on at any moment. No two sends have the same path, so what a send that
succeeds has written is what its file holds from then on.
-/
namespace MetricReporting

inductive Delivery.Phase
  | numbered
  | writing (trail : Trail) (written : Nat)
  | returned (outcome : Except ReportingError Unit)
deriving DecidableEq

structure Delivery where
  drawn : FileSink
  payload : Bytes
  phase : Delivery.Phase := .numbered
deriving DecidableEq

namespace Delivery

def path (delivery : Delivery) : String :=
  delivery.drawn.path

def fileName (delivery : Delivery) : String :=
  FileSink.fileName delivery.drawn.name delivery.drawn.sequence

def refused (delivery : Delivery) (refusal : OsError) : Delivery :=
  { delivery with phase := .returned (.error (.io refusal)) }

inductive Move
  | create
  | append (count : Nat)
  | close
  | fail (refusal : OsError)

def move (delivery : Delivery) (files : FileTree) (move : Move) : Delivery × FileTree :=
  match delivery.phase, move with
  | .numbered, .create =>
      match files.truncate delivery.path with
      | .ok (trail, files) => ({ delivery with phase := .writing trail 0 }, files)
      | .error refusal => (delivery.refused refusal, files)
  | .writing trail written, .append count =>
      let more := (delivery.payload.drop written).take count
      ({ delivery with phase := .writing trail (written + more.length) },
        files.overwrite trail written more)
  | .writing _ written, .close =>
      if written = delivery.payload.length then
        ({ delivery with phase := .returned (.ok ()) }, files)
      else (delivery, files)
  | .numbered, .fail refusal => (delivery.refused refusal, files)
  | .writing _ _, .fail refusal => (delivery.refused refusal, files)
  | _, _ => (delivery, files)

variable {delivery delivery' other : Delivery} {files files' : FileTree}

inductive Moved (delivery : Delivery) (files : FileTree) : Delivery → FileTree → Prop
  | stays : Moved delivery files delivery files
  | opens {trail : Trail} {files' : FileTree} (hphase : delivery.phase = .numbered)
      (h : files.truncate delivery.path = .ok (trail, files')) :
      Moved delivery files { delivery with phase := .writing trail 0 } files'
  | fills {trail : Trail} {written : Nat} {more : Bytes}
      (hphase : delivery.phase = .writing trail written)
      (hmore : more <+: delivery.payload.drop written) :
      Moved delivery files { delivery with phase := .writing trail (written + more.length) }
        (files.overwrite trail written more)
  | closes {trail : Trail} (hphase : delivery.phase = .writing trail delivery.payload.length) :
      Moved delivery files { delivery with phase := .returned (.ok ()) } files
  | refused (refusal : OsError) : Moved delivery files (delivery.refused refusal) files

theorem moved (delivery : Delivery) (files : FileTree) (move : Move) :
    Moved delivery files (delivery.move files move).1 (delivery.move files move).2 := by
  unfold Delivery.move
  split
  · rename_i hphase
    split
    · rename_i hopen
      exact .opens hphase hopen
    · exact .refused _
  · rename_i hphase
    exact .fills hphase (List.take_prefix _ _)
  · rename_i hphase
    split
    · rename_i hwhole
      exact .closes (hwhole ▸ hphase)
    · exact .stays
  · exact .refused _
  · exact .refused _
  · exact .stays

theorem Moved.drawn (h : Moved delivery files delivery' files') :
    delivery'.drawn = delivery.drawn := by
  cases h <;> rfl

def Stored (delivery : Delivery) (files : FileTree) : Prop :=
  match delivery.phase with
  | .writing trail written => written ≤ delivery.payload.length ∧
      files.Stores delivery.path trail (delivery.payload.take written)
  | .returned (.ok ()) => ∃ trail, files.Stores delivery.path trail delivery.payload
  | _ => True

theorem Stored.writing (h : delivery.Stored files) {trail : Trail} {written : Nat}
    (hphase : delivery.phase = .writing trail written) : written ≤ delivery.payload.length ∧
      files.Stores delivery.path trail (delivery.payload.take written) := by
  rw [Stored, hphase] at h
  exact h

section Entry

variable (hentry : FileTree.IsEntry delivery.fileName)
include hentry

theorem Moved.changed (h : Moved delivery files delivery' files')
    (hstored : delivery.Stored files) :
    FileTree.Changed delivery.fileName files files' := by
  cases h with
  | stays => exact FileTree.Changed.refl _ _
  | opens _ h => exact FileTree.changed_truncate hentry h
  | @fills trail written more hphase _ =>
    obtain ⟨hle, hstores⟩ := hstored.writing hphase
    have hlength := List.length_take_of_le hle
    rw [← hlength]
    exact hstores.changed_overwrite hentry more
  | closes => exact FileTree.Changed.refl _ _
  | refused => exact FileTree.Changed.refl _ _

theorem Moved.stored (h : Moved delivery files delivery' files') (hstored : delivery.Stored files) :
    delivery'.Stored files' := by
  cases h with
  | stays => exact hstored
  | opens _ h => exact ⟨Nat.zero_le _, FileTree.stores_truncate hentry h⟩
  | @fills trail written more hphase hmore =>
    obtain ⟨hle, hstores⟩ := hstored.writing hphase
    have hlength := List.length_take_of_le hle
    have hwritten := hstores.stores_overwrite hentry more
    rw [hlength] at hwritten
    -- the piece is the next of the payload, so what is written stays a front of it
    obtain ⟨rest, hrest⟩ := hmore
    have htake : delivery.payload.take (written + more.length) =
        delivery.payload.take written ++ more := by
      rw [List.take_add, ← hrest, List.take_left]
    refine ⟨?_, ?_⟩
    · have hdrop := congrArg List.length hrest
      rw [List.length_append, List.length_drop] at hdrop
      show written + more.length ≤ delivery.payload.length
      omega
    · show FileTree.Stores _ _ _ _
      rw [htake]
      exact hwritten
  | closes hphase =>
    obtain ⟨-, hstores⟩ := hstored.writing hphase
    rw [List.take_length] at hstores
    exact ⟨_, hstores⟩
  | refused => trivial

theorem Stored.frame (h : delivery.Stored files) {name : String} (hne : delivery.fileName ≠ name)
    (hchanged : FileTree.Changed name files files') : delivery.Stored files' := by
  have hkept : ∀ trail content, files.Stores delivery.path trail content →
      files'.Stores delivery.path trail content := fun trail content hstores =>
    hstores.frame hchanged fun hlast => hne (Option.some.inj
      ((hstores.getLast? hentry).symm.trans hlast))
  rw [Stored] at h ⊢
  split at h
  · exact ⟨h.1, hkept _ _ h.2⟩
  · exact ⟨h.choose, hkept _ _ h.choose_spec⟩
  · trivial

end Entry

end Delivery

end MetricReporting
