import MetricReporting.Ring.Consume
import MetricReporting.Ring.Write
import Mathlib.Data.Nat.ModEq

/-!
# Slots seen from positions

Positions less than one capacity apart live in different slots, and positions one capacity apart in
the same. So a store at one position is seen there and nowhere else in a window of one capacity.
-/
namespace MetricReporting.Ring

structure Shaped (ring : Ring) : Prop where
  capacity_pos : 0 < ring.capacity
  fences_size : ring.fences.size = ring.capacity

variable {ring : Ring} {p q : Nat}

theorem Shaped.index_lt (h : ring.Shaped) (p : Nat) : ring.index p < ring.capacity :=
  Nat.mod_lt _ h.capacity_pos

theorem Shaped.setEntry (h : ring.Shaped) (p : Nat) (entry : Entry) :
    (ring.setEntry p entry).Shaped := by
  refine ⟨?_, ?_⟩
  · rw [setEntry_capacity]; exact h.capacity_pos
  · rw [setEntry_capacity]; exact h.fences_size

theorem Shaped.setFence (h : ring.Shaped) (p : Nat) (fence : Int64) :
    (ring.setFence p fence).Shaped := by
  refine ⟨h.capacity_pos, ?_⟩
  rw [setFence_capacity]
  simpa [Ring.setFence] using h.fences_size

theorem index_add_capacity (ring : Ring) (p : Nat) :
    ring.index (p + ring.capacity) = ring.index p :=
  Nat.add_mod_right _ _

theorem index_eq_iff (hpq : p < q + ring.capacity) (hqp : q < p + ring.capacity) :
    ring.index p = ring.index q ↔ p = q := by
  refine ⟨fun h => ?_, fun h => by rw [h]⟩
  rcases Nat.le_total p q with hle | hle
  · exact Nat.ModEq.eq_of_abs_lt h (by rw [abs_lt]; omega)
  · exact Nat.ModEq.eq_of_abs_lt h (by rw [abs_lt]; omega)

theorem index_ne (hpq : p < q + ring.capacity) (hqp : q < p + ring.capacity) (hne : p ≠ q) :
    ring.index p ≠ ring.index q := fun h => hne ((index_eq_iff hpq hqp).1 h)

theorem entryAt_add_capacity (ring : Ring) (p : Nat) :
    ring.entryAt (p + ring.capacity) = ring.entryAt p := by
  rw [entryAt, index_add_capacity, entryAt]

theorem fenceAt_add_capacity (ring : Ring) (p : Nat) :
    ring.fenceAt (p + ring.capacity) = ring.fenceAt p := by
  rw [fenceAt, index_add_capacity, fenceAt]

theorem exists_index_eq {i : Nat} (hi : i < ring.capacity) (start : Nat) :
    ∃ p, start ≤ p ∧ p < start + ring.capacity ∧ ring.index p = i := by
  have hmod : start % ring.capacity < ring.capacity := Nat.mod_lt _ (by omega)
  have hsplit := Nat.div_add_mod start ring.capacity
  by_cases hle : start % ring.capacity ≤ i
  · refine ⟨ring.capacity * (start / ring.capacity) + i, by omega, by omega, ?_⟩
    rw [Ring.index, Nat.mul_add_mod, Nat.mod_eq_of_lt hi]
  · refine ⟨ring.capacity * (start / ring.capacity) + i + ring.capacity, by omega, by omega, ?_⟩
    rw [Ring.index, Nat.add_mod_right, Nat.mul_add_mod, Nat.mod_eq_of_lt hi]

theorem Shaped.slots_getElem? (h : ring.Shaped) (p : Nat) :
    ring.slots[ring.index p]? = some (ring.entryAt p) := by
  have hlt : ring.index p < ring.slots.size := h.index_lt p
  simp [entryAt, Array.getD_eq_getD_getElem?, hlt]

theorem Shaped.fences_getElem? (h : ring.Shaped) (p : Nat) :
    ring.fences[ring.index p]? = some (ring.fenceAt p) := by
  have hlt : ring.index p < ring.fences.size := h.fences_size ▸ h.index_lt p
  simp [fenceAt, Array.getD_eq_getD_getElem?, hlt]

/-! Stores of entries. -/

@[simp] theorem setEntry_written (ring : Ring) (p : Nat) (entry : Entry) :
    (ring.setEntry p entry).written = ring.written := rfl

@[simp] theorem setEntry_consumed (ring : Ring) (p : Nat) (entry : Entry) :
    (ring.setEntry p entry).consumed = ring.consumed := rfl

@[simp] theorem setEntry_guarded (ring : Ring) (p : Nat) (entry : Entry) :
    (ring.setEntry p entry).guarded = ring.guarded := rfl

@[simp] theorem setEntry_index (ring : Ring) (p : Nat) (entry : Entry) (q : Nat) :
    (ring.setEntry p entry).index q = ring.index q := by
  rw [index, setEntry_capacity, index]

@[simp] theorem setEntry_fenceAt (ring : Ring) (p : Nat) (entry : Entry) (q : Nat) :
    (ring.setEntry p entry).fenceAt q = ring.fenceAt q := by
  rw [fenceAt, setEntry_index]
  rfl

theorem Shaped.entryAt_setEntry (h : ring.Shaped) (p : Nat) (entry : Entry) :
    (ring.setEntry p entry).entryAt p = entry := by
  have hp : ring.index p < ring.slots.size := h.index_lt p
  rw [entryAt, setEntry_index]
  simp [Ring.setEntry, hp]

theorem entryAt_setEntry_of_ne (hne : ring.index q ≠ ring.index p) (entry : Entry) :
    (ring.setEntry p entry).entryAt q = ring.entryAt q := by
  rw [entryAt, setEntry_index, entryAt]
  simp [Ring.setEntry, Array.getD_eq_getD_getElem?, hne.symm]

/-! Stores of fences. -/

@[simp] theorem setFence_written (ring : Ring) (p : Nat) (fence : Int64) :
    (ring.setFence p fence).written = ring.written := rfl

@[simp] theorem setFence_consumed (ring : Ring) (p : Nat) (fence : Int64) :
    (ring.setFence p fence).consumed = ring.consumed := rfl

@[simp] theorem setFence_guarded (ring : Ring) (p : Nat) (fence : Int64) :
    (ring.setFence p fence).guarded = ring.guarded := rfl

@[simp] theorem setFence_index (ring : Ring) (p : Nat) (fence : Int64) (q : Nat) :
    (ring.setFence p fence).index q = ring.index q := rfl

@[simp] theorem setFence_entryAt (ring : Ring) (p : Nat) (fence : Int64) (q : Nat) :
    (ring.setFence p fence).entryAt q = ring.entryAt q := rfl

theorem Shaped.fenceAt_setFence (h : ring.Shaped) (p : Nat) (fence : Int64) :
    (ring.setFence p fence).fenceAt p = fence := by
  have hp : ring.index p < ring.fences.size := by rw [h.fences_size]; exact h.index_lt p
  rw [fenceAt, setFence_index]
  simp [Ring.setFence, hp]

theorem fenceAt_setFence_of_ne (hne : ring.index q ≠ ring.index p) (fence : Int64) :
    (ring.setFence p fence).fenceAt q = ring.fenceAt q := by
  rw [fenceAt, setFence_index, fenceAt]
  simp [Ring.setFence, Array.getD_eq_getD_getElem?, hne.symm]

/-! A chunk that is overwritten. -/

structure SameFrame (ring ring' : Ring) : Prop where
  shaped : ring.Shaped → ring'.Shaped
  capacity : ring'.capacity = ring.capacity
  written : ring'.written = ring.written
  consumed : ring'.consumed = ring.consumed
  guarded : ring'.guarded = ring.guarded
  fenceAt : ∀ q, ring'.fenceAt q = ring.fenceAt q

theorem overwrite_sameFrame (ring : Ring) (start : Nat) (entries : List Entry) :
    SameFrame ring (ring.overwrite start entries) := by
  induction entries generalizing ring start with
  | nil => exact ⟨id, rfl, rfl, rfl, rfl, fun _ => rfl⟩
  | cons entry rest ih =>
    have h := ih (ring.setEntry start entry) (start + 1)
    refine ⟨fun hs => h.shaped (hs.setEntry start entry), ?_, h.written, h.consumed, h.guarded, ?_⟩
    · exact h.capacity.trans (setEntry_capacity ring start entry)
    · exact fun q => (h.fenceAt q).trans (setEntry_fenceAt ring start entry q)

theorem entryAt_overwrite_of_le {start : Nat} {entries : List Entry}
    (hle : start + entries.length ≤ q) (hlt : q < start + ring.capacity) :
    (ring.overwrite start entries).entryAt q = ring.entryAt q := by
  induction entries generalizing ring start with
  | nil => rfl
  | cons entry rest ih =>
    rw [List.length_cons] at hle
    have hcap : q < start + 1 + (ring.setEntry start entry).capacity := by
      rw [setEntry_capacity]; omega
    rw [overwrite, ih (by omega) hcap]
    exact entryAt_setEntry_of_ne (index_ne (by omega) (by omega) (by omega)) _

theorem raisedFence_ne_zero (ticks : Int64) : raisedFence ticks ≠ 0 := by
  unfold raisedFence
  split
  · decide
  · rename_i h
    rintro rfl
    exact h (by decide)

/-! ## The round of a consume -/

namespace Consume

theorem epoch_add {start len : Nat} (h : len < ring.capacity - ring.index start) :
    epoch ring (start + len) = epoch ring start := by
  have hindex : ring.index (start + len) = ring.index start + len := by
    rw [index, ← Nat.mod_add_mod]
    exact Nat.mod_eq_of_lt (by rw [index] at h; omega)
  rw [epoch, epoch, hindex]
  omega

theorem step_scanning {start limit len : Nat} (hlimit : limit ≤ ring.capacity - ring.index start) :
    step ring (scanning start limit len) =
      if len < limit ∧ ring.fenceAt (start + len) ≠ 0 then (ring, scanning start limit (len + 1))
      else if len = 0 then (ring, releasing 0)
      else (ring, delivering start len) := by
  have htest : (len < limit ∧ epoch ring (start + len) = epoch ring start ∧
      ring.fenceAt (start + len) ≠ 0) ↔ len < limit ∧ ring.fenceAt (start + len) ≠ 0 :=
    ⟨fun h => ⟨h.1, h.2.2⟩, fun h => ⟨h.1, epoch_add (h.1.trans_le hlimit), h.2⟩⟩
  simp only [step, htest]

end Consume

end MetricReporting.Ring
