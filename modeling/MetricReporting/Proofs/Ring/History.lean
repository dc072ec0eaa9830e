import MetricReporting.Proofs.Ring.Admission
import MetricReporting.Proofs.Ring.Uninterrupted

/-!
# The history of a ring

Where every call on a ring runs to its end before the next one begins, the ring has a history: what
was written into it and what was drained from it. The history is that of a traffic in which nobody
is at work any more. What is drained is the beginning of what was written, and the rest lies in the
ring.
-/
namespace MetricReporting.Ring

theorem Write.full_written (ring : Ring) :
    Write.full ring ring.written = true ↔ ring.capacity ≤ ring.outstanding :=
  decide_eq_true_iff

theorem tryWrite_of_full {ring : Ring} (value : Int64) (tag : Int32)
    (hfull : ring.capacity ≤ ring.outstanding) : ring.tryWrite value tag = (false, ring) := by
  rw [tryWrite, Write.claim_eq, if_pos ((Write.full_written ring).2 hfull)]
  rfl

theorem tryWrite_of_room {ring : Ring} (value : Int64) (tag : Int32)
    (hroom : ring.outstanding < ring.capacity) :
    ring.tryWrite value tag = (true,
      ({ ring with written := ring.written + 1, clock := ring.clock.read.2 }.setEntry ring.written
        ⟨ring.clock.now, value, tag⟩).setFence ring.written (raisedFence ring.clock.now)) := by
  have hnot : ¬ Write.full ring ring.written = true := by
    rw [Write.full_written]
    exact Nat.not_le_of_lt hroom
  rw [tryWrite, Write.claim_eq, if_neg hnot]
  rfl

theorem writeWithin_of_full {ring : Ring} (value : Int64) (tag : Int32)
    (hfull : ring.capacity ≤ ring.outstanding) (attempts : Nat) :
    writeWithin value tag attempts ring = (false, ring) := by
  induction attempts with
  | zero => rfl
  | succ attempts ih =>
    rw [writeWithin, tryWrite_of_full value tag hfull]
    exact ih

theorem writeWithRetry_of_room {ring : Ring} (value : Int64) (tag : Int32)
    (hroom : ring.outstanding < ring.capacity) :
    ring.writeWithRetry value tag = ring.tryWrite value tag := by
  rw [writeWithRetry, writeAttempts, writeWithin, tryWrite_of_room value tag hroom]

namespace Traffic

variable {t : Traffic} {p number : Nat}

structure Settled (t : Traffic) : Prop where
  sound : t.Sound
  idle : t.consumer.isReturned = true
  returned : ∀ call ∈ t.calls, ∃ accepted, call.phase = .returned accepted

theorem Sound.claimed_lt (hs : t.Sound) (hmem : number ∈ t.claims) : number < t.calls.length := by
  obtain ⟨i, hi, hget⟩ := List.getElem_of_mem hmem
  have hlength := hs.claims_length
  obtain ⟨m, call, hm, hcall, -⟩ := hs.positions (t.origin + i) (by omega) (by omega)
  rw [Nat.add_sub_cancel_left, List.getElem?_eq_getElem hi, hget, Option.some.injEq] at hm
  exact hm ▸ (List.getElem?_eq_some_iff.1 hcall).1

/-- Where no call is under way, every position not yet handed out holds what was written there. -/
theorem Settled.recorded? (hs : t.Settled) (hreached : t.ring.consumed ≤ p)
    (hp : p < t.ring.written) : t.recorded? p = some (t.ring.entryAt p) := by
  have horigin := hs.sound.origin_le
  obtain ⟨number, call, hclaim, hcall, hstand⟩ := hs.sound.positions p (by omega) hp
  obtain ⟨accepted, hphase⟩ := hs.returned call (List.mem_of_getElem? hcall)
  rcases hstand with hholds | ⟨-, hentry⟩
  · rw [hphase] at hholds
    cases hholds
  · have hwritten := (hentry (by rw [reached_of_isReturned hs.idle]; exact hreached)).1
    rw [Traffic.recorded?, hclaim, Option.bind_some, written?, hcall]
    exact hwritten

/-- A write that runs alone and finds room claims the next position, and then no call is under way
again. -/
theorem Settled.tryWrite (hs : t.Settled) (value : Int64) (tag : Int32)
    (hroom : t.ring.outstanding < t.ring.capacity) :
    ∃ call, Settled { t with
      ring := (t.ring.tryWrite value tag).2
      calls := t.calls ++ [call]
      claims := t.claims ++ [t.calls.length] } := by
  obtain ⟨call, claims', hrun, hphase⟩ := t.run_tryWrite value tag
  have hsound := hs.sound.run (.call value tag :: List.replicate 6 (.access t.calls.length false))
  have hprefix := hs.sound.claims_prefix_run
    (.call value tag :: List.replicate 6 (.access t.calls.length false))
  rw [hrun] at hsound hprefix
  have htry := tryWrite_of_room value tag hroom
  rw [htry] at hphase
  have hreturned : ∀ other ∈ t.calls ++ [call], ∃ accepted, other.phase = .returned accepted := by
    intro other hother
    rcases List.mem_append.1 hother with hold | hnew
    · exact hs.returned other hold
    · exact ⟨true, List.mem_singleton.1 hnew ▸ hphase⟩
  obtain ⟨more, rfl⟩ := hprefix
  have hlength := hsound.claims_length
  have hlength' := hs.sound.claims_length
  have hown := hsound.calls t.calls.length call List.getElem?_concat_length
  simp only [CallSound, hphase] at hown
  rw [htry] at hlength
  simp only [setFence_written, setEntry_written, List.length_append] at hlength
  -- the one position claimed is the new call's
  obtain ⟨number, rfl⟩ := List.length_eq_one_iff.1 (show more.length = 1 by omega)
  rcases List.mem_append.1 hown.1 with hold | hnew
  · exact absurd (hs.sound.claimed_lt hold) (Nat.lt_irrefl _)
  · rw [← List.mem_singleton.1 hnew] at hsound
    exact ⟨call, hsound, hs.idle, hreturned⟩

end Traffic

/-- What was written into the ring, and what was drained from it. -/
def History (ring : Ring) (written drained : List Entry) : Prop :=
  ∃ t : Traffic, t.Settled ∧ t.ring = ring ∧ t.claims.map t.written? = written.map some ∧
    t.handed.flatten = drained

variable {ring : Ring} {written drained : List Entry}

theorem Fresh.history (h : ring.Fresh) : ring.History [] [] :=
  ⟨.ofRing ring, ⟨Traffic.ofRing_sound h, rfl, nofun⟩, rfl, rfl, rfl⟩

theorem History.outstanding_le (h : ring.History written drained) :
    ring.outstanding ≤ ring.capacity := by
  obtain ⟨t, hs, rfl, -, -⟩ := h
  have := hs.sound.written_le
  unfold outstanding
  omega

theorem History.eq_append (h : ring.History written drained) :
    written = drained ++ ring.chunk ring.consumed ring.outstanding := by
  obtain ⟨t, hs, rfl, hwritten, rfl⟩ := h
  have hreached := Traffic.reached_of_isReturned hs.idle
  have hhanded := hs.sound.handed
  have hlength := hs.sound.claims_length
  have horigin := hs.sound.origin_le
  have hle := hs.sound.reached_le
  rw [hreached] at hhanded hle
  have hsplit := List.take_append_drop (t.ring.consumed - t.origin) (t.claims.map t.written?)
  rw [← List.map_take, ← hhanded] at hsplit
  refine (List.map_inj_right fun a b hab => Option.some.inj hab).1 ?_
  rw [← hwritten, ← hsplit, List.map_append]
  congr 1
  apply List.ext_getElem
  · simp only [List.length_drop, List.length_map, chunk_length, outstanding]
    omega
  · intro i hi hi'
    have hp : i < t.ring.outstanding := by simpa [chunk_length] using hi'
    unfold outstanding at hp
    have hrecorded := hs.recorded? (p := t.ring.consumed + i) (Nat.le_add_right _ _) (by omega)
    have hplace : t.ring.consumed + i - t.origin = t.ring.consumed - t.origin + i := by omega
    rw [Traffic.recorded?, hplace, List.getElem?_eq_getElem (by omega),
      Option.bind_some] at hrecorded
    simpa [chunk] using hrecorded

theorem History.tick (h : ring.History written drained) (clock : Clock) :
    History { ring with clock := clock } written drained := by
  obtain ⟨t, hs, rfl, hwritten, hdrained⟩ := h
  exact ⟨t.act (.tick clock), ⟨hs.sound.act _, hs.idle, hs.returned⟩, rfl, hwritten, hdrained⟩

theorem History.consume (h : ring.History written drained) (most : Nat) :
    (ring.consume most).2.History written (drained ++ (ring.consume most).1) := by
  obtain ⟨t, hs, rfl, hwritten, rfl⟩ := h
  obtain ⟨n, chunks, hrun, hchunks⟩ := hs.sound.run_consume hs.idle most
  have hsound := hs.sound.run (.consume most :: List.replicate n (.proceed []))
  rw [hrun] at hsound
  refine ⟨_, ⟨hsound, rfl, hs.returned⟩, rfl, hwritten, ?_⟩
  rw [List.flatten_append, hchunks]

theorem History.tryWrite (h : ring.History written drained) (value : Int64) (tag : Int32)
    (hroom : ring.outstanding < ring.capacity) :
    (ring.tryWrite value tag).2.History (written ++ [⟨ring.clock.now, value, tag⟩]) drained := by
  obtain ⟨t, hs, rfl, hwritten, rfl⟩ := h
  obtain ⟨call, hsettled⟩ := hs.tryWrite value tag hroom
  have htry := tryWrite_of_room value tag hroom
  have hshaped := hs.sound.shaped
  have hentry : (t.ring.tryWrite value tag).2.entryAt t.ring.written =
      ⟨t.ring.clock.now, value, tag⟩ := by
    rw [htry, setFence_entryAt]
    exact Shaped.entryAt_setEntry ⟨hshaped.capacity_pos, hshaped.fences_size⟩ _ _
  have hlast := hsettled.recorded? (p := t.ring.written)
    (by rw [htry]; exact (t.consumed_le_reached).trans hs.sound.reached_le)
    (by rw [htry]; exact Nat.lt_succ_self _)
  have hplace : t.ring.written - t.origin = t.claims.length := by
    have hlength := hs.sound.claims_length
    omega
  rw [Traffic.recorded?, hplace, List.getElem?_concat_length, Option.bind_some, hentry] at hlast
  refine ⟨_, hsettled, rfl, ?_, rfl⟩
  rw [List.map_append, List.map_append, List.map_singleton, List.map_singleton, hlast, ← hwritten]
  congr 1
  refine List.map_congr_left fun number hmem => ?_
  simp only [Traffic.written?, List.getElem?_append_left (hs.sound.claimed_lt hmem)]

theorem History.writeWithRetry (h : ring.History written drained) (value : Int64) (tag : Int32) :
    (ring.outstanding = ring.capacity ∧ ring.writeWithRetry value tag = (false, ring)) ∨
      (ring.outstanding < ring.capacity ∧ (ring.writeWithRetry value tag).1 = true ∧
        (ring.writeWithRetry value tag).2.History (written ++ [⟨ring.clock.now, value, tag⟩])
          drained) := by
  rcases Nat.lt_or_ge ring.outstanding ring.capacity with hroom | hfull
  · refine Or.inr ⟨hroom, ?_, ?_⟩
    · rw [writeWithRetry_of_room value tag hroom, tryWrite_of_room value tag hroom]
    · rw [writeWithRetry_of_room value tag hroom]
      exact h.tryWrite value tag hroom
  · exact Or.inl ⟨Nat.le_antisymm h.outstanding_le hfull, writeWithin_of_full value tag hfull _⟩

end MetricReporting.Ring
