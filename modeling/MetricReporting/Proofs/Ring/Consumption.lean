import MetricReporting.Proofs.Ring.Slots
import MetricReporting.Proofs.Ring.Traffic

/-!
# A consume from end to end

A consume that finds the guard free scans the run of raised fences at the consume position, calls
back once with the entries of this run, and then clears and releases exactly their slots, whatever
the callback has stored into them. A consume that finds the guard taken does nothing at all.
-/
namespace MetricReporting.Ring

/-- So many fences in a row are raised; there the row ends, or the limit is reached. -/
structure RaisedRun (ring : Ring) (start limit n : Nat) : Prop where
  le : n ≤ limit
  raised : ∀ i < n, ring.fenceAt (start + i) ≠ 0
  ends : n < limit → ring.fenceAt (start + n) = 0

/-- The ring where from a position on so many entries have been made blank and so many fences have
been lowered. -/
structure Cleared (ring : Ring) (start blanked lowered : Nat) (ring' : Ring) : Prop where
  frame : ring' = { ring with slots := ring'.slots, fences := ring'.fences }
  shaped : ring'.Shaped
  capacity : ring'.capacity = ring.capacity
  entryAt : ∀ i < ring.capacity,
    ring'.entryAt (start + i) = if i < blanked then Entry.blank else ring.entryAt (start + i)
  fenceAt : ∀ i < ring.capacity,
    ring'.fenceAt (start + i) = if i < lowered then 0 else ring.fenceAt (start + i)

/-- The ring after a consume that released so many positions: their slots are blank and lowered, and
nothing else has changed but the consume position and the guard. -/
structure Released (ring : Ring) (n : Nat) (ring' : Ring) : Prop where
  frame : ring' = { ring with
    slots := ring'.slots, fences := ring'.fences, consumed := ring.consumed + n, guarded := false }
  shaped : ring'.Shaped
  capacity : ring'.capacity = ring.capacity
  cleared : ∀ i < n, ring'.slots[ring.index (ring.consumed + i)]? = some Entry.blank ∧
    ring'.fences[ring.index (ring.consumed + i)]? = some 0
  others : ∀ slot, (∀ i < n, ring.index (ring.consumed + i) ≠ slot) →
    ring'.slots[slot]? = ring.slots[slot]? ∧ ring'.fences[slot]? = ring.fences[slot]?

/-- A consume whose callback stores into its chunk and does nothing else with the ring: the chunks
that it is called with, the count returned, and the ring afterwards. -/
def consumeEditing (edit : List Entry → List Entry) (ring : Ring) (most : Nat) :
    List (List Entry) × Nat × Ring :=
  let (ring, state) := Consume.opened ring most
  let shown := Consume.held ring state
  let edited := Traffic.edited ring state ((shown.map edit).getD [])
  let (ring, state) := Consume.closed (edited, state)
  (shown.toList, state.count, ring)

variable {ring ring' : Ring} {start limit blanked lowered n p : Nat}

/-- `Ring.consume` is the consume whose callback stores nothing. -/
theorem consume_eq_consumeEditing (ring : Ring) (most : Nat) :
    ring.consume most = ((ring.consumeEditing (fun _ => []) most).1.flatten,
      (ring.consumeEditing (fun _ => []) most).2.2) := by
  unfold Ring.consume consumeEditing
  cases hopened : Consume.opened ring most with
  | mk ring state =>
    cases hheld : Consume.held ring state with
    | none => simp [hheld, Traffic.edited_nil]
    | some chunk => simp [hheld, Traffic.edited_nil]

theorem RaisedRun.unique {m : Nat} (hn : ring.RaisedRun start limit n)
    (hm : ring.RaisedRun start limit m) : n = m := by
  rcases Nat.lt_trichotomy n m with hlt | heq | hlt
  · exact absurd (hn.ends (hlt.trans_le hm.le)) (hm.raised n hlt)
  · exact heq
  · exact absurd (hm.ends (hlt.trans_le hn.le)) (hn.raised m hlt)

/-! ## Up to the callback -/

namespace Consume

/-- A consume with the guard stops at its callback, or has returned if there is nothing to show. -/
def outcome (ring : Ring) (start n : Nat) : Ring × Consume :=
  if n = 0 then ({ ring with guarded := false }, returned 0) else (ring, delivering start n)

theorem scan {len fuel : Nat} (hlimit : limit ≤ ring.capacity - ring.index start)
    (hle : len ≤ limit) (hraised : ∀ i < len, ring.fenceAt (start + i) ≠ 0)
    (hfuel : limit - len + 2 ≤ fuel) : ∃ n, ring.RaisedRun start limit n ∧
      stepsUntil (fun c => c.isDelivering || c.isReturned) fuel (ring, scanning start limit len) =
        outcome ring start n := by
  induction fuel generalizing len with
  | zero => omega
  | succ fuel ih =>
    by_cases htest : len < limit ∧ ring.fenceAt (start + len) ≠ 0
    · have hmore : ∀ i < len + 1, ring.fenceAt (start + i) ≠ 0 := by
        intro i hi
        rcases Nat.lt_succ_iff_lt_or_eq.1 hi with hlt | rfl
        · exact hraised i hlt
        · exact htest.2
      obtain ⟨n, hrun, hsteps⟩ := ih htest.1 hmore (by omega)
      refine ⟨n, hrun, Eq.trans ?_ hsteps⟩
      simp [stepsUntil, isDelivering, isReturned, step_scanning hlimit, htest]
    · refine ⟨len, ⟨hle, hraised, fun hlt => ?_⟩, ?_⟩
      · by_contra hfence
        exact htest ⟨hlt, hfence⟩
      · obtain ⟨rest, rfl⟩ : ∃ rest, fuel = rest + 1 := ⟨fuel - 1, by omega⟩
        unfold outcome
        by_cases hnone : len = 0
        · subst hnone
          simp only [stepsUntil, isDelivering, isReturned, step_scanning hlimit, htest]
          cases rest with
          | zero => rfl
          | succ rest => rfl
        · simp only [stepsUntil, isDelivering, isReturned, step_scanning hlimit, htest, hnone]
          simp

theorem opened_of_unguarded (hfree : ring.guarded = false) (most : Nat) :
    ∃ n, ring.RaisedRun ring.consumed (reach ring most ring.consumed) n ∧
      opened ring most = if n = 0 then (ring, returned 0)
        else ({ ring with guarded := true }, delivering ring.consumed n) := by
  have hrestored : { ring with guarded := false } = ring := by rw [← hfree]
  have hnone (i : Nat) (hi : i < 0) : ring.fenceAt (ring.consumed + i) ≠ 0 :=
    absurd hi (Nat.not_lt_zero i)
  rcases Nat.eq_zero_or_pos most with rfl | hmost
  · refine ⟨0, ⟨Nat.zero_le _, hnone, fun hlt => ?_⟩, ?_⟩
    · exact absurd hlt (by simp [reach])
    · simp [opened, stepsUntil, isDelivering, isReturned, step]
  · have hreach : reach ring most ring.consumed ≤ ring.capacity := by
      unfold reach
      omega
    obtain ⟨n, hrun, hsteps⟩ := @scan { ring with guarded := true } ring.consumed
      (reach ring most ring.consumed) 0 (ring.capacity + 3) (Nat.min_le_right _ _)
      (Nat.zero_le _) hnone (by omega)
    refine ⟨n, ⟨hrun.le, hrun.raised, hrun.ends⟩, ?_⟩
    have hopened : opened ring most =
        stepsUntil (fun c => c.isDelivering || c.isReturned) (ring.capacity + 3)
          ({ ring with guarded := true },
            scanning ring.consumed (reach ring most ring.consumed) 0) := by
      simp only [opened, stepsUntil, isDelivering, isReturned, step, hfree]
      simp [Nat.ne_of_gt hmost, reach, Ring.index, Ring.capacity]
    rw [hopened, hsteps, outcome]
    split
    · exact congrArg (·, returned 0) hrestored
    · rfl

end Consume

/-! ## From the callback on -/

theorem Cleared.refl (hs : ring.Shaped) (start : Nat) : ring.Cleared start 0 0 ring :=
  ⟨rfl, hs, rfl, fun _ _ => rfl, fun _ _ => rfl⟩

theorem Cleared.blank (h : ring.Cleared start blanked lowered ring')
    (hlt : blanked < ring.capacity) :
    ring.Cleared start (blanked + 1) lowered (ring'.setEntry (start + blanked) Entry.blank) := by
  refine ⟨?_, h.shaped.setEntry _ _, (setEntry_capacity _ _ _).trans h.capacity,
    fun i hi => ?_, fun i hi => (setEntry_fenceAt _ _ _ _).trans (h.fenceAt i hi)⟩
  · rw [h.frame]
    rfl
  · by_cases hself : i = blanked
    · subst hself
      rw [if_pos (Nat.lt_succ_self i)]
      exact h.shaped.entryAt_setEntry _ _
    · have hne : ring'.index (start + i) ≠ ring'.index (start + blanked) := by
        have := h.capacity
        exact index_ne (by omega) (by omega) (by omega)
      rw [entryAt_setEntry_of_ne hne, h.entryAt i hi]
      by_cases hold : i < blanked
      · rw [if_pos hold, if_pos (by omega)]
      · rw [if_neg hold, if_neg (by omega)]

theorem Cleared.lower (h : ring.Cleared start blanked lowered ring')
    (hlt : lowered < ring.capacity) :
    ring.Cleared start blanked (lowered + 1) (ring'.setFence (start + lowered) 0) := by
  refine ⟨?_, h.shaped.setFence _ _, h.capacity, h.entryAt, fun i hi => ?_⟩
  · rw [h.frame]
    rfl
  · by_cases hself : i = lowered
    · subst hself
      rw [if_pos (Nat.lt_succ_self i)]
      exact h.shaped.fenceAt_setFence _ _
    · have hne : ring'.index (start + i) ≠ ring'.index (start + lowered) := by
        have := h.capacity
        exact index_ne (by omega) (by omega) (by omega)
      rw [fenceAt_setFence_of_ne hne, h.fenceAt i hi]
      by_cases hold : i < lowered
      · rw [if_pos hold, if_pos (by omega)]
      · rw [if_neg hold, if_neg (by omega)]

namespace Consume

variable {len done fuel : Nat}

theorem lower_rest (h : ring.Cleared start len done ring') (hcapacity : len ≤ ring.capacity)
    (hdone : done ≤ len) (hfuel : len - done + 3 ≤ fuel) :
    ∃ after, ring.Cleared start len len after ∧
      stepsUntil isReturned fuel (ring', lowering start len done) =
        ({ after with consumed := after.consumed + len, guarded := false }, returned len) := by
  induction fuel generalizing ring' done with
  | zero => omega
  | succ fuel ih =>
    by_cases hlt : done < len
    · obtain ⟨after, hafter, hsteps⟩ := ih (h.lower (hlt.trans_le hcapacity)) hlt (by omega)
      refine ⟨after, hafter, Eq.trans ?_ hsteps⟩
      simp [stepsUntil, isReturned, step, hlt]
    · obtain rfl : done = len := by omega
      obtain ⟨rest, rfl⟩ : ∃ rest, fuel = rest + 2 := ⟨fuel - 2, by omega⟩
      refine ⟨ring', h, ?_⟩
      cases rest <;> simp [stepsUntil, isReturned, step]

theorem blank_rest (h : ring.Cleared start done 0 ring') (hcapacity : len ≤ ring.capacity)
    (hdone : done ≤ len) (hfuel : len - done + len + 4 ≤ fuel) :
    ∃ after, ring.Cleared start len len after ∧
      stepsUntil isReturned fuel (ring', blanking start len done) =
        ({ after with consumed := after.consumed + len, guarded := false }, returned len) := by
  induction fuel generalizing ring' done with
  | zero => omega
  | succ fuel ih =>
    by_cases hlt : done < len
    · obtain ⟨after, hafter, hsteps⟩ := ih (h.blank (hlt.trans_le hcapacity)) hlt (by omega)
      refine ⟨after, hafter, Eq.trans ?_ hsteps⟩
      simp [stepsUntil, isReturned, step, hlt]
    · obtain rfl : done = len := by omega
      obtain ⟨after, hafter, hsteps⟩ := lower_rest h hcapacity (Nat.zero_le _)
        (show done - 0 + 3 ≤ fuel by omega)
      refine ⟨after, hafter, Eq.trans ?_ hsteps⟩
      simp [stepsUntil, isReturned, step]

theorem closed_delivering (start : Nat) (hs : ring.Shaped) (hcapacity : len ≤ ring.capacity) :
    ∃ after, ring.Cleared start len len after ∧ closed (ring, delivering start len) =
      ({ after with consumed := after.consumed + len, guarded := false }, returned len) := by
  have hfuel : len - 0 + len + 4 ≤ 2 * ring.capacity + 5 := by omega
  obtain ⟨after, hafter, hsteps⟩ :=
    blank_rest (Cleared.refl hs start) hcapacity (Nat.zero_le len) hfuel
  exact ⟨after, hafter, hsteps⟩

theorem closed_returned (ring : Ring) (count : Nat) :
    closed (ring, returned count) = (ring, returned count) := rfl

end Consume

theorem Released.of_window (hs : ring.Shaped) (hs' : ring'.Shaped)
    (hcapacity : ring'.capacity = ring.capacity) (hn : n ≤ ring.capacity)
    (hframe : ring' = { ring with
      slots := ring'.slots, fences := ring'.fences, consumed := ring.consumed + n,
      guarded := false })
    (hentry : ∀ i < ring.capacity, ring'.entryAt (ring.consumed + i) =
      if i < n then Entry.blank else ring.entryAt (ring.consumed + i))
    (hfence : ∀ i < ring.capacity, ring'.fenceAt (ring.consumed + i) =
      if i < n then 0 else ring.fenceAt (ring.consumed + i)) : ring.Released n ring' := by
  have hindex : ∀ q, ring.index q = ring'.index q := fun q => by rw [index, index, hcapacity]
  have hslots : ∀ q, ring'.slots[ring.index q]? = some (ring'.entryAt q) := fun q => by
    rw [hindex, hs'.slots_getElem?]
  have hfences : ∀ q, ring'.fences[ring.index q]? = some (ring'.fenceAt q) := fun q => by
    rw [hindex, hs'.fences_getElem?]
  refine ⟨hframe, hs', hcapacity, fun i hi => ?_, fun slot hother => ?_⟩
  · rw [hslots, hfences, hentry i (hi.trans_le hn), hfence i (hi.trans_le hn), if_pos hi, if_pos hi]
    exact ⟨rfl, rfl⟩
  · by_cases hslot : slot < ring.capacity
    · obtain ⟨q, hle, hlt, rfl⟩ := exists_index_eq hslot ring.consumed
      obtain ⟨i, rfl⟩ := Nat.exists_eq_add_of_le hle
      have hi : ¬ i < n := fun hi => hother i hi rfl
      rw [hslots, hfences, hs.slots_getElem?, hs.fences_getElem?, hentry i (by omega),
        hfence i (by omega), if_neg hi, if_neg hi]
      exact ⟨rfl, rfl⟩
    · have hslot' : ¬ slot < ring'.capacity := hcapacity ▸ hslot
      have houtside : ring'.slots.size ≤ slot ∧ ring.slots.size ≤ slot ∧ ring'.fences.size ≤ slot ∧
          ring.fences.size ≤ slot := by
        have hsize := hs.fences_size
        have hsize' := hs'.fences_size
        unfold Ring.capacity at hslot hslot' hsize hsize'
        omega
      obtain ⟨h1, h2, h3, h4⟩ := houtside
      rw [Array.getElem?_eq_none h1, Array.getElem?_eq_none h2, Array.getElem?_eq_none h3,
        Array.getElem?_eq_none h4]
      exact ⟨rfl, rfl⟩

/-- A callback that returns lets go of its chunk, and of nothing else. -/
theorem released_closed (hs : ring.Shaped) (hn : n ≤ ring.capacity) :
    ∃ ring', Consume.closed (ring, .delivering ring.consumed n) = (ring', .returned n) ∧
      ring.Released n ring' := by
  obtain ⟨after, hafter, hclosed⟩ := Consume.closed_delivering ring.consumed hs hn
  refine ⟨_, hclosed, .of_window hs ⟨hafter.shaped.capacity_pos, hafter.shaped.fences_size⟩
    hafter.capacity hn ?_ hafter.entryAt hafter.fenceAt⟩
  rw [hafter.frame]

/-! ## The whole consume -/

/-- Nobody is past the guard, and the ring holds no more than it has slots. -/
structure Idle (ring : Ring) : Prop where
  shaped : ring.Shaped
  unguarded : ring.guarded = false
  consumed_le : ring.consumed ≤ ring.written
  written_le : ring.written ≤ ring.consumed + ring.capacity

theorem overwrite_frame (ring : Ring) (start : Nat) (entries : List Entry) :
    ring.overwrite start entries = { ring with slots := (ring.overwrite start entries).slots } := by
  induction entries generalizing ring start with
  | nil => rfl
  | cons entry rest ih =>
    rw [overwrite, ih]
    rfl

theorem Released.of_overwrite {entries : List Entry} (hs : ring.Shaped)
    (hlength : entries.length ≤ n)
    (h : Released ({ ring with guarded := true }.overwrite ring.consumed entries) n ring') :
    ring.Released n ring' := by
  generalize hedited :
    Ring.overwrite { ring with guarded := true } ring.consumed entries = edited at h
  have hframe : edited = { ring with guarded := true, slots := edited.slots } := by
    rw [← hedited]
    exact overwrite_frame _ _ _
  have hsame := overwrite_sameFrame { ring with guarded := true } ring.consumed entries
  rw [hedited] at hsame
  have hs' : edited.Shaped := hsame.shaped ⟨hs.capacity_pos, hs.fences_size⟩
  have hcapacity : edited.capacity = ring.capacity := hsame.capacity
  have hconsumed : edited.consumed = ring.consumed := hsame.consumed
  have hindex : ∀ q, edited.index q = ring.index q := fun q => by rw [index, index, hcapacity]
  refine ⟨?_, h.shaped, h.capacity.trans hcapacity, fun i hi => ?_, fun slot hother => ?_⟩
  · rw [h.frame, hframe]
  · rw [← hindex, ← hconsumed]
    exact h.cleared i hi
  · obtain ⟨hslots, hfences⟩ := h.others slot fun i hi => by
      rw [hindex, hconsumed]
      exact hother i hi
    refine ⟨hslots.trans ?_, hfences.trans (by rw [hframe])⟩
    by_cases hslot : slot < ring.capacity
    · obtain ⟨q, hle, hlt, rfl⟩ := exists_index_eq hslot ring.consumed
      have hge : ring.consumed + n ≤ q := by
        by_contra hcon
        exact hother (q - ring.consumed) (by omega) (by congr 1; omega)
      have hentry : edited.entryAt q = ring.entryAt q := by
        rw [← hedited]
        exact entryAt_overwrite_of_le (by omega) hlt
      rw [hs.slots_getElem?, ← hindex, hs'.slots_getElem?, hentry]
    · have hsize : edited.slots.size = ring.slots.size := hcapacity
      unfold Ring.capacity at hslot
      rw [Array.getElem?_eq_none (by omega), Array.getElem?_eq_none (by omega)]

/-- A consume of an idle ring, whatever its callback stores into the chunk. -/
theorem Idle.consumeEditing (hidle : ring.Idle) (edit : List Entry → List Entry) (most : Nat) :
    ∃ n ring', ring.RaisedRun ring.consumed (Consume.reach ring most ring.consumed) n ∧
      ring.consumeEditing edit most =
        (if n = 0 then [] else [ring.chunk ring.consumed n], n, ring') ∧
      ring.Released n ring' := by
  obtain ⟨n, hrun, hopened⟩ := Consume.opened_of_unguarded hidle.unguarded most
  have hcapacity : n ≤ ring.capacity := by
    have := hrun.le
    unfold Consume.reach at this
    omega
  by_cases hnone : n = 0
  · subst hnone
    refine ⟨0, ring, hrun, ?_, ?_, hidle.shaped, rfl, nofun, fun _ _ => ⟨rfl, rfl⟩⟩
    · simp only [Ring.consumeEditing, hopened, if_true, Consume.held, Traffic.edited,
        Consume.closed_returned, Consume.count, Option.toList_none]
    · rw [← hidle.unguarded]
      rfl
  · rw [if_neg hnone] at hopened
    let entries := (edit (ring.chunk ring.consumed n)).take n
    have hsame := overwrite_sameFrame { ring with guarded := true } ring.consumed entries
    have hconsumed : (Ring.overwrite { ring with guarded := true } ring.consumed entries).consumed =
        ring.consumed := hsame.consumed
    obtain ⟨ring', hclosed, hreleased⟩ := released_closed
      (hsame.shaped ⟨hidle.shaped.capacity_pos, hidle.shaped.fences_size⟩)
      (hcapacity.trans hsame.capacity.ge)
    rw [hconsumed] at hclosed
    refine ⟨n, ring', hrun, ?_, hreleased.of_overwrite hidle.shaped
      (List.length_take_le n _)⟩
    have hchunk : Ring.chunk { ring with guarded := true } ring.consumed n =
        ring.chunk ring.consumed n := rfl
    simp only [Ring.consumeEditing, hopened, Consume.held, Option.map_some, Option.getD_some,
      Traffic.edited, Option.toList_some, hchunk, if_neg hnone]
    rw [show (edit (ring.chunk ring.consumed n)).take n = entries from rfl, hclosed]
    rfl

/-! ## Emptying the ring -/

theorem RaisedRun.eq_min (h : ring.RaisedRun start limit n) (run : Nat)
    (hraised : ∀ i < run, ring.fenceAt (start + i) ≠ 0)
    (hends : run < limit → ring.fenceAt (start + run) = 0) : n = min limit run := by
  refine h.unique ⟨Nat.min_le_left _ _, fun i hi => hraised i (hi.trans_le (Nat.min_le_right _ _)),
    fun hlt => ?_⟩
  have hrun : run < limit := by omega
  rw [Nat.min_eq_right hrun.le]
  exact hends hrun

theorem Released.kept (h : ring.Released n ring') (hs : ring.Shaped) (hle : ring.consumed + n ≤ p)
    (hlt : p < ring.consumed + ring.capacity) :
    ring'.entryAt p = ring.entryAt p ∧ ring'.fenceAt p = ring.fenceAt p := by
  have hindex : ring'.index p = ring.index p := by rw [index, index, h.capacity]
  obtain ⟨hslots, hfences⟩ := h.others (ring.index p) fun i hi =>
    index_ne (by omega) (by omega) (by omega)
  rw [← hindex, h.shaped.slots_getElem?, hindex, hs.slots_getElem?] at hslots
  rw [← hindex, h.shaped.fences_getElem?, hindex, hs.fences_getElem?] at hfences
  exact ⟨Option.some.inj hslots, Option.some.inj hfences⟩

theorem Released.consumed (h : ring.Released n ring') : ring'.consumed = ring.consumed + n := by
  rw [h.frame]

theorem Released.written (h : ring.Released n ring') : ring'.written = ring.written := by
  rw [h.frame]

theorem Released.idle (h : ring.Released n ring') (hidle : ring.Idle) (hn : n ≤ ring.outstanding) :
    ring'.Idle := by
  have hle := hidle.consumed_le
  have hwindow := hidle.written_le
  unfold outstanding at hn
  refine ⟨h.shaped, by rw [h.frame], ?_, ?_⟩
  · rw [h.consumed, h.written]
    omega
  · rw [h.consumed, h.written, h.capacity]
    omega

theorem chunk_add (ring : Ring) (start n m : Nat) :
    ring.chunk start (n + m) = ring.chunk start n ++ ring.chunk (start + n) m := by
  simp only [chunk, List.range_add, List.map_append, List.map_map, Function.comp_def, Nat.add_assoc]

theorem flatten_shown (ring : Ring) (start n : Nat) :
    (if n = 0 then [] else [ring.chunk start n]).flatten = ring.chunk start n := by
  split
  · rename_i hnone
    rw [hnone]
    rfl
  · exact List.append_nil _

/-- A consume of a ring whose outstanding positions are all raised gets as far as the end of the
array. -/
theorem Idle.consumeEditing_of_raised (hidle : ring.Idle)
    (hraised : ∀ p, ring.consumed ≤ p → p < ring.written → ring.fenceAt p ≠ 0)
    (edit : List Entry → List Entry) {most : Nat} (hmost : ring.capacity ≤ most) :
    ∃ n ring', n = min ring.outstanding (ring.capacity - ring.index ring.consumed) ∧
      (ring.consumeEditing edit most).1.flatten = ring.chunk ring.consumed n ∧
      (ring.consumeEditing edit most).2.2 = ring' ∧ ring.Released n ring' := by
  obtain ⟨n, ring', hrun, hout, hreleased⟩ := hidle.consumeEditing edit most
  have hle := hidle.consumed_le
  have hwindow := hidle.written_le
  have hlimit := hrun.eq_min ring.outstanding
    (fun i hi => hraised _ (Nat.le_add_right _ _) (by unfold outstanding at hi; omega))
    (fun hlt => by
      unfold Consume.reach outstanding at hlt
      omega)
  refine ⟨n, ring', ?_, ?_, by rw [hout], hreleased⟩
  · unfold Consume.reach outstanding at *
    omega
  · rw [hout]
    exact flatten_shown _ _ _

/-- Two consumes empty a ring whose outstanding positions are all raised, wherever it begins. -/
theorem Idle.consumeEditing_twice (hidle : ring.Idle)
    (hraised : ∀ p, ring.consumed ≤ p → p < ring.written → ring.fenceAt p ≠ 0)
    (edit edit' : List Entry → List Entry) {most most' : Nat} (hmost : ring.capacity ≤ most)
    (hmost' : ring.capacity ≤ most') :
    let first := ring.consumeEditing edit most
    let second := first.2.2.consumeEditing edit' most'
    first.1.flatten ++ second.1.flatten = ring.chunk ring.consumed ring.outstanding ∧
      second.2.2.consumed = ring.written ∧ second.2.2.written = ring.written := by
  intro first second
  have hle := hidle.consumed_le
  have hwindow := hidle.written_le
  obtain ⟨n, middle, hn, hshown, hmiddle, hreleased⟩ :=
    hidle.consumeEditing_of_raised hraised edit hmost
  have hfirst : n ≤ ring.outstanding := hn ▸ Nat.min_le_left _ _
  have hkept : ∀ p, ring.consumed + n ≤ p → p < ring.written →
      middle.entryAt p = ring.entryAt p ∧ middle.fenceAt p = ring.fenceAt p := fun p hp hp' =>
    hreleased.kept hidle.shaped hp (by omega)
  obtain ⟨m, last, hm, hrest, hlast, hdone⟩ :=
    (hreleased.idle hidle hfirst).consumeEditing_of_raised (fun p hp hp' => by
      rw [hreleased.consumed] at hp
      rw [hreleased.written] at hp'
      rw [(hkept p hp hp').2]
      exact hraised p (by omega) hp') edit' (hreleased.capacity.trans_le hmost')
  -- what the first consume leaves begins at the beginning of the array
  have htotal : n + m = ring.outstanding := by
    have hindex : middle.index middle.consumed = (ring.consumed + n) % ring.capacity := by
      rw [index, hreleased.capacity, hreleased.consumed]
    rw [hindex, outstanding, hreleased.consumed, hreleased.written, hreleased.capacity] at hm
    have hpos := hidle.shaped.capacity_pos
    have hlt : ring.index ring.consumed < ring.capacity := hidle.shaped.index_lt _
    unfold outstanding at *
    by_cases hshort : ring.written - ring.consumed ≤ ring.capacity - ring.index ring.consumed
    · omega
    · have hend : (ring.consumed + n) % ring.capacity = 0 := by
        have hsum : ring.consumed + n =
            ring.capacity * (ring.consumed / ring.capacity) + ring.capacity := by
          have hsplit := Nat.div_add_mod ring.consumed ring.capacity
          unfold index at *
          omega
        rw [hsum, Nat.add_mod_right, Nat.mul_mod_right]
      omega
  have hchunk : middle.chunk middle.consumed m = ring.chunk (ring.consumed + n) m := by
    rw [hreleased.consumed]
    refine List.map_congr_left fun i hi => ?_
    rw [List.mem_range] at hi
    exact (hkept _ (Nat.le_add_right _ _) (by unfold outstanding at htotal; omega)).1
  refine ⟨?_, ?_, ?_⟩
  · rw [← htotal, chunk_add, ← hchunk, ← hshown, ← hrest, ← hmiddle]
  · show (first.2.2.consumeEditing edit' most').2.2.consumed = ring.written
    rw [show first.2.2 = middle from hmiddle, hlast, hdone.consumed, hreleased.consumed]
    unfold outstanding at htotal
    omega
  · show (first.2.2.consumeEditing edit' most').2.2.written = ring.written
    rw [show first.2.2 = middle from hmiddle, hlast, hdone.written, hreleased.written]

end MetricReporting.Ring
