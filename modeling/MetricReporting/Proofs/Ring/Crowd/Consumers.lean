import MetricReporting.Proofs.Ring.Crowd.Writers

/-!
# Accesses of consumes in a crowd

At most one consume is past the guard. It stores only into slots of published positions, and moves
the consume position when its whole chunk is blank and lowered; a consume that finds the guard taken
does nothing. With the writers' accesses this is every act, so every run keeps the invariant.
-/
namespace MetricReporting.Ring.Crowd

variable {c : Crowd} {ring' : Ring} {number p start len blanked lowered done place : Nat}
  {consume consume' : Consume}

theorem Sound.lt_length_of_mem_claims (hs : c.Sound) (h : number ∈ c.claims) :
    number < c.calls.length := by
  obtain ⟨i, hi, rfl⟩ := List.getElem_of_mem h
  have hclaim : c.claims[i]? = some c.claims[i] := List.getElem?_eq_getElem hi
  rcases hs.positions i (hs.claims_length ▸ hi) with ⟨n, call, hn, hcall, -⟩ | ⟨n, howns⟩
  · rw [Option.some.inj (hclaim.symm.trans hn)]
    exact (List.getElem?_eq_some_iff.1 hcall).1
  · rw [Option.some.inj (hclaim.symm.trans (hs.holds howns).claimant)]
    obtain ⟨call, hcall, -⟩ := howns
    exact (List.getElem?_eq_some_iff.1 hcall).1

theorem Sound.quiet (hs : c.Sound) {calls' : List WriteCall} {consumes' : List Consume}
    (clock : Clock)
    (hkeep : ∀ (n : Nat) (call : WriteCall), c.calls[n]? = some call → calls'[n]? = some call)
    (hcalls : ∀ (n : Nat) (call : WriteCall), calls'[n]? = some call →
      c.calls[n]? = some call ∨ (n ∉ c.claims ∧ call.phase = .starting))
    (hconsumes : ∀ (n : Nat) (consume : Consume), consumes'[n]? = some consume →
      consume.isInside = true → c.consumes[n]? = some consume) :
    Sound { c with
      ring := { c.ring with clock := clock }, calls := calls', consumes := consumes' } := by
  have hpublished : ∀ p, c.Published p → Published { c with
      ring := { c.ring with clock := clock }, calls := calls', consumes := consumes' } p :=
    fun p hp => hp.mono (List.prefix_refl _) fun n call hn _ => hkeep n call hn
  have hinside : ∀ n, Inside { c with
      ring := { c.ring with clock := clock }, calls := calls', consumes := consumes' } n →
      c.Inside n :=
        fun n ⟨consume, hconsume, hin⟩ => ⟨consume, hconsumes n consume hconsume hin, hin⟩
  refine ⟨⟨hs.shaped.capacity_pos, hs.shaped.fences_size⟩, hs.claims_length, hs.consumed_le,
    hs.written_le, hs.claims_nodup, fun n call hn => ?_, fun p hp => ?_, hs.free,
    fun n consume hconsume => ?_, fun n hn => hs.guarded n (hinside n hn),
    fun n m hn hm => hs.alone n m (hinside n hn) (hinside m hm)⟩
  · rcases hcalls n call hn with hold | ⟨hfresh, hphase⟩
    · exact (hs.calls n call hold).frame rfl (Nat.le_refl _) id
        fun p _ hp => ⟨hp.consumed_le, hp.claimant, hp.fence⟩
    · unfold CallSound
      rw [hphase]
      exact hfresh
  · refine (hs.positions p hp).imp (hpublished p) fun ⟨n, call, hn, hholding⟩ => ?_
    exact ⟨n, call, hkeep n call hn, hholding⟩
  · by_cases hin : consume.isInside = true
    · exact (hs.consumes n consume (hconsumes n consume hconsume hin)).frame rfl (Nat.le_refl _)
        hpublished fun _ _ _ _ => ⟨rfl, rfl⟩
    · exact consumeSound_of_outside _ (Bool.eq_false_iff.2 hin)

theorem Sound.begin_call (hs : c.Sound) (value : Int64) (tag : Int32) :
    (c.act (.call value tag)).Sound := by
  refine hs.quiet c.ring.clock
    (fun n call hn => Traffic.getElem?_of_prefix (List.prefix_append _ _) hn) (fun n call hn => ?_)
    fun n consume hconsume _ => hconsume
  by_cases hlt : n < c.calls.length
  · exact Or.inl (by rwa [List.getElem?_append_left hlt] at hn)
  · refine Or.inr ⟨fun hmem => hlt (hs.lt_length_of_mem_claims hmem), ?_⟩
    rw [List.getElem?_append_right (Nat.le_of_not_lt hlt)] at hn
    have hcall := List.mem_of_getElem? hn
    rw [List.mem_singleton] at hcall
    exact hcall ▸ rfl

theorem Sound.outside (hs : c.Sound) {consumes' : List Consume}
    (h : ∀ (n : Nat) (consume : Consume), consumes'[n]? = some consume →
      consume.isInside = true → c.consumes[n]? = some consume) :
    Sound { c with consumes := consumes' } :=
  hs.quiet c.ring.clock (fun _ _ => id) (fun _ _ => Or.inl) h

theorem Sound.outside_append (hs : c.Sound) (h : consume.isInside = false) :
    Sound { c with consumes := c.consumes ++ [consume] } := by
  refine hs.outside fun n other hother hin => ?_
  by_cases hlt : n < c.consumes.length
  · rwa [List.getElem?_append_left hlt] at hother
  · rw [List.getElem?_append_right (Nat.le_of_not_lt hlt)] at hother
    have hmem := List.mem_of_getElem? hother
    rw [List.mem_singleton] at hmem
    rw [hmem, h] at hin
    cases hin

theorem Sound.outside_enter (hs : c.Sound) (h : consume.isInside = false) (place : Nat) :
    (c.enter place c.ring consume).Sound := by
  refine hs.outside fun n other hother hin => ?_
  rw [List.getElem?_set] at hother
  split at hother
  · split at hother
    · rw [Option.some.injEq] at hother
      rw [← hother, h] at hin
      cases hin
    · cases hother
  · exact hother

/-- An access of the consume that is past the guard, or that takes it. The consume position moves
over published positions only, and a slot that is not published is left as it is or is released
blank and lowered. -/
theorem Sound.enter (hs : c.Sound) (hplace : place < c.consumes.length)
    (hothers : ∀ other, c.Inside other → other = place) (hshaped : ring'.Shaped)
    (hcapacity : ring'.capacity = c.ring.capacity) (hwritten : ring'.written = c.ring.written)
    (hconsumed : c.ring.consumed ≤ ring'.consumed) (hle : ring'.consumed ≤ c.ring.written)
    (hreleased : ∀ p, c.ring.consumed ≤ p → p < ring'.consumed → c.Published p)
    (hslot : ∀ p, ring'.consumed ≤ p → p < c.ring.consumed + c.ring.capacity → ¬ c.Published p →
      ring'.entryAt p = c.ring.entryAt p ∧ ring'.fenceAt p = c.ring.fenceAt p)
    (hfree : ∀ p, c.ring.consumed + c.ring.capacity ≤ p → p < ring'.consumed + c.ring.capacity →
      ring'.entryAt p = Entry.blank ∧ ring'.fenceAt p = 0)
    (hguarded : consume'.isInside = true → ring'.guarded = true)
    (hconsume : (c.enter place ring' consume').ConsumeSound consume') :
    (c.enter place ring' consume').Sound := by
  have hwindow := hs.written_le
  -- whoever is past the guard afterwards is this consume
  have hinside : ∀ other, (c.enter place ring' consume').Inside other →
      other = place ∧ consume'.isInside = true := by
    rintro other ⟨consume, hother, hin⟩
    by_cases hne : place = other
    · subst hne
      rw [Crowd.enter, List.getElem?_set_self hplace, Option.some.injEq] at hother
      exact ⟨rfl, hother ▸ hin⟩
    · rw [Crowd.enter, List.getElem?_set_ne hne] at hother
      exact absurd (hothers other ⟨consume, hother, hin⟩).symm hne
  refine ⟨hshaped, hs.claims_length.trans hwritten.symm, hle.trans hwritten.ge, ?_, hs.claims_nodup,
    fun number call hcall => ?_, fun p hp => hs.positions p (hwritten ▸ hp), fun p hp hp' => ?_,
    fun other consume hother => ?_, fun other hother => hguarded (hinside other hother).2,
    fun one other hone hother => (hinside one hone).1.trans (hinside other hother).1.symm⟩
  · show ring'.written ≤ ring'.consumed + ring'.capacity
    omega
  -- a position that a call holds is not published, so the consume position does not pass it
  · refine (hs.calls number call hcall).frame hcapacity hconsumed id fun p hholding hp => ?_
    have hnot : ¬ c.Published p := fun h => h.not_owns hs ⟨call, hcall, hholding⟩
    have hlt := hp.lt_written hs
    have hge : ring'.consumed ≤ p := by
      by_contra hcon
      exact hnot (hreleased p hp.consumed_le (by omega))
    exact ⟨hge, hp.claimant, (hslot p hge (by omega) hnot).2.trans hp.fence⟩
  -- the free slots are the old ones and those released by this access
  · have hlow : c.ring.written ≤ p := hwritten ▸ hp
    have hhigh : p < ring'.consumed + c.ring.capacity := hcapacity ▸ hp'
    by_cases hold : p < c.ring.consumed + c.ring.capacity
    · obtain ⟨he, hf⟩ := hslot p (hle.trans hlow) hold fun h => by have := h.lt_written hs; omega
      show ring'.entryAt p = Entry.blank ∧ ring'.fenceAt p = 0
      rw [he, hf]
      exact hs.free p hlow hold
    · exact hfree p (Nat.le_of_not_lt hold) hhigh
  · by_cases hin : consume.isInside = true
    · obtain ⟨rfl, -⟩ := hinside other ⟨consume, hother, hin⟩
      rw [Crowd.enter, List.getElem?_set_self hplace, Option.some.injEq] at hother
      exact hother ▸ hconsume
    · exact consumeSound_of_outside _ (Bool.eq_false_iff.2 hin)

theorem Sound.stay (hs : c.Sound) (hat : c.consumes[place]? = some consume)
    (hin : consume.isInside = true) (hshaped : ring'.Shaped)
    (hcapacity : ring'.capacity = c.ring.capacity) (hwritten : ring'.written = c.ring.written)
    (hconsumed : ring'.consumed = c.ring.consumed) (hguarded : ring'.guarded = c.ring.guarded)
    (hslot : ∀ p, c.ring.consumed ≤ p → p < c.ring.consumed + c.ring.capacity → ¬ c.Published p →
      ring'.entryAt p = c.ring.entryAt p ∧ ring'.fenceAt p = c.ring.fenceAt p)
    (hconsume : (c.enter place ring' consume').ConsumeSound consume') :
    (c.enter place ring' consume').Sound := by
  have hinside : c.Inside place := ⟨consume, hat, hin⟩
  refine hs.enter (List.getElem?_eq_some_iff.1 hat).1
    (fun other hother => hs.alone other place hother hinside) hshaped hcapacity hwritten
    hconsumed.ge (hconsumed.trans_le hs.consumed_le) (fun p hp hp' => ?_) (hconsumed ▸ hslot)
    (fun p hp hp' => ?_) (fun _ => hguarded.trans (hs.guarded place hinside)) hconsume
  · omega
  · omega

theorem Sound.pass (hs : c.Sound) (hat : c.consumes[place]? = some consume)
    (hin : consume.isInside = true) (hconsume : c.ConsumeSound consume') :
    (c.enter place c.ring consume').Sound :=
  hs.stay hat hin hs.shaped rfl rfl rfl rfl (fun _ _ _ _ => ⟨rfl, rfl⟩)
    (hconsume.frame rfl (Nat.le_refl _) (fun _ => id) fun _ _ _ _ => ⟨rfl, rfl⟩)

theorem Sound.take_guard (hs : c.Sound) (hat : c.consumes[place]? = some consume)
    (hfree : c.ring.guarded = false) (most : Nat) :
    (c.enter place { c.ring with guarded := true } (.guarding most)).Sound := by
  refine hs.enter (List.getElem?_eq_some_iff.1 hat).1 (fun other hother => ?_)
    ⟨hs.shaped.capacity_pos, hs.shaped.fences_size⟩ rfl rfl (Nat.le_refl _) hs.consumed_le
    (fun p hp hp' => ?_) (fun _ _ _ _ => ⟨rfl, rfl⟩) (fun p hp hp' => ?_) (fun _ => rfl) trivial
  · have := hs.guarded other hother
    rw [hfree] at this
    cases this
  · exact absurd hp' (Nat.not_lt.2 hp)
  · exact absurd hp' (Nat.not_lt.2 hp)

theorem Sound.give_guard (hs : c.Sound) (hat : c.consumes[place]? = some consume)
    (hin : consume.isInside = true) (count : Nat) :
    (c.enter place { c.ring with guarded := false } (.returned count)).Sound := by
  refine hs.enter (List.getElem?_eq_some_iff.1 hat).1
    (fun other hother => hs.alone other place hother ⟨consume, hat, hin⟩)
    ⟨hs.shaped.capacity_pos, hs.shaped.fences_size⟩ rfl rfl (Nat.le_refl _) hs.consumed_le
    (fun p hp hp' => ?_) (fun _ _ _ _ => ⟨rfl, rfl⟩) (fun p hp hp' => ?_) nofun trivial
  · exact absurd hp' (Nat.not_lt.2 hp)
  · exact absurd hp' (Nat.not_lt.2 hp)

theorem Sound.chunk_zero (hs : c.Sound) : c.Chunk c.ring.consumed 0 0 0 :=
  ⟨rfl, hs.consumed_le, Nat.le_refl _, Nat.le_refl _, nofun, nofun, nofun, nofun⟩

theorem Chunk.extend (h : c.Chunk start len 0 0) (hs : c.Sound)
    (hlt : start + len < c.ring.written) (hfence : c.ring.fenceAt (start + len) ≠ 0) :
    c.Chunk start (len + 1) 0 0 := by
  refine ⟨h.start_eq, hlt, Nat.zero_le _, Nat.zero_le _, fun i hi => ?_, nofun, nofun,
    fun i hi _ => ?_⟩
  · rcases Nat.lt_succ_iff_lt_or_eq.1 hi with hlt' | rfl
    · exact h.published i hlt'
    · exact hs.published_of_fence hlt hfence
  · rcases Nat.lt_succ_iff_lt_or_eq.1 hi with hlt' | rfl
    · exact h.raised i hlt' (Nat.zero_le _)
    · exact hfence

theorem Chunk.index_ne (h : c.Chunk start len blanked lowered) (hs : c.Sound) {i : Nat}
    (hi : i < len) (hp : c.ring.consumed ≤ p) (hp' : p < c.ring.consumed + c.ring.capacity)
    (hne : p ≠ start + i) : c.ring.index p ≠ c.ring.index (start + i) := by
  have := h.start_eq
  have := h.lt_written hi
  have := hs.written_le
  exact Ring.index_ne (by omega) (by omega) hne

theorem Sound.store_entry (hs : c.Sound) (hat : c.consumes[place]? = some consume)
    (hin : consume.isInside = true) (h : c.Chunk start len blanked lowered) {i : Nat} (hi : i < len)
    (entry : Entry)
    (hconsume :
      (c.enter place (c.ring.setEntry (start + i) entry) consume').ConsumeSound consume') :
    (c.enter place (c.ring.setEntry (start + i) entry) consume').Sound := by
  refine hs.stay hat hin (hs.shaped.setEntry _ _) (setEntry_capacity _ _ _) rfl rfl rfl
    (fun p hp hp' hnot => ⟨entryAt_setEntry_of_ne ?_ _, setEntry_fenceAt _ _ _ _⟩) hconsume
  exact h.index_ne hs hi hp hp' fun heq => hnot (heq ▸ h.published i hi)

theorem Sound.store_fence (hs : c.Sound) (hat : c.consumes[place]? = some consume)
    (hin : consume.isInside = true) (h : c.Chunk start len blanked lowered) {i : Nat} (hi : i < len)
    (fence : Int64)
    (hconsume :
      (c.enter place (c.ring.setFence (start + i) fence) consume').ConsumeSound consume') :
    (c.enter place (c.ring.setFence (start + i) fence) consume').Sound := by
  refine hs.stay hat hin (hs.shaped.setFence _ _) rfl rfl rfl rfl
    (fun p hp hp' hnot => ⟨rfl, fenceAt_setFence_of_ne ?_ _⟩) hconsume
  exact h.index_ne hs hi hp hp' fun heq => hnot (heq ▸ h.published i hi)

theorem proceed_eq (hat : c.consumes[place]? = some consume) :
    c.proceed place =
      c.enter place (Consume.step c.ring consume).1 (Consume.step c.ring consume).2 := by
  simp only [proceed, hat]

theorem Sound.proceed_scanning (hs : c.Sound) {limit : Nat}
    (hat : c.consumes[place]? = some (.scanning start limit len)) : (c.proceed place).Sound := by
  obtain ⟨hlimit, hwritten, hchunk⟩ : len ≤ limit ∧ start + limit ≤ c.ring.written ∧
      c.Chunk start len 0 0 := hs.consumes place _ hat
  rw [proceed_eq hat]
  by_cases htest : len < limit ∧
      Consume.epoch c.ring (start + len) = Consume.epoch c.ring start ∧
      c.ring.fenceAt (start + len) ≠ 0
  · simp only [Consume.step, htest, ↓reduceIte, ne_eq, not_false_eq_true, and_self]
    exact hs.pass hat rfl ⟨htest.1, hwritten, hchunk.extend hs (by omega) htest.2.2⟩
  · simp only [Consume.step, htest, ↓reduceIte]
    split
    · exact hs.pass hat rfl trivial
    · exact hs.pass hat rfl hchunk

theorem Sound.proceed_blanking (hs : c.Sound)
    (hat : c.consumes[place]? = some (.blanking start len done)) : (c.proceed place).Sound := by
  have hchunk : c.Chunk start len done 0 := hs.consumes place _ hat
  rw [proceed_eq hat]
  by_cases hlt : done < len
  · simp only [Consume.step, hlt, ↓reduceIte]
    refine hs.store_entry hat rfl hchunk hlt Entry.blank ⟨hchunk.start_eq, hchunk.le_written, hlt,
      Nat.zero_le _, hchunk.published, fun i hi => ?_,
      fun i hi => absurd hi (Nat.not_lt_zero i), fun i hi hle => ?_⟩
    · rcases Nat.lt_succ_iff_lt_or_eq.1 hi with hlt' | rfl
      · refine (entryAt_setEntry_of_ne (Ring.index_ne ?_ ?_ ?_) _).trans (hchunk.blank i hlt')
        all_goals
          have := hchunk.start_eq
          have := hchunk.le_written
          have := hs.written_le
          omega
      · exact hs.shaped.entryAt_setEntry _ _
    · exact (setEntry_fenceAt _ _ _ _).trans_ne (hchunk.raised i hi hle)
  · simp only [Consume.step, hlt, ↓reduceIte]
    obtain rfl : done = len := Nat.le_antisymm hchunk.blanked_le (Nat.le_of_not_lt hlt)
    exact hs.pass hat rfl hchunk

theorem Sound.proceed_lowering (hs : c.Sound)
    (hat : c.consumes[place]? = some (.lowering start len done)) : (c.proceed place).Sound := by
  have hchunk : c.Chunk start len len done := hs.consumes place _ hat
  rw [proceed_eq hat]
  by_cases hlt : done < len
  · simp only [Consume.step, hlt, ↓reduceIte]
    have hother : ∀ i < len, i ≠ done →
        (c.ring.setFence (start + done) 0).fenceAt (start + i) = c.ring.fenceAt (start + i) := by
      intro i hi hne
      have := hchunk.start_eq
      have := hchunk.lt_written hi
      have := hs.written_le
      exact fenceAt_setFence_of_ne (hchunk.index_ne hs hlt (by omega) (by omega) (by omega)) _
    refine hs.store_fence hat rfl hchunk hlt 0 ⟨hchunk.start_eq, hchunk.le_written, Nat.le_refl _,
      hlt, hchunk.published, hchunk.blank, fun i hi => ?_, fun i hi hle => ?_⟩
    · rcases Nat.lt_succ_iff_lt_or_eq.1 hi with hlt' | rfl
      · exact (hother i (by omega) (by omega)).trans (hchunk.low i hlt')
      · exact hs.shaped.fenceAt_setFence _ _
    · exact (hother i hi (by omega)).trans_ne (hchunk.raised i hi (by omega))
  · simp only [Consume.step, hlt, ↓reduceIte]
    obtain rfl : done = len := Nat.le_antisymm hchunk.lowered_le (Nat.le_of_not_lt hlt)
    exact hs.pass hat rfl hchunk

/-- The chunk goes back to the writers: one capacity further on its slots are blank and lowered. -/
theorem Sound.proceed_advancing (hs : c.Sound)
    (hat : c.consumes[place]? = some (.advancing start len)) : (c.proceed place).Sound := by
  have hchunk : c.Chunk start len len len := hs.consumes place _ hat
  obtain rfl := hchunk.start_eq
  have hinside : c.Inside place := ⟨_, hat, rfl⟩
  rw [proceed_eq hat]
  refine hs.enter (List.getElem?_eq_some_iff.1 hat).1
    (fun other hother => hs.alone other place hother hinside)
    ⟨hs.shaped.capacity_pos, hs.shaped.fences_size⟩ rfl rfl (Nat.le_add_right _ _)
    hchunk.le_written (fun p hp hp' => ?_) (fun _ _ _ _ => ⟨rfl, rfl⟩) (fun p hp hp' => ?_)
    (fun _ => hs.guarded place hinside) trivial
  · obtain ⟨i, rfl⟩ := Nat.exists_eq_add_of_le hp
    exact hchunk.published i (Nat.lt_of_add_lt_add_left hp')
  · obtain ⟨i, rfl⟩ := Nat.exists_eq_add_of_le hp
    have hi : i < len := by
      simp only [Consume.step] at hp'
      omega
    rw [Nat.add_right_comm]
    refine ⟨?_, ?_⟩
    · exact (entryAt_add_capacity c.ring _).trans (hchunk.blank i hi)
    · exact (fenceAt_add_capacity c.ring _).trans (hchunk.low i hi)

theorem Sound.proceed (hs : c.Sound) (place : Nat) : (c.proceed place).Sound := by
  cases hat : c.consumes[place]? with
  | none => simpa only [Crowd.proceed, hat] using hs
  | some consume =>
    cases consume with
    | starting most =>
      rw [proceed_eq hat]
      by_cases hturned : (decide (most = 0) || c.ring.guarded) = true
      · simp only [Consume.step, hturned, ↓reduceIte]
        exact hs.outside_enter rfl place
      · simp only [Consume.step, hturned, Bool.false_eq_true, ↓reduceIte]
        simp only [Bool.or_eq_true, not_or, Bool.not_eq_true] at hturned
        exact hs.take_guard hat hturned.2 most
    | guarding most =>
      rw [proceed_eq hat]
      exact hs.pass hat rfl hs.chunk_zero
    | positioned most start =>
      have hchunk : c.Chunk start 0 0 0 := hs.consumes place _ hat
      have := hchunk.le_written
      rw [proceed_eq hat]
      refine hs.pass hat rfl ⟨Nat.zero_le _, ?_, hchunk⟩
      unfold Consume.reach
      omega
    | scanning start limit len => exact hs.proceed_scanning hat
    | delivering start len =>
      have hchunk : c.Chunk start len 0 0 := hs.consumes place _ hat
      rw [proceed_eq hat]
      exact hs.pass hat rfl hchunk
    | blanking start len done => exact hs.proceed_blanking hat
    | lowering start len done => exact hs.proceed_lowering hat
    | advancing start len => exact hs.proceed_advancing hat
    | releasing count =>
      rw [proceed_eq hat]
      exact hs.give_guard hat rfl count
    | returned count =>
      rw [proceed_eq hat]
      exact hs.outside_enter rfl place

theorem Sound.edit (hs : c.Sound) (place offset : Nat) (entry : Entry) :
    (c.edit place offset entry).Sound := by
  unfold Crowd.edit
  split
  · rename_i start len hat
    split
    · rename_i hlt
      have hchunk : c.Chunk start len 0 0 := hs.consumes place _ hat
      obtain ⟨hplace, hget⟩ := List.getElem?_eq_some_iff.1 hat
      have hsame : c.consumes.set place (.delivering start len) = c.consumes := by
        rw [← hget, List.set_getElem_self]
      have hstored : (c.enter place (c.ring.setEntry (start + offset) entry)
          (.delivering start len)).Sound :=
        hs.store_entry hat rfl hchunk hlt entry ⟨hchunk.start_eq, hchunk.le_written, Nat.zero_le _,
          Nat.zero_le _, hchunk.published, nofun, nofun,
          fun i hi hle => (setEntry_fenceAt _ _ _ _).trans_ne (hchunk.raised i hi hle)⟩
      rwa [Crowd.enter, hsame] at hstored
    · exact hs
  · exact hs

theorem Sound.act (hs : c.Sound) (act : Act) : (c.act act).Sound := by
  cases act with
  | call value tag => exact hs.begin_call value tag
  | access number spurious => exact hs.access number spurious
  | tick clock =>
    exact hs.quiet clock (fun _ _ => id) (fun _ _ => Or.inl) fun _ _ h _ => h
  | consume most => exact hs.outside_append rfl
  | proceed place => exact hs.proceed place
  | edit place offset entry => exact hs.edit place offset entry
  | panic place =>
    simp only [Crowd.act, Crowd.panic]
    split
    · rename_i start len hat
      exact hs.give_guard hat rfl 0
    · exact hs

theorem Sound.run (hs : c.Sound) (acts : List Act) : (c.run acts).Sound := by
  induction acts generalizing c with
  | nil => exact hs
  | cons act acts ih => exact ih (hs.act act)

theorem ofCapacity_sound (requested : Nat) (clock : Clock) :
    Sound { ring := Ring.ofCapacity requested clock } := by
  have h := startingAt_fresh requested 0 clock
  exact ⟨h.shaped, rfl, Nat.le_refl _, Nat.zero_le _, List.nodup_nil, nofun, nofun,
    fun p _ _ => h.blank p, nofun, nofun, nofun⟩

end MetricReporting.Ring.Crowd
