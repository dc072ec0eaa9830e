import MetricReporting.Proofs.Ring.Writing

/-!
# Accesses of the consumer

The consumer changes only slots of the chunk that its callback has returned from, and moves the
consume position when these are blank and lowered. Until then the chunk's positions stay claimed,
so no writer comes near them.
-/
namespace MetricReporting.Ring.Traffic

variable {t : Traffic} {ring' : Ring} {consumer' : Consume} {start len done : Nat}

/-- An access of the consumer that moves on to positions whose fences are raised, and from then on
leaves the slots from there on alone. -/
theorem Sound.advance (hs : t.Sound) {handed' : List (List Entry)} (hshaped : ring'.Shaped)
    (hcapacity : ring'.capacity = t.ring.capacity) (hwritten : ring'.written = t.ring.written)
    (hconsumed : t.ring.consumed ≤ ring'.consumed)
    (hreached : t.reached ≤ ring'.consumed + consumer'.releasable)
    (hreached' : ring'.consumed + consumer'.releasable ≤ t.ring.written)
    (hraised : ∀ p, t.reached ≤ p → p < ring'.consumed + consumer'.releasable →
      t.ring.fenceAt p ≠ 0)
    (hslot : ∀ q, ring'.consumed + consumer'.releasable ≤ q →
      q < t.ring.consumed + t.ring.capacity →
      ring'.entryAt q = t.ring.entryAt q ∧ ring'.fenceAt q = t.ring.fenceAt q)
    (hfree : ∀ q, t.ring.consumed + t.ring.capacity ≤ q → q < ring'.consumed + t.ring.capacity →
      ring'.entryAt q = Entry.blank ∧ ring'.fenceAt q = 0)
    (hconsumer : ConsumerSound ring' consumer')
    (hhanded : handed'.flatten.map some =
      (t.claims.take (ring'.consumed + consumer'.releasable - t.origin)).map t.written?) :
    Sound { t with ring := ring', consumer := consumer', handed := handed' } := by
  have hwindow := hs.written_le
  refine ⟨hshaped, hs.origin_le.trans hconsumed, hwritten ▸ hs.claims_length, ?_, ?_,
    hs.claims_nodup, ?_, ?_, ?_, hconsumer, hhanded⟩
  · exact hwritten ▸ hreached'
  · show ring'.written ≤ ring'.consumed + ring'.capacity
    omega
  · intro number call hcall
    refine (hs.calls number call hcall).frame rfl hcapacity hwritten.ge hconsumed
      (List.prefix_refl _) id fun p hp => ?_
    have hlt := hp.lt_written hs
    have hle : ring'.consumed + consumer'.releasable ≤ p := by
      by_contra hcon
      exact hraised p hp.reached_le (by omega) hp.fence
    exact ⟨hle, hslot p hle (by omega)⟩
  · intro p ho hp
    have hlt : p < t.ring.written := hwritten ▸ hp
    exact (hs.positions p ho hlt).frame rfl hreached (List.prefix_refl _) (fun _ _ => rfl)
      fun hle => hslot p hle (by omega)
  · intro q hq hq'
    have hlow : t.ring.written ≤ q := hwritten ▸ hq
    have hhigh : q < ring'.consumed + t.ring.capacity := hcapacity ▸ hq'
    by_cases hold : q < t.ring.consumed + t.ring.capacity
    · obtain ⟨he, hf⟩ := hslot q (by omega) hold
      show ring'.entryAt q = Entry.blank ∧ ring'.fenceAt q = 0
      rw [he, hf]
      exact hs.free q hlow hold
    · exact hfree q (by omega) hhigh

theorem Sound.stay (hs : t.Sound) (hshaped : ring'.Shaped)
    (hcapacity : ring'.capacity = t.ring.capacity) (hwritten : ring'.written = t.ring.written)
    (hconsumed : ring'.consumed = t.ring.consumed)
    (hreleasable : consumer'.releasable = t.consumer.releasable)
    (hslot : ∀ q, t.reached ≤ q → q < t.ring.consumed + t.ring.capacity →
      ring'.entryAt q = t.ring.entryAt q ∧ ring'.fenceAt q = t.ring.fenceAt q)
    (hconsumer : ConsumerSound ring' consumer') :
    Sound { t with ring := ring', consumer := consumer' } := by
  have hreached : ring'.consumed + consumer'.releasable = t.reached := by
    rw [reached, hconsumed, hreleasable]
  refine hs.advance hshaped hcapacity hwritten hconsumed.ge hreached.ge
    (hreached.le.trans hs.reached_le) ?_ ?_ ?_ hconsumer ?_
  · intro p hle hlt
    omega
  · exact hreached ▸ hslot
  · intro q hle hlt
    omega
  · rw [hreached]
    exact hs.handed

theorem Sound.chunk_eq (hs : t.Sound) (hreached : t.reached = t.ring.consumed)
    (hle : t.ring.consumed + len ≤ t.ring.written)
    (hraised : ∀ i < len, t.ring.fenceAt (t.ring.consumed + i) ≠ 0) :
    (t.ring.chunk t.ring.consumed len).map some =
      ((t.claims.drop (t.ring.consumed - t.origin)).take len).map t.written? := by
  have horigin := hs.origin_le
  have hlength := hs.claims_length
  apply List.ext_getElem
  · simp only [List.length_map, chunk_length, List.length_take, List.length_drop]
    omega
  · intro i hi hi'
    have hlt : i < len := by simpa [chunk_length] using hi
    obtain ⟨number, call, hclaim, hcall, hholds | ⟨-, hentry⟩⟩ :=
      hs.positions (t.ring.consumed + i) (by omega) (by omega)
    · exact absurd ((hs.calls number call hcall).holds hholds).fence (hraised i hlt)
    · have hnumber : t.claims[t.ring.consumed - t.origin + i]? = some number := by
        rw [← hclaim]
        congr 1
        omega
      obtain ⟨hj, hget⟩ := List.getElem?_eq_some_iff.1 hnumber
      simp only [List.getElem_map, List.getElem_take, List.getElem_drop, hget, chunk,
        List.getElem_range, written?, hcall, Option.bind_some]
      exact (hentry (by omega)).1.symm

theorem proceed_eq (h : t.consumer.isDelivering = false) (edit : List Entry) :
    t.proceed edit = { t with
      ring := (Consume.step t.ring t.consumer).1
      consumer := (Consume.step t.ring t.consumer).2 } := by
  cases hc : t.consumer with
  | delivering start len => rw [hc] at h; cases h
  | _ => simp [proceed, edited, Consume.held, hc]

/-- The callback returns: its chunk is out of its hands, and whatever it left there will be
cleared. -/
theorem Sound.proceed_delivering (hs : t.Sound) (hc : t.consumer = .delivering start len)
    (edit : List Entry) : (t.proceed edit).Sound := by
  have hconsumer := hs.consumer
  rw [hc] at hconsumer
  obtain ⟨⟨hguarded, rfl, hle⟩, hraised⟩ := hconsumer
  have hreached : t.reached = t.ring.consumed := by simp [reached, hc, Consume.releasable]
  have horigin := hs.origin_le
  have hlength := hs.claims_length
  have hshort : (edit.take len).length ≤ len := List.length_take_le _ _
  have hframe := overwrite_sameFrame t.ring t.ring.consumed (edit.take len)
  have hproceed : t.proceed edit = { t with
      ring := t.ring.overwrite t.ring.consumed (edit.take len)
      consumer := .blanking t.ring.consumed len 0
      handed := t.handed ++ [t.ring.chunk t.ring.consumed len] } := by
    simp [proceed, edited, Consume.held, Consume.step, hc]
  rw [hproceed]
  refine hs.advance (hframe.shaped hs.shaped) hframe.capacity hframe.written hframe.consumed.ge ?_
    ?_ ?_ ?_ ?_ ?_ ?_
  · rw [hreached, hframe.consumed]
    exact Nat.le_add_right _ _
  · rw [hframe.consumed]
    exact hle
  · intro p hp hlt
    rw [hframe.consumed] at hlt
    rw [hreached] at hp
    simp only [Consume.releasable] at hlt
    have hraise := hraised (p - t.ring.consumed) (by omega)
    rwa [Nat.add_sub_cancel' hp] at hraise
  · intro q hq hq'
    rw [hframe.consumed] at hq
    simp only [Consume.releasable] at hq
    exact ⟨entryAt_overwrite_of_le (by omega) hq', hframe.fenceAt q⟩
  · intro q hq hq'
    rw [hframe.consumed] at hq'
    omega
  · refine ⟨⟨?_, hframe.consumed.symm, ?_⟩, Nat.zero_le _,
      fun i hi => absurd hi (Nat.not_lt_zero i)⟩
    · exact hframe.guarded.trans hguarded
    · rw [hframe.written]
      exact hle
  · have hsplit : t.claims.take (t.ring.consumed + len - t.origin) =
        t.claims.take (t.ring.consumed - t.origin) ++
          (t.claims.drop (t.ring.consumed - t.origin)).take len := by
      rw [← List.take_add]
      congr 1
      omega
    rw [hframe.consumed]
    simp only [Consume.releasable]
    rw [hsplit, List.flatten_append, List.map_append, List.map_append, List.flatten_singleton,
      hs.handed, hs.chunk_eq hreached hle hraised, hreached]

theorem Sound.proceed_advancing (hs : t.Sound) (hc : t.consumer = .advancing start len)
    (edit : List Entry) : (t.proceed edit).Sound := by
  have hconsumer := hs.consumer
  rw [hc] at hconsumer
  obtain ⟨⟨hguarded, rfl, hle⟩, hblank, hlow⟩ := hconsumer
  have hreached : t.reached = t.ring.consumed + len := by simp [reached, hc, Consume.releasable]
  have hwindow := hs.written_le
  rw [proceed_eq (by rw [hc]; rfl), hc]
  have hshaped : Shaped { t.ring with consumed := t.ring.consumed + len } :=
    ⟨hs.shaped.capacity_pos, hs.shaped.fences_size⟩
  show Sound { t with
    ring := { t.ring with consumed := t.ring.consumed + len }
    consumer := .releasing len }
  refine hs.advance hshaped rfl rfl (Nat.le_add_right _ _) hreached.le hle ?_
    (fun _ _ _ => ⟨rfl, rfl⟩) ?_ hguarded ?_
  · intro p hp hlt
    simp only [Consume.releasable] at hlt
    omega
  · -- one capacity further on lie the slots of the chunk
    intro q hq hq'
    obtain ⟨i, rfl⟩ : ∃ i, q = t.ring.consumed + i + t.ring.capacity :=
      ⟨q - t.ring.capacity - t.ring.consumed, by omega⟩
    have hi : i < len := by simp only at hq'; omega
    refine ⟨?_, ?_⟩
    · exact (entryAt_add_capacity t.ring _).trans (hblank i hi)
    · exact (fenceAt_add_capacity t.ring _).trans (hlow i hi)
  · show _ = (t.claims.take (t.ring.consumed + len - t.origin)).map t.written?
    rw [← hreached]
    exact hs.handed

theorem Sound.proceed_blanking (hs : t.Sound) (hc : t.consumer = .blanking start len done)
    (edit : List Entry) : (t.proceed edit).Sound := by
  have hconsumer := hs.consumer
  rw [hc] at hconsumer
  obtain ⟨⟨hguarded, rfl, hle⟩, hdone, hblank⟩ := hconsumer
  have hreached : t.reached = t.ring.consumed + len := by simp [reached, hc, Consume.releasable]
  have hwindow := hs.written_le
  rw [proceed_eq (by rw [hc]; rfl), hc]
  by_cases hlt : done < len
  · simp only [Consume.step, hlt, ↓reduceIte]
    refine hs.stay (hs.shaped.setEntry _ _) (setEntry_capacity _ _ _) rfl rfl
      (by rw [hc]; rfl) ?_ ?_
    · intro q hq hq'
      refine ⟨entryAt_setEntry_of_ne (Ring.index_ne ?_ ?_ ?_) _, setEntry_fenceAt _ _ _ _⟩ <;> omega
    · refine ⟨⟨hguarded, rfl, hle⟩, hlt, fun i hi => ?_⟩
      rcases Nat.lt_succ_iff_lt_or_eq.1 hi with hlt' | rfl
      · rw [entryAt_setEntry_of_ne (Ring.index_ne (by omega) (by omega) (by omega))]
        exact hblank i hlt'
      · exact hs.shaped.entryAt_setEntry _ _
  · simp only [Consume.step, hlt, ↓reduceIte]
    obtain rfl : done = len := by omega
    exact hs.stay hs.shaped rfl rfl rfl (by rw [hc]; rfl) (fun _ _ _ => ⟨rfl, rfl⟩)
      ⟨⟨hguarded, rfl, hle⟩, Nat.zero_le _, hblank, fun i hi => absurd hi (Nat.not_lt_zero i)⟩

theorem Sound.proceed_lowering (hs : t.Sound) (hc : t.consumer = .lowering start len done)
    (edit : List Entry) : (t.proceed edit).Sound := by
  have hconsumer := hs.consumer
  rw [hc] at hconsumer
  obtain ⟨⟨hguarded, rfl, hle⟩, hdone, hblank, hlow⟩ := hconsumer
  have hreached : t.reached = t.ring.consumed + len := by simp [reached, hc, Consume.releasable]
  have hwindow := hs.written_le
  rw [proceed_eq (by rw [hc]; rfl), hc]
  by_cases hlt : done < len
  · simp only [Consume.step, hlt, ↓reduceIte]
    refine hs.stay (hs.shaped.setFence _ _) rfl rfl rfl (by rw [hc]; rfl) ?_ ?_
    · intro q hq hq'
      refine ⟨rfl, fenceAt_setFence_of_ne (Ring.index_ne ?_ ?_ ?_) _⟩ <;> omega
    · refine ⟨⟨hguarded, rfl, hle⟩, hlt, hblank, fun i hi => ?_⟩
      rcases Nat.lt_succ_iff_lt_or_eq.1 hi with hlt' | rfl
      · rw [fenceAt_setFence_of_ne (Ring.index_ne (by omega) (by omega) (by omega))]
        exact hlow i hlt'
      · exact hs.shaped.fenceAt_setFence _ _
  · simp only [Consume.step, hlt, ↓reduceIte]
    obtain rfl : done = len := by omega
    exact hs.stay hs.shaped rfl rfl rfl (by rw [hc]; rfl) (fun _ _ _ => ⟨rfl, rfl⟩)
      ⟨⟨hguarded, rfl, hle⟩, hblank, hlow⟩

theorem Sound.proceed_scanning (hs : t.Sound) {limit : Nat}
    (hc : t.consumer = .scanning start limit len) (edit : List Entry) :
    (t.proceed edit).Sound := by
  have hconsumer := hs.consumer
  rw [hc] at hconsumer
  obtain ⟨⟨hguarded, rfl, hle⟩, hlen, hraised⟩ := hconsumer
  rw [proceed_eq (by rw [hc]; rfl), hc]
  by_cases htest : len < limit ∧
      Consume.epoch t.ring (t.ring.consumed + len) = Consume.epoch t.ring t.ring.consumed ∧
      t.ring.fenceAt (t.ring.consumed + len) ≠ 0
  · simp only [Consume.step, htest, ↓reduceIte, ne_eq, not_false_eq_true, and_self]
    refine hs.stay hs.shaped rfl rfl rfl (by rw [hc]; rfl) (fun _ _ _ => ⟨rfl, rfl⟩)
      ⟨⟨hguarded, rfl, hle⟩, htest.1, fun i hi => ?_⟩
    rcases Nat.lt_succ_iff_lt_or_eq.1 hi with hlt | rfl
    · exact hraised i hlt
    · exact htest.2.2
  · simp only [Consume.step, htest, ↓reduceIte]
    split
    · exact hs.stay hs.shaped rfl rfl rfl (by rw [hc]; rfl) (fun _ _ _ => ⟨rfl, rfl⟩) hguarded
    · exact hs.stay hs.shaped rfl rfl rfl (by rw [hc]; rfl) (fun _ _ _ => ⟨rfl, rfl⟩)
        ⟨⟨hguarded, rfl, (Nat.add_le_add_left hlen _).trans hle⟩, hraised⟩

theorem Sound.proceed (hs : t.Sound) (edit : List Entry) : (t.proceed edit).Sound := by
  have hconsumer := hs.consumer
  have hshaped : Shaped { t.ring with guarded := true } :=
    ⟨hs.shaped.capacity_pos, hs.shaped.fences_size⟩
  have hshaped' : Shaped { t.ring with guarded := false } :=
    ⟨hs.shaped.capacity_pos, hs.shaped.fences_size⟩
  cases hc : t.consumer with
  | starting most =>
    rw [proceed_eq (by rw [hc]; rfl), hc]
    rw [hc] at hconsumer
    simp only [Consume.step]
    split
    · exact hs.stay hs.shaped rfl rfl rfl (by rw [hc]; rfl) (fun _ _ _ => ⟨rfl, rfl⟩) hconsumer
    · exact hs.stay hshaped rfl rfl rfl (by rw [hc]; rfl) (fun _ _ _ => ⟨rfl, rfl⟩) rfl
  | guarding most =>
    rw [proceed_eq (by rw [hc]; rfl), hc]
    rw [hc] at hconsumer
    exact hs.stay hs.shaped rfl rfl rfl (by rw [hc]; rfl) (fun _ _ _ => ⟨rfl, rfl⟩)
      ⟨hconsumer, rfl, t.consumed_le_reached.trans hs.reached_le⟩
  | positioned most start =>
    rw [proceed_eq (by rw [hc]; rfl), hc]
    rw [hc] at hconsumer
    obtain ⟨hguarded, hstart, hle⟩ := hconsumer
    have hreach : start + Consume.reach t.ring most start ≤ t.ring.written := by
      unfold Consume.reach
      omega
    exact hs.stay hs.shaped rfl rfl rfl (by rw [hc]; rfl) (fun _ _ _ => ⟨rfl, rfl⟩)
      ⟨⟨hguarded, hstart, hreach⟩, Nat.zero_le _, fun i hi => absurd hi (Nat.not_lt_zero i)⟩
  | scanning start limit len => exact hs.proceed_scanning hc edit
  | delivering start len => exact hs.proceed_delivering hc edit
  | blanking start len done => exact hs.proceed_blanking hc edit
  | lowering start len done => exact hs.proceed_lowering hc edit
  | advancing start len => exact hs.proceed_advancing hc edit
  | releasing count =>
    rw [proceed_eq (by rw [hc]; rfl), hc]
    exact hs.stay hshaped' rfl rfl rfl (by rw [hc]; rfl) (fun _ _ _ => ⟨rfl, rfl⟩) rfl
  | returned count =>
    rw [proceed_eq (by rw [hc]; rfl), hc]
    rw [hc] at hconsumer
    exact hs.stay hs.shaped rfl rfl rfl (by rw [hc]; rfl) (fun _ _ _ => ⟨rfl, rfl⟩) hconsumer

end MetricReporting.Ring.Traffic
