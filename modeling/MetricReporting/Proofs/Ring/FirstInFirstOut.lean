import MetricReporting.Proofs.Ring.Draining

/-!
# First in, first out

Every act keeps the slots' ownership, so every run does. Main statement: between two calls of the
consumer the chunks handed out are, one after the other, the entries of the positions consumed so
far in the order of the claims, in whatever order their calls raised the fences.
-/
namespace MetricReporting.Ring

structure Fresh (ring : Ring) : Prop where
  shaped : ring.Shaped
  written_eq : ring.written = ring.consumed
  guarded : ring.guarded = false
  blank : ∀ q, ring.entryAt q = Entry.blank ∧ ring.fenceAt q = 0

def startingAt (requested position : Nat) (clock : Clock) : Ring :=
  { ofCapacity requested clock with written := position, consumed := position }

theorem getD_replicate {α : Type} (n : Nat) (a : α) (i : Nat) :
    (Array.replicate n a).getD i a = a := by
  rw [Array.getD_eq_getD_getElem?, Array.getElem?_replicate]
  split <;> rfl

theorem startingAt_fresh (requested position : Nat) (clock : Clock) :
    (startingAt requested position clock).Fresh := by
  refine ⟨⟨?_, ?_⟩, rfl, rfl, fun q => ⟨?_, ?_⟩⟩
  · show 0 < (ofCapacity requested clock).capacity
    rw [ofCapacity_capacity]
    exact Nat.pos_of_isPowerOfTwo (Nat.isPowerOfTwo_nextPowerOfTwo _)
  · simp [startingAt, ofCapacity, capacity]
  · exact getD_replicate _ Entry.blank _
  · exact getD_replicate _ 0 _

namespace Traffic

variable {t : Traffic}

theorem ofRing_sound {ring : Ring} (h : ring.Fresh) : (ofRing ring).Sound := by
  have hpos := h.shaped.capacity_pos
  have hwritten := h.written_eq
  refine ⟨h.shaped, le_rfl, ?_, ?_, ?_, List.nodup_nil, nofun, ?_, fun q _ _ => h.blank q,
    h.guarded, ?_⟩
  · exact hwritten.symm
  · exact hwritten.ge
  · show ring.written ≤ ring.consumed + ring.capacity
    omega
  · intro p ho hp
    have ho' : ring.consumed ≤ p := ho
    have hp' : p < ring.written := hp
    omega
  · simp [ofRing]

theorem Sound.call (hs : t.Sound) (value : Int64) (tag : Int32) :
    (t.act (.call value tag)).Sound := by
  have hkeep : ∀ n other, t.calls[n]? = some other →
      (t.act (.call value tag)).calls[n]? = some other := fun n other h =>
    getElem?_of_prefix (List.prefix_append _ _) h
  refine ⟨hs.shaped, hs.origin_le, hs.claims_length, hs.reached_le, hs.written_le, hs.claims_nodup,
    ?_, ?_, hs.free, hs.consumer, ?_⟩
  · intro n other hn
    by_cases hlt : n < t.calls.length
    · refine (hs.calls n other ?_).frame rfl rfl le_rfl le_rfl (List.prefix_refl _) id
        fun p hp => ⟨hp.reached_le, rfl, rfl⟩
      rwa [Traffic.act, List.getElem?_append_left hlt] at hn
    · obtain ⟨rfl, rfl⟩ : n = t.calls.length ∧ other = { value := value, tag := tag } := by
        simp only [act, List.getElem?_append_right (Nat.le_of_not_lt hlt)] at hn
        obtain ⟨hi, hget⟩ := List.getElem?_eq_some_iff.1 hn
        simp only [List.length_singleton] at hi
        exact ⟨by omega, by simpa using hget.symm⟩
      -- a number that no call has yet cannot have claimed anything
      intro hmem
      obtain ⟨i, hi, hget⟩ : ∃ i, ∃ hi : i < t.claims.length, t.claims[i] = t.calls.length :=
        List.getElem_of_mem hmem
      have hlen := hs.claims_length
      obtain ⟨m, call, hm, hcall, -⟩ := hs.positions (t.origin + i) (by omega) (by omega)
      rw [Nat.add_sub_cancel_left, List.getElem?_eq_getElem hi, hget, Option.some.injEq] at hm
      rw [← hm, List.getElem?_eq_none le_rfl] at hcall
      cases hcall
  · intro p ho hp
    obtain ⟨n, other, hn, hother, hstand⟩ := hs.positions p ho hp
    exact ⟨n, other, hn, hkeep n other hother, hstand⟩
  · refine hs.handed.trans (List.map_congr_left fun n hn => ?_)
    obtain ⟨i, hi, hget⟩ := List.mem_take_iff_getElem.1 hn
    obtain ⟨m, call, hm, hcall, -⟩ :=
      hs.settled (Nat.le_add_right t.origin i) (by omega)
    rw [Nat.add_sub_cancel_left, List.getElem?_eq_getElem (by omega), hget, Option.some.injEq] at hm
    rw [written?, written?, hm, hcall, hkeep m call hcall]

theorem Sound.act (hs : t.Sound) (act : Act) : (t.act act).Sound := by
  have hshaped : Shaped { t.ring with guarded := false } :=
    ⟨hs.shaped.capacity_pos, hs.shaped.fences_size⟩
  cases act with
  | call value tag => exact hs.call value tag
  | access number spurious => exact hs.access number spurious
  | tick clock =>
    have hshaped : Shaped { t.ring with clock := clock } :=
      ⟨hs.shaped.capacity_pos, hs.shaped.fences_size⟩
    refine hs.stay hshaped rfl rfl rfl rfl (fun _ _ _ => ⟨rfl, rfl⟩) ?_
    exact hs.consumer.frame rfl rfl le_rfl fun _ _ _ _ => ⟨rfl, rfl⟩
  | consume most =>
    simp only [Traffic.act]
    split
    · rename_i hidle
      have hconsumer := hs.consumer
      cases hc : t.consumer with
      | returned count =>
        rw [hc] at hconsumer
        exact hs.stay hs.shaped rfl rfl rfl (by rw [hc]; rfl) (fun _ _ _ => ⟨rfl, rfl⟩) hconsumer
      | _ => rw [hc] at hidle; cases hidle
    · exact hs
  | proceed edit => exact hs.proceed edit
  | panic =>
    simp only [Traffic.act]
    split
    · rename_i hdelivering
      cases hc : t.consumer with
      | delivering start len =>
        exact hs.stay hshaped rfl rfl rfl (by rw [hc]; rfl) (fun _ _ _ => ⟨rfl, rfl⟩) rfl
      | _ => rw [hc] at hdelivering; cases hdelivering
    · exact hs

theorem Sound.run (hs : t.Sound) (acts : List Act) : (t.run acts).Sound := by
  induction acts generalizing t with
  | nil => exact hs
  | cons act acts ih => exact ih (hs.act act)

theorem act_origin (t : Traffic) (act : Act) : (t.act act).origin = t.origin := by
  cases act with
  | access number spurious =>
    simp only [Traffic.act, access]
    split <;> rfl
  | consume most =>
    simp only [Traffic.act]
    split <;> rfl
  | panic =>
    simp only [Traffic.act]
    split <;> rfl
  | _ => rfl

theorem run_origin (t : Traffic) (acts : List Act) : (t.run acts).origin = t.origin := by
  induction acts generalizing t with
  | nil => rfl
  | cons act acts ih => exact (ih (t.act act)).trans (act_origin t act)

theorem Sound.recorded?_of_handed (hs : t.Sound) {i : Nat} {entry : Entry}
    (h : t.handed.flatten[i]? = some entry) : t.recorded? (t.origin + i) = some entry := by
  have hrow := congrArg (fun row => row[i]?) hs.handed
  simp only [List.getElem?_map, h, Option.map_some, List.getElem?_take] at hrow
  split at hrow
  · rw [recorded?, Nat.add_sub_cancel_left]
    cases hclaim : t.claims[i]? with
    | none => rw [hclaim] at hrow; cases hrow
    | some number =>
      rw [hclaim] at hrow
      exact (Option.some.inj hrow).symm
  · cases hrow

theorem Sound.recorded?_of_split (hs : t.Sound) {old new : List Entry}
    (h : t.handed.flatten = old ++ new) :
    new.map some = (List.range new.length).map fun i =>
      t.recorded? (t.origin + old.length + i) := by
  refine List.ext_getElem (by simp) fun i hi _ => ?_
  have hlt : i < new.length := by rwa [List.length_map] at hi
  have hplace : t.handed.flatten[old.length + i]? = some new[i] := by
    rw [h, List.getElem?_append_right (Nat.le_add_right _ _), Nat.add_sub_cancel_left,
      List.getElem?_eq_getElem]
  rw [List.getElem_map, List.getElem_map, List.getElem_range, Nat.add_assoc,
    hs.recorded?_of_handed hplace]

theorem Sound.handed_length (hs : t.Sound) :
    t.origin + t.handed.flatten.length = t.reached := by
  have hrow := congrArg List.length hs.handed
  have hreached := hs.reached_le
  have hlength := hs.claims_length
  have horigin := hs.origin_le
  have hconsumed := consumed_le_reached t
  simp only [List.length_map, List.length_take] at hrow
  omega

theorem reached_of_isReturned (h : t.consumer.isReturned = true) : t.reached = t.ring.consumed := by
  cases hc : t.consumer with
  | returned count => simp [reached, hc, Consume.releasable]
  | _ => rw [hc] at h; cases h

/-- Between two calls of the consumer, what callbacks got and returned from is, in one row, what the
calls wrote that claimed the positions consumed so far, in the order of these positions. -/
theorem handed_eq_claimed (requested : Nat) (clock : Clock) (acts : List Act) (count : Nat) :
    let t := (ofRing (Ring.ofCapacity requested clock)).run acts
    t.consumer = .returned count →
      t.claims.length = t.ring.written ∧ t.ring.consumed ≤ t.ring.written ∧ t.claims.Nodup ∧
        t.handed.flatten.map some = (t.claims.take t.ring.consumed).map t.written? := by
  intro t hidle
  have hs : t.Sound := (ofRing_sound (startingAt_fresh requested 0 clock)).run acts
  have horigin : t.origin = 0 := run_origin _ acts
  have hreached : t.reached = t.ring.consumed := by simp [reached, hidle, Consume.releasable]
  have hlength := hs.claims_length
  have hle := hs.reached_le
  refine ⟨by omega, by omega, hs.claims_nodup, ?_⟩
  rw [hs.handed, hreached, horigin, Nat.sub_zero]

def overtaking : List Act :=
  let write (number : Nat) := Act.access number false
  [.call 10 1, .call 20 2, write 0, write 0, write 0, write 1, write 1, write 1, write 1, write 1,
    write 1, .consume 5, .proceed [], .proceed [], .proceed [], .proceed [], .proceed [], write 0,
    write 0, write 0, .consume 5] ++ List.replicate 16 (.proceed [])

theorem handed_eq_claimed_overtaking :
    let t := (ofRing (Ring.ofCapacity 4 {})).run overtaking
    t.consumer = .returned 2 ∧ t.claims.length = t.ring.written ∧
      t.ring.consumed ≤ t.ring.written ∧ t.claims.Nodup ∧
        t.handed.flatten.map some = (t.claims.take t.ring.consumed).map t.written? := by
  have h : ((ofRing (Ring.ofCapacity 4 {})).run overtaking).consumer = .returned 2 := by
    cbv
  exact ⟨h, handed_eq_claimed 4 {} overtaking 2 h⟩

end Traffic

end MetricReporting.Ring
