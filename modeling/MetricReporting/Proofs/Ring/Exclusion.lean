import MetricReporting.Proofs.Ring.Crowd.Consumers

/-!
# One owner for every slot

A writer that stores into a slot is the only one that owns it and shares it with no chunk. A consume
that goes to a slot of its chunk finds it published, claimed by nobody for a later position, and no
other consume is past the guard. Slots that no outstanding position has are blank.
-/
namespace MetricReporting.Ring.Crowd

variable {c : Crowd} {number p q start len place : Nat} {consume : Consume}

theorem Sound.chunk (hs : c.Sound) (hat : c.consumes[place]? = some consume)
    (h : consume.chunk? = some (start, len)) :
    ∃ blanked lowered, c.Chunk start len blanked lowered := by
  have hsound := hs.consumes place consume hat
  cases consume with
  | delivering | blanking | lowering | advancing => cases h; exact ⟨_, _, hsound⟩
  | _ => cases h

theorem InChunk.published (h : c.InChunk place p) (hs : c.Sound) :
    c.ring.consumed ≤ p ∧ c.Published p := by
  obtain ⟨consume, start, len, hat, hchunk, hle, hlt⟩ := h
  obtain ⟨blanked, lowered, hsound⟩ := hs.chunk hat hchunk
  obtain ⟨i, rfl⟩ := Nat.exists_eq_add_of_le hle
  exact ⟨hsound.start_eq ▸ hle, hsound.published i (Nat.lt_of_add_lt_add_left hlt)⟩

theorem Touches.inChunk (h : c.Touches place p) (hs : c.Sound) :
    c.InChunk place p ∧ c.Inside place ∧ c.ring.fenceAt p ≠ 0 := by
  obtain ⟨consume, hat, htouches⟩ := h
  have hsound := hs.consumes place consume hat
  cases consume with
  | delivering start len =>
    obtain ⟨hle, hlt⟩ := htouches
    obtain ⟨i, rfl⟩ := Nat.exists_eq_add_of_le hle
    exact ⟨⟨_, start, len, hat, rfl, hle, hlt⟩, ⟨_, hat, rfl⟩,
      Chunk.raised hsound i (Nat.lt_of_add_lt_add_left hlt) (Nat.zero_le _)⟩
  | blanking start len done =>
    obtain ⟨hlt, rfl⟩ := htouches
    exact ⟨⟨_, start, len, hat, rfl, Nat.le_add_right _ _, Nat.add_lt_add_left hlt _⟩,
      ⟨_, hat, rfl⟩, Chunk.raised hsound done hlt (Nat.zero_le _)⟩
  | lowering start len done =>
    obtain ⟨hlt, rfl⟩ := htouches
    exact ⟨⟨_, start, len, hat, rfl, Nat.le_add_right _ _, Nat.add_lt_add_left hlt _⟩,
      ⟨_, hat, rfl⟩, Chunk.raised hsound done hlt (Nat.le_refl _)⟩
  | _ => cases htouches

theorem Stores.owns (h : c.Stores number p) : c.Owns number p := by
  obtain ⟨call, ticks, hcall, hphase | hphase⟩ := h
  · exact ⟨call, hcall, by rw [hphase]; rfl⟩
  · exact ⟨call, hcall, by rw [hphase]; rfl⟩

theorem Sound.eq_of_index_eq (hs : c.Sound) (hp : c.ring.consumed ≤ p) (hp' : p < c.ring.written)
    (hq : c.ring.consumed ≤ q) (hq' : q < c.ring.written)
    (h : c.ring.index p = c.ring.index q) : p = q := by
  have := hs.written_le
  exact (index_eq_iff (by omega) (by omega)).1 h

theorem Sound.owner_unique (hs : c.Sound) {other : Nat} (hp : c.Owns number p)
    (hq : c.Owns other q) (h : c.ring.index p = c.ring.index q) : number = other := by
  have hheld := hs.holds hp
  have hheld' := hs.holds hq
  obtain rfl := hs.eq_of_index_eq hheld.consumed_le (hheld.lt_written hs) hheld'.consumed_le
    (hheld'.lt_written hs) h
  exact Option.some.inj (hheld.claimant.symm.trans hheld'.claimant)

theorem Sound.owned_not_published (hs : c.Sound) (howns : c.Owns number p)
    (hq : c.ring.consumed ≤ q) (hpublished : c.Published q) :
    c.ring.index p ≠ c.ring.index q := by
  intro h
  have hheld := hs.holds howns
  obtain rfl := hs.eq_of_index_eq hheld.consumed_le (hheld.lt_written hs) hq
    (hpublished.lt_written hs) h
  exact hpublished.not_owns hs howns

theorem Sound.outstanding_of_raised (hs : c.Sound) {i : Nat} {fence : Int64}
    (hi : c.ring.fences[i]? = some fence) (hfence : fence ≠ 0) :
    ∃ p, c.ring.consumed ≤ p ∧ p < c.ring.written ∧ c.ring.index p = i ∧ c.Published p := by
  have hlt : i < c.ring.capacity := hs.shaped.fences_size ▸ (Array.getElem?_eq_some_iff.1 hi).1
  obtain ⟨p, hp, hp', rfl⟩ := exists_index_eq hlt c.ring.consumed
  rw [hs.shaped.fences_getElem?, Option.some.injEq] at hi
  have hwritten : p < c.ring.written := by
    by_contra hcon
    exact hfence (hi ▸ (hs.free p (Nat.le_of_not_lt hcon) hp').2)
  exact ⟨p, hp, hwritten, rfl, hs.published_of_fence hwritten (hi ▸ hfence)⟩

theorem Sound.blank_of_not_outstanding (hs : c.Sound) {i : Nat} (hi : i < c.ring.capacity)
    (h : ∀ p, c.ring.consumed ≤ p → p < c.ring.written → c.ring.index p ≠ i) :
    c.ring.slots[i]? = some Entry.blank ∧ c.ring.fences[i]? = some 0 := by
  obtain ⟨p, hp, hp', rfl⟩ := exists_index_eq hi c.ring.consumed
  have hfree := hs.free p (Nat.le_of_not_lt fun hlt => h p hp hlt rfl) hp'
  rw [hs.shaped.slots_getElem?, hs.shaped.fences_getElem?, hfree.1, hfree.2]
  exact ⟨rfl, rfl⟩

/-! ## Who changes a slot -/

def Changed (ring ring' : Ring) (i : Nat) : Prop :=
  ring'.slots[i]? ≠ ring.slots[i]? ∨ ring'.fences[i]? ≠ ring.fences[i]?

theorem changed_setEntry {ring : Ring} {entry : Entry} {i : Nat}
    (h : Changed ring (ring.setEntry p entry) i) : ring.index p = i := by
  by_contra hne
  rcases h with h | h
  · exact h (Array.getElem?_setIfInBounds_ne hne)
  · exact h rfl

theorem changed_setFence {ring : Ring} {fence : Int64} {i : Nat}
    (h : Changed ring (ring.setFence p fence) i) : ring.index p = i := by
  by_contra hne
  rcases h with h | h
  · exact h rfl
  · exact h (Array.getElem?_setIfInBounds_ne hne)

theorem not_changed {ring ring' : Ring} {i : Nat} (hslots : ring'.slots = ring.slots)
    (hfences : ring'.fences = ring.fences) : ¬ Changed ring ring' i := by
  rw [Changed, hslots, hfences]
  exact fun h => h.elim (fun h => h rfl) fun h => h rfl

theorem changed_access {spurious : Bool} {i : Nat}
    (h : Changed c.ring (c.access number spurious).ring i) :
    ∃ p, c.Stores number p ∧ c.ring.index p = i := by
  cases hcall : c.calls[number]? with
  | none => simp only [access, hcall] at h; exact absurd h (not_changed rfl rfl)
  | some call =>
    simp only [access, hcall] at h
    obtain ⟨value, tag, phase, ticks⟩ := call
    cases phase with
    | stamped p shown => exact ⟨p, ⟨_, shown, hcall, Or.inl rfl⟩, changed_setEntry h⟩
    | stored p shown => exact ⟨p, ⟨_, shown, hcall, Or.inr rfl⟩, changed_setFence h⟩
    | loaded p =>
      refine absurd h (not_changed ?_ ?_)
      all_goals
        simp only [WriteCall.step, Write.step]
        split <;> rfl
    | room p =>
      refine absurd h (not_changed ?_ ?_)
      all_goals
        simp only [WriteCall.step, Write.step]
        split <;> rfl
    | _ => exact absurd h (not_changed rfl rfl)

theorem changed_proceed {i : Nat} (h : Changed c.ring (c.proceed place).ring i) :
    ∃ p, c.Touches place p ∧ c.ring.index p = i := by
  cases hat : c.consumes[place]? with
  | none => simp only [proceed, hat] at h; exact absurd h (not_changed rfl rfl)
  | some consume =>
    rw [proceed_eq hat] at h
    cases consume with
    | blanking start len done =>
      by_cases hlt : done < len
      · simp only [Consume.step, hlt, ↓reduceIte] at h
        exact ⟨start + done, ⟨_, hat, hlt, rfl⟩, changed_setEntry h⟩
      · simp only [Consume.step, hlt, ↓reduceIte] at h
        exact absurd h (not_changed rfl rfl)
    | lowering start len done =>
      by_cases hlt : done < len
      · simp only [Consume.step, hlt, ↓reduceIte] at h
        exact ⟨start + done, ⟨_, hat, hlt, rfl⟩, changed_setFence h⟩
      · simp only [Consume.step, hlt, ↓reduceIte] at h
        exact absurd h (not_changed rfl rfl)
    | starting most =>
      refine absurd h (not_changed ?_ ?_)
      all_goals
        simp only [enter, Consume.step]
        split <;> rfl
    | scanning start limit len =>
      refine absurd h (not_changed ?_ ?_)
      all_goals
        simp only [enter, Consume.step]
        split
        · rfl
        · split <;> rfl
    | _ => exact absurd h (not_changed rfl rfl)

theorem changed_edit {offset : Nat} {entry : Entry} {i : Nat}
    (h : Changed c.ring (c.edit place offset entry).ring i) :
    ∃ p, c.Touches place p ∧ c.ring.index p = i := by
  unfold edit at h
  split at h
  · rename_i start len hat
    split at h
    · rename_i hlt
      exact ⟨start + offset, ⟨_, hat, Nat.le_add_right _ _, Nat.add_lt_add_left hlt _⟩,
        changed_setEntry h⟩
    · exact absurd h (not_changed rfl rfl)
  · exact absurd h (not_changed rfl rfl)

/-- A slot is changed only by a writer that stores into it or by a consume that goes to it. -/
theorem changed_act {act : Act} {i : Nat} (h : Changed c.ring (c.act act).ring i) :
    (∃ number spurious p, act = .access number spurious ∧ c.Stores number p ∧
        c.ring.index p = i) ∨
      ∃ place p, (act = .proceed place ∨ ∃ offset entry, act = .edit place offset entry) ∧
        c.Touches place p ∧ c.ring.index p = i := by
  cases act with
  | access number spurious =>
    obtain ⟨p, hstores, hindex⟩ := changed_access h
    exact Or.inl ⟨number, spurious, p, rfl, hstores, hindex⟩
  | proceed place =>
    obtain ⟨p, htouches, hindex⟩ := changed_proceed h
    exact Or.inr ⟨place, p, Or.inl rfl, htouches, hindex⟩
  | edit place offset entry =>
    obtain ⟨p, htouches, hindex⟩ := changed_edit h
    exact Or.inr ⟨place, p, Or.inr ⟨offset, entry, rfl⟩, htouches, hindex⟩
  | panic place =>
    simp only [Crowd.act, Crowd.panic] at h
    split at h
    · exact absurd h (not_changed rfl rfl)
    · exact absurd h (not_changed rfl rfl)
  | _ => exact absurd h (not_changed rfl rfl)

/-- In every state of every run: a writer about to store is the only owner of its slot and no chunk
has it; what a consume goes to is published, is claimed by nobody, and no other consume is past the
guard; a raised fence announces an outstanding position, and slots of no outstanding position are
blank. Nothing else changes a slot. -/
theorem slots_owned_exclusively (requested : Nat) (clock : Clock) (acts : List Act) :
    let c := run { ring := Ring.ofCapacity requested clock } acts
    (∀ number p, c.Stores number p →
      (∀ other q, c.Owns other q → c.ring.index q = c.ring.index p → other = number) ∧
      ∀ place q, c.InChunk place q → c.ring.index q ≠ c.ring.index p) ∧
    (∀ place p, c.Touches place p →
      c.InChunk place p ∧ c.Published p ∧ c.ring.fenceAt p ≠ 0 ∧
      (∀ q, p < q → q < c.ring.written → c.ring.index q ≠ c.ring.index p) ∧
      (∀ number q, c.Owns number q → c.ring.index q ≠ c.ring.index p) ∧
      c.Inside place ∧ ∀ other, c.Inside other → other = place) ∧
    (∀ (i : Nat) (fence : Int64), c.ring.fences[i]? = some fence → fence ≠ 0 →
      ∃ p, c.ring.consumed ≤ p ∧ p < c.ring.written ∧ c.ring.index p = i ∧ c.Published p) ∧
    (∀ i < c.ring.capacity,
      (∀ p, c.ring.consumed ≤ p → p < c.ring.written → c.ring.index p ≠ i) →
      c.ring.slots[i]? = some Entry.blank ∧ c.ring.fences[i]? = some 0) ∧
    ∀ act i, Changed c.ring (c.act act).ring i →
      (∃ number spurious p, act = .access number spurious ∧ c.Stores number p ∧
        c.ring.index p = i) ∨
      ∃ place p, (act = .proceed place ∨ ∃ offset entry, act = .edit place offset entry) ∧
        c.Touches place p ∧ c.ring.index p = i := by
  intro c
  have hs : c.Sound := (ofCapacity_sound requested clock).run acts
  refine ⟨fun number p hstores => ⟨fun other q howns heq => ?_, fun place q hchunk heq => ?_⟩,
    fun place p htouches => ?_, fun i fence => hs.outstanding_of_raised,
    fun i => hs.blank_of_not_outstanding, fun act i => changed_act⟩
  · exact hs.owner_unique howns hstores.owns heq
  · obtain ⟨hle, hpublished⟩ := hchunk.published hs
    exact hs.owned_not_published hstores.owns hle hpublished heq.symm
  · obtain ⟨hchunk, hinside, hfence⟩ := htouches.inChunk hs
    obtain ⟨hle, hpublished⟩ := hchunk.published hs
    refine ⟨hchunk, hpublished, hfence, fun q hlt hq heq => ?_, fun number q howns => ?_, hinside,
      fun other hother => hs.alone other place hother hinside⟩
    · have := hs.eq_of_index_eq (by omega) hq hle (hpublished.lt_written hs) heq
      omega
    · exact hs.owned_not_published howns hle hpublished

/-- In the second round of a ring of two slots one writer is about to store while the first slot is
with a callback, from which a further consume has just been turned away. -/
def secondRound : List Act :=
  let write (number : Nat) := Act.access number false
  [.call 10 1, .call 20 2, .call 30 1, .call 40 2] ++ List.replicate 6 (write 0) ++
    List.replicate 6 (write 1) ++ [.consume 5] ++ List.replicate 15 (.proceed 0) ++
    List.replicate 6 (write 2) ++ List.replicate 4 (write 3) ++ [.consume 5] ++
    List.replicate 5 (.proceed 1) ++ [.consume 1, .proceed 2]

theorem slots_owned_exclusively_secondRound :
    let c := run { ring := Ring.ofCapacity 2 {} } secondRound
    c.Stores 3 3 ∧ c.Touches 1 2 ∧ c.consumes[2]? = some (.returned 0) ∧ c.Published 2 ∧
      (∀ place q, c.InChunk place q → c.ring.index q ≠ c.ring.index 3) ∧
      ∀ other, c.Inside other → other = 1 := by
  have hcall : (run { ring := Ring.ofCapacity 2 {} } secondRound).calls[3]? =
      some ⟨40, 2, .stamped 3 4, some 4⟩ := by decide +kernel
  have hconsumes : (run { ring := Ring.ofCapacity 2 {} } secondRound).consumes =
      [.returned 2, .delivering 2 1, .returned 0] := by decide +kernel
  intro c
  have hat : c.consumes[1]? = some (.delivering 2 1) := congrArg (fun row => row[1]?) hconsumes
  have hstores : c.Stores 3 3 := ⟨_, 4, hcall, Or.inl rfl⟩
  have htouches : c.Touches 1 2 := ⟨_, hat, Nat.le_refl 2, by decide⟩
  obtain ⟨hwriter, hconsume, -⟩ := slots_owned_exclusively 2 {} secondRound
  obtain ⟨-, hpublished, -, -, -, -, halone⟩ := hconsume 1 2 htouches
  exact ⟨hstores, htouches, congrArg (fun row => row[2]?) hconsumes, hpublished,
    (hwriter 3 3 hstores).2, halone⟩

end MetricReporting.Ring.Crowd
