import MetricReporting.Proofs.Ring.Crowd
import MetricReporting.Proofs.Ring.FirstInFirstOut

/-!
# Who has a slot

A slot goes from the writer that claimed its position to the one consume past the guard by the
fence, and back by the consume position. The invariant says this of every position between the two
cursors and of every call; what it leaves open are the entries of published slots, which a callback
may edit as it likes.
-/
namespace MetricReporting.Ring.Crowd

/-- The write with this number has claimed a position, and its fence is still to be raised. -/
structure Holds (c : Crowd) (number p : Nat) : Prop where
  consumed_le : c.ring.consumed ≤ p
  claimant : c.claims[p]? = some number
  fence : c.ring.fenceAt p = 0

def CallSound (c : Crowd) (number : Nat) (call : WriteCall) : Prop :=
  match call.phase with
  | .starting | .loaded _ => number ∉ c.claims
  | .room p => number ∉ c.claims ∧ p < c.ring.consumed + c.ring.capacity
  | .claimed p | .stamped p _ | .stored p _ => c.Holds number p
  | .returned _ => True

/-- A chunk at the consume position. So many of its entries are blank and so many of its fences are
lowered; the other fences are still raised. -/
structure Chunk (c : Crowd) (start len blanked lowered : Nat) : Prop where
  start_eq : start = c.ring.consumed
  le_written : start + len ≤ c.ring.written
  blanked_le : blanked ≤ len
  lowered_le : lowered ≤ len
  published : ∀ i < len, c.Published (start + i)
  blank : ∀ i < blanked, c.ring.entryAt (start + i) = Entry.blank
  low : ∀ i < lowered, c.ring.fenceAt (start + i) = 0
  raised : ∀ i < len, lowered ≤ i → c.ring.fenceAt (start + i) ≠ 0

def ConsumeSound (c : Crowd) : Consume → Prop
  | .positioned _ start => c.Chunk start 0 0 0
  | .scanning start limit len =>
      len ≤ limit ∧ start + limit ≤ c.ring.written ∧ c.Chunk start len 0 0
  | .delivering start len => c.Chunk start len 0 0
  | .blanking start len done => c.Chunk start len done 0
  | .lowering start len done => c.Chunk start len len done
  | .advancing start len => c.Chunk start len len len
  | _ => True

structure Sound (c : Crowd) : Prop where
  shaped : c.ring.Shaped
  claims_length : c.claims.length = c.ring.written
  consumed_le : c.ring.consumed ≤ c.ring.written
  written_le : c.ring.written ≤ c.ring.consumed + c.ring.capacity
  claims_nodup : c.claims.Nodup
  calls : ∀ (number : Nat) (call : WriteCall), c.calls[number]? = some call →
    c.CallSound number call
  positions : ∀ p < c.ring.written, c.Published p ∨ ∃ number, c.Owns number p
  free : ∀ p, c.ring.written ≤ p → p < c.ring.consumed + c.ring.capacity →
    c.ring.entryAt p = Entry.blank ∧ c.ring.fenceAt p = 0
  consumes : ∀ (place : Nat) (consume : Consume), c.consumes[place]? = some consume →
    c.ConsumeSound consume
  guarded : ∀ place, c.Inside place → c.ring.guarded = true
  alone : ∀ place other, c.Inside place → c.Inside other → place = other

variable {c c' : Crowd} {ring' : Ring} {number p q start len blanked lowered done place : Nat}
  {call call' : WriteCall} {consume consume' : Consume}

theorem CallSound.holds (h : c.CallSound number call) (hp : call.phase.holding? = some p) :
    c.Holds number p := by
  unfold CallSound at h
  cases hphase : call.phase with
  | claimed q => simp only [hphase, Write.holding?, Option.some.injEq] at h hp; exact hp ▸ h
  | stamped q ticks => simp only [hphase, Write.holding?, Option.some.injEq] at h hp; exact hp ▸ h
  | stored q ticks => simp only [hphase, Write.holding?, Option.some.injEq] at h hp; exact hp ▸ h
  | _ => simp [hphase, Write.holding?] at hp

theorem Sound.holds (hs : c.Sound) (h : c.Owns number p) : c.Holds number p := by
  obtain ⟨call, hcall, hholding⟩ := h
  exact (hs.calls number call hcall).holds hholding

theorem Holds.lt_written (h : c.Holds number p) (hs : c.Sound) : p < c.ring.written :=
  hs.claims_length ▸ (List.getElem?_eq_some_iff.1 h.claimant).1

theorem Holds.unique (hp : c.Holds number p) (hq : c.Holds number q) (hs : c.Sound) : p = q :=
  (List.getElem?_inj (List.getElem?_eq_some_iff.1 hp.claimant).1 hs.claims_nodup).1
    (hp.claimant.trans hq.claimant.symm)

theorem Published.lt_written (h : c.Published p) (hs : c.Sound) : p < c.ring.written := by
  obtain ⟨number, call, hclaim, -⟩ := h
  exact hs.claims_length ▸ (List.getElem?_eq_some_iff.1 hclaim).1

theorem Published.not_holds (h : c.Published p) (hcall : c.calls[number]? = some call)
    (hphase : call.phase ≠ .returned true) : ¬ c.Holds number p := by
  intro hholds
  obtain ⟨claimant, settled, hclaim, hsettled, hreturned⟩ := h
  obtain rfl : claimant = number := Option.some.inj (hclaim.symm.trans hholds.claimant)
  exact hphase (Option.some.inj (hcall.symm.trans hsettled) ▸ hreturned)

theorem Published.not_owns (h : c.Published p) (hs : c.Sound) : ¬ c.Owns number p := by
  intro howns
  have hholds := hs.holds howns
  obtain ⟨call, hcall, hholding⟩ := howns
  refine h.not_holds hcall (fun hphase => ?_) hholds
  rw [hphase] at hholding
  cases hholding

theorem Sound.published_of_fence (hs : c.Sound) (hp : p < c.ring.written)
    (hfence : c.ring.fenceAt p ≠ 0) : c.Published p := by
  rcases hs.positions p hp with hpublished | ⟨number, howns⟩
  · exact hpublished
  · exact absurd (hs.holds howns).fence hfence

theorem Published.mono (h : c.Published p) (hclaims : c.claims <+: c'.claims)
    (hcalls : ∀ (number : Nat) (call : WriteCall), c.calls[number]? = some call →
      call.phase = .returned true →
      c'.calls[number]? = some call) : c'.Published p := by
  obtain ⟨number, call, hclaim, hcall, hphase⟩ := h
  exact ⟨number, call, Traffic.getElem?_of_prefix hclaims hclaim, hcalls number call hcall hphase,
    hphase⟩

theorem CallSound.frame (h : c.CallSound number call)
    (hcapacity : c'.ring.capacity = c.ring.capacity)
    (hconsumed : c.ring.consumed ≤ c'.ring.consumed)
    (hfresh : number ∉ c.claims → number ∉ c'.claims)
    (hholds : ∀ p, call.phase.holding? = some p → c.Holds number p → c'.Holds number p) :
    c'.CallSound number call := by
  unfold CallSound at h ⊢
  cases hphase : call.phase with
  | starting => simp only [hphase] at h ⊢; exact hfresh h
  | loaded p => simp only [hphase] at h ⊢; exact hfresh h
  | room p => simp only [hphase] at h ⊢; exact ⟨hfresh h.1, by omega⟩
  | claimed p => simp only [hphase] at h ⊢; exact hholds p (hphase ▸ rfl) h
  | stamped p ticks => simp only [hphase] at h ⊢; exact hholds p (hphase ▸ rfl) h
  | stored p ticks => simp only [hphase] at h ⊢; exact hholds p (hphase ▸ rfl) h
  | returned accepted => trivial

/-! ## Chunks -/

theorem Chunk.lt_written (h : c.Chunk start len blanked lowered) {i : Nat} (hi : i < len) :
    start + i < c.ring.written := by
  have := h.le_written
  omega

theorem Chunk.frame (h : c.Chunk start len blanked lowered)
    (hconsumed : c'.ring.consumed = c.ring.consumed) (hwritten : c.ring.written ≤ c'.ring.written)
    (hpublished : ∀ p, c.Published p → c'.Published p)
    (hslot : ∀ p, c.ring.consumed ≤ p → p < c.ring.written → c.Published p →
      c'.ring.entryAt p = c.ring.entryAt p ∧ c'.ring.fenceAt p = c.ring.fenceAt p) :
    c'.Chunk start len blanked lowered := by
  have hsame : ∀ i < len, c'.ring.entryAt (start + i) = c.ring.entryAt (start + i) ∧
      c'.ring.fenceAt (start + i) = c.ring.fenceAt (start + i) := by
    intro i hi
    have := h.start_eq
    exact hslot _ (by omega) (h.lt_written hi) (h.published i hi)
  refine ⟨h.start_eq.trans hconsumed.symm, h.le_written.trans hwritten, h.blanked_le, h.lowered_le,
    fun i hi => hpublished _ (h.published i hi), fun i hi => ?_, fun i hi => ?_, fun i hi hle => ?_⟩
  · exact (hsame i (hi.trans_le h.blanked_le)).1.trans (h.blank i hi)
  · exact (hsame i (hi.trans_le h.lowered_le)).2.trans (h.low i hi)
  · rw [(hsame i hi).2]
    exact h.raised i hi hle

theorem ConsumeSound.frame (h : c.ConsumeSound consume)
    (hconsumed : c'.ring.consumed = c.ring.consumed) (hwritten : c.ring.written ≤ c'.ring.written)
    (hpublished : ∀ p, c.Published p → c'.Published p)
    (hslot : ∀ p, c.ring.consumed ≤ p → p < c.ring.written → c.Published p →
      c'.ring.entryAt p = c.ring.entryAt p ∧ c'.ring.fenceAt p = c.ring.fenceAt p) :
    c'.ConsumeSound consume := by
  cases consume with
  | positioned most start => exact Chunk.frame h hconsumed hwritten hpublished hslot
  | scanning start limit len =>
    exact ⟨h.1, h.2.1.trans hwritten, h.2.2.frame hconsumed hwritten hpublished hslot⟩
  | delivering start len => exact Chunk.frame h hconsumed hwritten hpublished hslot
  | blanking start len done => exact Chunk.frame h hconsumed hwritten hpublished hslot
  | lowering start len done => exact Chunk.frame h hconsumed hwritten hpublished hslot
  | advancing start len => exact Chunk.frame h hconsumed hwritten hpublished hslot
  | _ => trivial

theorem consumeSound_of_outside (c : Crowd) (h : consume.isInside = false) :
    c.ConsumeSound consume := by
  cases consume with
  | starting most => trivial
  | returned count => trivial
  | _ => cases h

end MetricReporting.Ring.Crowd
