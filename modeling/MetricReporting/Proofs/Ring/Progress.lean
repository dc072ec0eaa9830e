import MetricReporting.Proofs.Ring.Crowd.Moves

/-!
# How a consume gets on

A consume is asked for what a batch still has room for. Whatever the fences show, it never hands out
more than that, and an access of it that is not its return costs something of a bound that does not
depend on the ring. Main statement: a consume that begins before a position whose write has
announced its entry hands something out.
-/
namespace MetricReporting.Ring

namespace Consume

/-- What is known of a consume that was asked for what `size` entries lack of `limit`. -/
def Fits (limit size : Nat) : Consume → Prop
  | starting most | guarding most | positioned most _ => 0 < most ∧ size + most = limit
  | scanning _ reach len => len ≤ reach ∧ size + reach ≤ limit ∧ size < limit
  | delivering _ len => 0 < len ∧ size + len ≤ limit
  | blanking _ len _ | lowering _ len _ | advancing _ len => 0 < len ∧ size ≤ limit
  | releasing count | returned count => size ≤ limit ∧ (count = 0 → size < limit)

def shown : Consume → Nat
  | delivering _ len => len
  | _ => 0

def cost : Consume → Nat
  | starting most => 3 * most + 9
  | guarding most => 3 * most + 8
  | positioned most _ => 3 * most + 7
  | scanning _ reach len => (reach - len) + 2 * reach + 6
  | delivering _ len => 2 * len + 5
  | blanking _ len done => (len - done) + len + 4
  | lowering _ len done => (len - done) + 3
  | advancing _ _ => 2
  | releasing _ => 1
  | returned _ => 0

variable {ring ring' : Ring} {consume consume' : Consume} {limit size : Nat}

theorem eq_returned (h : consume.isReturned = true) : ∃ count, consume = returned count := by
  cases consume with
  | returned count => exact ⟨count, rfl⟩
  | _ => cases h

theorem positive_of_busy (h : consume.isReturned = false) :
    ∀ count, consume = returned count → 0 < count := by
  rintro count rfl
  cases h

theorem length_held (ring : Ring) (consume : Consume) :
    ((held ring consume).getD []).length = consume.shown := by
  cases consume with
  | delivering start len => exact chunk_length ring start len
  | _ => rfl

theorem reach_le (ring : Ring) (most start : Nat) : reach ring most start ≤ most :=
  Nat.le_trans (Nat.min_le_left _ _) (Nat.min_le_right _ _)

theorem Fits.stepped (h : consume.Fits limit size) (hstep : Stepped ring consume ring' consume') :
    consume'.Fits limit (size + consume.shown) := by
  cases hstep with
  | @limited most start =>
    obtain ⟨hmost, hroom⟩ := h
    have hreach := reach_le ring most start
    exact ⟨Nat.zero_le _, by simp only [shown]; omega, by simp only [shown]; omega⟩
  | turnedAway | entered | placed | found | nothing | calledBack | handed | blanked | allBlank
  | lowered | allLow | advanced | left | rested =>
    simp only [Fits, shown] at h ⊢
    omega

theorem Fits.cost_stepped (h : consume.Fits limit size) (hbusy : consume.isReturned = false)
    (hstep : Stepped ring consume ring' consume') : consume'.cost < consume.cost := by
  cases hstep with
  | @limited most start =>
    have hreach := reach_le ring most start
    simp only [cost]
    omega
  | rested => cases hbusy
  | turnedAway | entered | placed | found | nothing | calledBack | handed | blanked | allBlank
  | lowered | allLow | advanced | left =>
    simp only [Fits] at h
    simp only [cost]
    omega

/-- What a consume has released and its caller has not been told yet. -/
def untold : Consume → Nat
  | releasing count => count
  | _ => 0

theorem untold_of_isReturned (h : consume.isReturned = true) : consume.untold = 0 := by
  obtain ⟨count, rfl⟩ := eq_returned h
  rfl

theorem step_consumed (ring : Ring) {c : Consume} (h : c.isReturned = false) :
    (step ring c).1.consumed + untold c =
      ring.consumed + untold (step ring c).2 + count (step ring c).2 := by
  cases c with
  | starting most =>
    simp only [step]
    split <;> rfl
  | scanning start limit len =>
    simp only [step]
    split
    · rfl
    · split <;> rfl
  | blanking start len done =>
    simp only [step]
    split <;> rfl
  | lowering start len done =>
    simp only [step]
    split <;> rfl
  | returned count => cases h
  | _ => rfl

/-- A consume that has yet to take hold of anything stands before the target, and one that has come
further will return something. -/
def Fruitful (consumed target : Nat) : Consume → Prop
  | starting _ | guarding _ | positioned _ _ => consumed < target
  | scanning _ reach _ => consumed < target ∧ 0 < reach
  | releasing count => 0 < count
  | _ => True

theorem fruitful_of_isReturned {consumed target : Nat} (h : consume.isReturned = true) :
    consume.Fruitful consumed target := by
  obtain ⟨count, rfl⟩ := eq_returned h
  trivial

end Consume

namespace Traffic

variable {t : Traffic} {p target limit size : Nat}

def Published (t : Traffic) (p : Nat) : Prop :=
  ∃ number call, t.claims[p - t.origin]? = some number ∧ t.calls[number]? = some call ∧
    call.phase = .returned true

instance (t : Traffic) (p : Nat) : Decidable (t.Published p) :=
  decidable_of_iff ((t.claims[p - t.origin]?.bind fun number => t.calls[number]?).map
    WriteCall.phase = some (.returned true)) (by
      simp only [Published, Option.map_eq_some_iff, Option.bind_eq_some_iff]
      constructor
      · rintro ⟨call, ⟨number, hclaim, hcall⟩, hphase⟩
        exact ⟨number, call, hclaim, hcall, hphase⟩
      · rintro ⟨number, call, hclaim, hcall, hphase⟩
        exact ⟨call, ⟨number, hclaim, hcall⟩, hphase⟩)

theorem step_returned (call : WriteCall) (h : call.phase = .returned true) (spurious : Bool)
    (ring : Ring) : (call.step spurious ring).2.phase = .returned true := by
  simp only [WriteCall.step, h, Write.step, WriteCall.moved]

theorem Published.act (h : t.Published p) (hs : t.Sound) (act : Act) : (t.act act).Published p := by
  obtain ⟨number, call, hclaim, hcall, hphase⟩ := h
  have hclaim' := getElem?_of_prefix (hs.claims_prefix_act act) hclaim
  rw [← act_origin t act] at hclaim'
  cases act with
  | call value tag =>
    exact ⟨number, call, hclaim', getElem?_of_prefix (List.prefix_append _ _) hcall, hphase⟩
  | access other spurious =>
    by_cases hsame : other = number
    · subst hsame
      have hlt := (List.getElem?_eq_some_iff.1 hcall).1
      refine ⟨other, (call.step spurious t.ring).2, hclaim', ?_, step_returned call hphase _ _⟩
      simp only [Traffic.act, access, hcall]
      exact List.getElem?_set_self hlt
    · refine ⟨number, call, hclaim', ?_, hphase⟩
      simp only [Traffic.act, access]
      split
      · exact hcall
      · exact (List.getElem?_set_ne hsame).trans hcall
  | consume most =>
    refine ⟨number, call, hclaim', ?_, hphase⟩
    simp only [Traffic.act]
    split <;> exact hcall
  | panic =>
    refine ⟨number, call, hclaim', ?_, hphase⟩
    simp only [Traffic.act]
    split <;> exact hcall
  | _ => exact ⟨number, call, hclaim', hcall, hphase⟩

theorem Sound.raised_of_published (hs : t.Sound) (h : t.Published p) (hreached : t.reached ≤ p) :
    p < t.ring.written ∧ t.ring.fenceAt p ≠ 0 := by
  obtain ⟨number, call, hclaim, hcall, hphase⟩ := h
  have hlength := hs.claims_length
  have horigin := hs.origin_le
  have hconsumed := consumed_le_reached t
  have hindex := (List.getElem?_eq_some_iff.1 hclaim).1
  have hwritten : p < t.ring.written := by omega
  obtain ⟨number', call', hclaim', hcall', hstands⟩ := hs.positions p (by omega) hwritten
  obtain rfl : number = number' := Option.some.inj (hclaim.symm.trans hclaim')
  obtain rfl : call = call' := Option.some.inj (hcall.symm.trans hcall')
  rcases hstands with hholding | ⟨-, hslot⟩
  · rw [hphase] at hholding
    cases hholding
  · exact ⟨hwritten, (hslot hreached).2⟩

theorem proceed_nil (t : Traffic) : (t.proceed []).ring = (Consume.step t.ring t.consumer).1 ∧
    (t.proceed []).consumer = (Consume.step t.ring t.consumer).2 := by
  simp only [proceed, edited_nil, and_self]

theorem proceed_stepped (t : Traffic) :
    t.consumer.Stepped t.ring (t.proceed []).ring (t.proceed []).consumer := by
  rw [(proceed_nil t).1, (proceed_nil t).2]
  exact Consume.stepped t.ring t.consumer

/-- Where all positions up to the target are announced, a consume that began before the target goes
on to return something. -/
theorem Sound.fruitful_proceed (hs : t.Sound) (hbusy : t.consumer.isReturned = false)
    (hfits : t.consumer.Fits limit size)
    (hpublished : ∀ p, t.ring.consumed ≤ p → p < target → t.Published p)
    (h : t.consumer.Fruitful t.ring.consumed target) :
    (t.proceed []).consumer.Fruitful (t.proceed []).ring.consumed target ∧
      ∀ count, (t.proceed []).consumer = .returned count → 0 < count := by
  have hconsumer := hs.consumer
  rw [(proceed_nil t).1, (proceed_nil t).2]
  cases hc : t.consumer with
  | starting most =>
    rw [hc] at hconsumer hfits h
    have hmost : most ≠ 0 := Nat.ne_of_gt hfits.1
    have hfree : t.ring.guarded = false := hconsumer
    simp only [Consume.step, hmost, hfree, decide_false, Bool.or_self, Bool.false_eq_true, if_false]
    exact ⟨h, Consume.positive_of_busy rfl⟩
  | guarding most =>
    rw [hc] at h
    exact ⟨h, Consume.positive_of_busy rfl⟩
  | positioned most start =>
    rw [hc] at hconsumer hfits h
    obtain rfl : start = t.ring.consumed := hconsumer.start_eq
    have hhead := hpublished t.ring.consumed (Nat.le_refl _) h
    have hreached : t.reached = t.ring.consumed := by simp [reached, hc, Consume.releasable]
    have hwritten := (hs.raised_of_published hhead hreached.le).1
    have hindex := hs.shaped.index_lt t.ring.consumed
    have hmost := hfits.1
    refine ⟨⟨h, ?_⟩, Consume.positive_of_busy rfl⟩
    show 0 < Consume.reach t.ring most t.ring.consumed
    unfold Consume.reach
    omega
  | scanning start reach len =>
    rw [hc] at hconsumer h
    obtain ⟨⟨-, rfl, -⟩, -⟩ := hconsumer
    obtain ⟨hbefore, hsome⟩ := h
    have hhead := hpublished t.ring.consumed (Nat.le_refl _) hbefore
    have hreached : t.reached = t.ring.consumed := by simp [reached, hc, Consume.releasable]
    have hraised := (hs.raised_of_published hhead hreached.le).2
    simp only [Consume.step]
    split
    · exact ⟨⟨hbefore, hsome⟩, Consume.positive_of_busy rfl⟩
    · rename_i hstops
      split
      · rename_i hnone
        subst hnone
        exact absurd ⟨hsome, rfl, hraised⟩ hstops
      · exact ⟨trivial, Consume.positive_of_busy rfl⟩
  | delivering start len => exact ⟨trivial, Consume.positive_of_busy rfl⟩
  | blanking start len done =>
    simp only [Consume.step]
    split <;> exact ⟨trivial, Consume.positive_of_busy rfl⟩
  | lowering start len done =>
    simp only [Consume.step]
    split <;> exact ⟨trivial, Consume.positive_of_busy rfl⟩
  | advancing start len =>
    rw [hc] at hfits
    exact ⟨hfits.1, Consume.positive_of_busy rfl⟩
  | releasing count =>
    rw [hc] at h
    refine ⟨trivial, fun other hsame => ?_⟩
    rw [← Consume.returned.inj hsame]
    exact h
  | returned count =>
    rw [hc] at hbusy
    cases hbusy

end Traffic

end MetricReporting.Ring
