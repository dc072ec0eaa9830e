import MetricReporting.Proofs.Ring.FirstInFirstOut

/-!
# When entries are stamped

A write reads the clock after it has claimed its position, so an entry's ticks are what the clock
showed at some moment after the claim. An act stamps at most one entry, with what the clock shows
then.
-/
namespace MetricReporting.Ring.Traffic

def ClaimsFirst (t : Traffic) : Prop :=
  ∀ (number : Nat) call, t.calls[number]? = some call → number ∉ t.claims → call.ticks = none

/-- The entries from a position on were stamped no earlier than this. -/
def StampedFrom (t : Traffic) (position : Nat) (ticks : Int64) : Prop :=
  ∀ p entry, position ≤ p → t.recorded? p = some entry → ticks ≤ entry.ticks

def StampedUntil (t : Traffic) (ticks : Int64) : Prop :=
  ∀ p entry, t.recorded? p = some entry → entry.ticks ≤ ticks

variable {t t' : Traffic} {position position' : Nat} {ticks ticks' : Int64}

theorem StampedFrom.mono (h : t.StampedFrom position ticks) (hle : position ≤ position') :
    t.StampedFrom position' ticks :=
  fun p entry hp hrecorded => h p entry (hle.trans hp) hrecorded

theorem recorded?_eq_some_iff {p : Nat} {entry : Entry} :
    t.recorded? p = some entry ↔ ∃ (number : Nat) (call : WriteCall),
      t.claims[p - t.origin]? = some number ∧ t.calls[number]? = some call ∧
        call.written? = some entry := by
  simp only [recorded?, written?, Option.bind_eq_some_iff]
  constructor
  · rintro ⟨number, hclaim, call, hcall, hentry⟩
    exact ⟨number, call, hclaim, hcall, hentry⟩
  · rintro ⟨number, call, hclaim, hcall, hentry⟩
    exact ⟨number, hclaim, call, hcall, hentry⟩

theorem Sound.stampedFrom_written (hs : t.Sound) (ticks : Int64) :
    t.StampedFrom t.ring.written ticks := by
  intro p entry hp hrecorded
  have hlength := hs.claims_length
  have hnone : t.claims[p - t.origin]? = none := List.getElem?_eq_none (by omega)
  rw [recorded?, hnone] at hrecorded
  cases hrecorded

structure Stamps (now : Int64) (t t' : Traffic) : Prop where
  claimsFirst : t.ClaimsFirst → t'.ClaimsFirst
  stamped : t.ClaimsFirst → ∀ p entry, t'.recorded? p = some entry →
    t.recorded? p = some entry ∨ entry.ticks = now

variable {now : Int64}

theorem Stamps.stampedFrom (h : Stamps now t t') (hfirst : t.ClaimsFirst)
    (hfrom : t.StampedFrom position ticks) (hle : ticks ≤ now) : t'.StampedFrom position ticks := by
  intro p entry hp hrecorded
  rcases h.stamped hfirst p entry hrecorded with hold | hnow
  · exact hfrom p entry hp hold
  · rw [hnow]
    exact hle

theorem Stamps.stampedUntil (h : Stamps now t t') (hfirst : t.ClaimsFirst)
    (huntil : t.StampedUntil ticks) (hle : ticks ≤ now) : t'.StampedUntil now := by
  intro p entry hrecorded
  rcases h.stamped hfirst p entry hrecorded with hold | hnow
  · exact Int64.le_trans (huntil p entry hold) hle
  · rw [hnow]
    exact Int64.le_refl now

theorem Stamps.of_same (horigin : t'.origin = t.origin) (hcalls : t'.calls = t.calls)
    (hclaims : t'.claims = t.claims) : Stamps now t t' := by
  refine ⟨fun hfirst => ?_, fun _ p entry hrecorded => Or.inl ?_⟩
  · rw [ClaimsFirst, hcalls, hclaims]
    exact hfirst
  · have hsame : t'.recorded? p = t.recorded? p := by
      simp only [recorded?, horigin, hclaims]
      exact congrArg _ (funext fun number => by rw [written?, written?, hcalls])
    rwa [hsame] at hrecorded

theorem stamps_call (t : Traffic) (value : Int64) (tag : Int32) :
    Stamps now t (t.act (.call value tag)) := by
  have hcalls : ∀ (number : Nat) call, (t.act (.call value tag)).calls[number]? = some call →
      t.calls[number]? = some call ∨ call.ticks = none := by
    intro number call hcall
    rcases Nat.lt_or_ge number t.calls.length with hlt | hge
    · rw [act, List.getElem?_append_left hlt] at hcall
      exact Or.inl hcall
    · rw [act, List.getElem?_append_right hge, List.getElem?_singleton] at hcall
      split at hcall
      · exact Or.inr (Option.some.inj hcall ▸ rfl)
      · cases hcall
  refine ⟨fun hfirst number call hcall hnot => ?_, fun _ p entry hrecorded => Or.inl ?_⟩
  · rcases hcalls number call hcall with hold | hnone
    · exact hfirst number call hold hnot
    · exact hnone
  · obtain ⟨number, call, hclaim, hcall, hentry⟩ := recorded?_eq_some_iff.1 hrecorded
    obtain ⟨shown, hshown, -⟩ := Option.map_eq_some_iff.1 hentry
    rcases hcalls number call hcall with hold | hnone
    · exact recorded?_eq_some_iff.2 ⟨number, call, hclaim, hold, hentry⟩
    · rw [hnone] at hshown
      cases hshown

theorem step_ticks (hs : t.Sound) (hfirst : t.ClaimsFirst) {number : Nat} {call : WriteCall}
    (hcall : t.calls[number]? = some call) (spurious : Bool) :
    let call' := (call.step spurious t.ring).2
    (call'.ticks = call.ticks ∧ call'.value = call.value ∧ call'.tag = call.tag ∧
        (call'.phase.isClaimed = true → call'.ticks = none)) ∨
      number ∈ t.claims ∧ call'.ticks = some t.ring.clock.now := by
  have hown := hs.calls number call hcall
  have hunclaimed := hfirst number call hcall
  obtain ⟨value, tag, phase, ticks⟩ := call
  -- the last part says something of the call that has just claimed its position only
  have hquiet : ∀ {call : WriteCall}, call.phase.isClaimed = false → call.phase.isClaimed = true →
      call.ticks = none := fun hfalse htrue => absurd (hfalse.symm.trans htrue) Bool.false_ne_true
  cases phase with
  | starting => exact Or.inl ⟨rfl, rfl, rfl, hquiet rfl⟩
  | loaded p =>
    refine Or.inl ?_
    simp only [WriteCall.step, Write.step]
    split <;> exact ⟨rfl, rfl, rfl, hquiet rfl⟩
  | room p =>
    refine Or.inl ?_
    simp only [WriteCall.step, Write.step]
    split
    · exact ⟨rfl, rfl, rfl, hquiet rfl⟩
    · exact ⟨rfl, rfl, rfl, fun _ => hunclaimed hown.1⟩
  | claimed p => exact Or.inr ⟨hown.mem_claims, rfl⟩
  | stamped p shown => exact Or.inl ⟨hown.2.symm, rfl, rfl, hquiet rfl⟩
  | stored p shown => exact Or.inl ⟨rfl, rfl, rfl, hquiet rfl⟩
  | returned accepted => exact Or.inl ⟨rfl, rfl, rfl, hquiet rfl⟩

/-! ## Accesses -/

section Accesses

variable {number other : Nat} {call : WriteCall} (hcall : t.calls[number]? = some call)
  (spurious : Bool)

include hcall

theorem access_call_self :
    (t.access number spurious).calls[number]? = some (call.step spurious t.ring).2 := by
  simp only [access, hcall]
  exact List.getElem?_set_self (List.getElem?_eq_some_iff.1 hcall).1

theorem access_call_other (hne : number ≠ other) :
    (t.access number spurious).calls[other]? = t.calls[other]? := by
  simp only [access, hcall]
  exact List.getElem?_set_ne hne

theorem access_claims : (t.access number spurious).claims =
    if (call.step spurious t.ring).2.phase.isClaimed then t.claims ++ [number] else t.claims := by
  simp only [access, hcall]

theorem mem_access_claims (hmem : other ∈ t.claims) :
    other ∈ (t.access number spurious).claims := by
  rw [access_claims hcall]
  split
  · exact List.mem_append_left _ hmem
  · exact hmem

theorem access_claim_other {i : Nat} (hclaim : (t.access number spurious).claims[i]? = some other)
    (hne : number ≠ other) : t.claims[i]? = some other := by
  rw [access_claims hcall] at hclaim
  split at hclaim
  · rcases Nat.lt_or_ge i t.claims.length with hold | hnew
    · rwa [List.getElem?_append_left hold] at hclaim
    · rw [List.getElem?_append_right hnew] at hclaim
      exact absurd (List.mem_singleton.1 (List.mem_of_getElem? hclaim)).symm hne
  · exact hclaim

theorem access_claimsFirst (hs : t.Sound) (hfirst : t.ClaimsFirst) :
    (t.access number spurious).ClaimsFirst := by
  intro other call' hother hnot
  have hnot' : other ∉ t.claims := fun hmem => hnot (mem_access_claims hcall spurious hmem)
  by_cases hne : number = other
  · subst hne
    obtain rfl := Option.some.inj ((access_call_self hcall spurious).symm.trans hother)
    rcases step_ticks hs hfirst hcall spurious with ⟨hticks, -⟩ | ⟨hclaimed, -⟩
    · rw [hticks]
      exact hfirst number call hcall hnot'
    · exact absurd hclaimed hnot'
  · rw [access_call_other hcall spurious hne] at hother
    exact hfirst other call' hother hnot'

theorem access_written_self (hs : t.Sound) (hfirst : t.ClaimsFirst) {i : Nat} {entry : Entry}
    (hclaim : (t.access number spurious).claims[i]? = some number)
    (hentry : (call.step spurious t.ring).2.written? = some entry) :
    t.claims[i]? = some number ∧ call.written? = some entry ∨ entry.ticks = t.ring.clock.now := by
  rcases step_ticks hs hfirst hcall spurious with ⟨hticks, hvalue, htag, hnone⟩ | ⟨-, hticks⟩
  · -- a claim is made before the clock is read, so the position is an old one
    have hphase : ¬ (call.step spurious t.ring).2.phase.isClaimed := by
      intro hclaimed
      rw [WriteCall.written?, hnone hclaimed] at hentry
      cases hentry
    rw [access_claims hcall, if_neg hphase] at hclaim
    rw [WriteCall.written?, hticks, hvalue, htag] at hentry
    exact Or.inl ⟨hclaim, hentry⟩
  · rw [WriteCall.written?, hticks, Option.map_some] at hentry
    exact Or.inr (Option.some.inj hentry ▸ rfl)

end Accesses

theorem stamps_access (hs : t.Sound) (number : Nat) (spurious : Bool) :
    Stamps t.ring.clock.now t (t.access number spurious) := by
  cases hcall : t.calls[number]? with
  | none =>
    rw [access, hcall]
    exact .of_same rfl rfl rfl
  | some call =>
    have horigin : (t.access number spurious).origin = t.origin :=
      act_origin t (.access number spurious)
    refine ⟨access_claimsFirst hcall spurious hs, fun hfirst p entry hrecorded => ?_⟩
    obtain ⟨other, call', hclaim, hcall', hentry⟩ := recorded?_eq_some_iff.1 hrecorded
    rw [horigin] at hclaim
    by_cases hne : number = other
    · subst hne
      obtain rfl := Option.some.inj ((access_call_self hcall spurious).symm.trans hcall')
      refine (access_written_self hcall spurious hs hfirst hclaim hentry).imp_left fun hold => ?_
      exact recorded?_eq_some_iff.2 ⟨number, call, hold.1, hcall, hold.2⟩
    · rw [access_call_other hcall spurious hne] at hcall'
      have hold := access_claim_other hcall spurious hclaim hne
      exact Or.inl (recorded?_eq_some_iff.2 ⟨other, call', hold, hcall', hentry⟩)

end MetricReporting.Ring.Traffic
