import MetricReporting.Proofs.Ring.Slots
import MetricReporting.Proofs.Ring.Traffic

/-!
# Who owns which slot

The invariant of all traffic. A position belongs to the call that claimed it until that call raises
the fence, then to the consumer until it is released, and to nobody outside the two cursors. Every
act keeps this; the lemmas here say what an act has to leave alone.
-/
namespace MetricReporting.Ring.Traffic

structure Holds (t : Traffic) (number p : Nat) : Prop where
  origin_le : t.origin ≤ p
  reached_le : t.reached ≤ p
  claimant : t.claims[p - t.origin]? = some number
  fence : t.ring.fenceAt p = 0

def CallSound (t : Traffic) (number : Nat) (call : WriteCall) : Prop :=
  match call.phase with
  | .starting => number ∉ t.claims
  | .loaded p => number ∉ t.claims ∧ p ≤ t.ring.written
  | .room p => number ∉ t.claims ∧ p ≤ t.ring.written ∧ p < t.ring.consumed + t.ring.capacity
  | .claimed p => t.Holds number p
  | .stamped p ticks => t.Holds number p ∧ call.ticks = some ticks
  | .stored p ticks =>
      t.Holds number p ∧ call.ticks = some ticks ∧
        t.ring.entryAt p = ⟨ticks, call.value, call.tag⟩
  | .returned true => number ∈ t.claims ∧ call.ticks.isSome
  | .returned false => number ∉ t.claims

/-- A claimed position: its call is still at it, or has announced its entry, which lies in the slot
until a callback has had it. -/
def PositionSound (t : Traffic) (p : Nat) : Prop :=
  ∃ number call, t.claims[p - t.origin]? = some number ∧ t.calls[number]? = some call ∧
    (call.phase.holding? = some p ∨
      call.phase = .returned true ∧
        (t.reached ≤ p → call.written? = some (t.ring.entryAt p) ∧ t.ring.fenceAt p ≠ 0))

structure Chunk (ring : Ring) (start len : Nat) : Prop where
  guarded : ring.guarded = true
  start_eq : start = ring.consumed
  le_written : start + len ≤ ring.written

def ConsumerSound (ring : Ring) : Consume → Prop
  | .starting _ => ring.guarded = false
  | .guarding _ => ring.guarded = true
  | .positioned _ start => Chunk ring start 0
  | .scanning start limit len =>
      Chunk ring start limit ∧ len ≤ limit ∧ ∀ i < len, ring.fenceAt (start + i) ≠ 0
  | .delivering start len => Chunk ring start len ∧ ∀ i < len, ring.fenceAt (start + i) ≠ 0
  | .blanking start len done =>
      Chunk ring start len ∧ done ≤ len ∧ ∀ i < done, ring.entryAt (start + i) = Entry.blank
  | .lowering start len done =>
      Chunk ring start len ∧ done ≤ len ∧ (∀ i < len, ring.entryAt (start + i) = Entry.blank) ∧
        ∀ i < done, ring.fenceAt (start + i) = 0
  | .advancing start len =>
      Chunk ring start len ∧ (∀ i < len, ring.entryAt (start + i) = Entry.blank) ∧
        ∀ i < len, ring.fenceAt (start + i) = 0
  | .releasing _ => ring.guarded = true
  | .returned _ => ring.guarded = false

structure Sound (t : Traffic) : Prop where
  shaped : t.ring.Shaped
  origin_le : t.origin ≤ t.ring.consumed
  claims_length : t.origin + t.claims.length = t.ring.written
  reached_le : t.reached ≤ t.ring.written
  written_le : t.ring.written ≤ t.ring.consumed + t.ring.capacity
  claims_nodup : t.claims.Nodup
  calls : ∀ number call, t.calls[number]? = some call → t.CallSound number call
  positions : ∀ p, t.origin ≤ p → p < t.ring.written → t.PositionSound p
  free : ∀ p, t.ring.written ≤ p → p < t.ring.consumed + t.ring.capacity →
    t.ring.entryAt p = Entry.blank ∧ t.ring.fenceAt p = 0
  consumer : ConsumerSound t.ring t.consumer
  handed : t.handed.flatten.map some = (t.claims.take (t.reached - t.origin)).map t.written?

variable {t t' : Traffic} {number p q : Nat} {call : WriteCall}

theorem consumed_le_reached (t : Traffic) : t.ring.consumed ≤ t.reached :=
  Nat.le_add_right _ _

theorem Holds.lt_written (h : t.Holds number p) (hs : t.Sound) : p < t.ring.written := by
  have hlt := (List.getElem?_eq_some_iff.1 h.claimant).1
  have := hs.claims_length
  have := h.origin_le
  omega

theorem Holds.unique (hp : t.Holds number p) (hq : t.Holds number q) (hs : t.Sound) : p = q := by
  have hi := (List.getElem?_eq_some_iff.1 hp.claimant).1
  have heq := (List.getElem?_inj hi hs.claims_nodup).1 (hp.claimant.trans hq.claimant.symm)
  have := hp.origin_le
  have := hq.origin_le
  omega

theorem CallSound.holds (h : t.CallSound number call) (hp : call.phase.holding? = some p) :
    t.Holds number p := by
  unfold CallSound at h
  cases hphase : call.phase with
  | claimed q => simp only [hphase, Write.holding?, Option.some.injEq] at h hp; exact hp ▸ h
  | stamped q ticks => simp only [hphase, Write.holding?, Option.some.injEq] at h hp; exact hp ▸ h.1
  | stored q ticks => simp only [hphase, Write.holding?, Option.some.injEq] at h hp; exact hp ▸ h.1
  | _ => simp [hphase, Write.holding?] at hp

theorem Sound.settled (hs : t.Sound) (ho : t.origin ≤ p) (hp : p < t.reached) :
    ∃ number call, t.claims[p - t.origin]? = some number ∧ t.calls[number]? = some call ∧
      call.phase = .returned true := by
  have hw := hs.reached_le
  obtain ⟨number, call, hclaim, hcall, hholds | ⟨hphase, -⟩⟩ := hs.positions p ho (by omega)
  · have := ((hs.calls number call hcall).holds hholds).reached_le
    omega
  · exact ⟨number, call, hclaim, hcall, hphase⟩

theorem getElem?_of_prefix {α : Type} {l l' : List α} (h : l <+: l') {i : Nat} {a : α}
    (ha : l[i]? = some a) : l'[i]? = some a := by
  obtain ⟨hi, hget⟩ := List.getElem?_eq_some_iff.1 ha
  rw [List.prefix_iff_getElem?.1 h i hi, hget]

theorem CallSound.frame (h : t.CallSound number call) (horigin : t'.origin = t.origin)
    (hcapacity : t'.ring.capacity = t.ring.capacity) (hwritten : t.ring.written ≤ t'.ring.written)
    (hconsumed : t.ring.consumed ≤ t'.ring.consumed) (hclaims : t.claims <+: t'.claims)
    (hfresh : number ∉ t.claims → number ∉ t'.claims)
    (hslot : ∀ p, t.Holds number p → t'.reached ≤ p ∧
      t'.ring.entryAt p = t.ring.entryAt p ∧ t'.ring.fenceAt p = t.ring.fenceAt p) :
    t'.CallSound number call := by
  have hholds : ∀ p, t.Holds number p → t'.Holds number p := by
    intro p hp
    obtain ⟨hreached, -, hfence⟩ := hslot p hp
    have hclaim := getElem?_of_prefix hclaims hp.claimant
    exact ⟨horigin ▸ hp.origin_le, hreached, horigin ▸ hclaim, hfence.trans hp.fence⟩
  unfold CallSound at h ⊢
  cases hphase : call.phase with
  | starting => simp only [hphase] at h ⊢; exact hfresh h
  | loaded p => simp only [hphase] at h ⊢; exact ⟨hfresh h.1, by omega⟩
  | room p => simp only [hphase] at h ⊢; exact ⟨hfresh h.1, by omega, by omega⟩
  | claimed p => simp only [hphase] at h ⊢; exact hholds p h
  | stamped p ticks => simp only [hphase] at h ⊢; exact ⟨hholds p h.1, h.2⟩
  | stored p ticks =>
    simp only [hphase] at h ⊢
    exact ⟨hholds p h.1, h.2.1, (hslot p h.1).2.1.trans h.2.2⟩
  | returned accepted =>
    cases accepted with
    | true => simp only [hphase] at h ⊢; exact ⟨hclaims.subset h.1, h.2⟩
    | false => simp only [hphase] at h ⊢; exact hfresh h

theorem PositionSound.frame (h : t.PositionSound p) (horigin : t'.origin = t.origin)
    (hreached : t.reached ≤ t'.reached) (hclaims : t.claims <+: t'.claims)
    (hcalls : ∀ n, t.claims[p - t.origin]? = some n → t'.calls[n]? = t.calls[n]?)
    (hslot : t'.reached ≤ p →
      t'.ring.entryAt p = t.ring.entryAt p ∧ t'.ring.fenceAt p = t.ring.fenceAt p) :
    t'.PositionSound p := by
  obtain ⟨n, call, hn, hcall, hstand⟩ := h
  have hn' := getElem?_of_prefix hclaims hn
  refine ⟨n, call, horigin ▸ hn', (hcalls n hn).trans hcall, ?_⟩
  rcases hstand with hholds | ⟨hphase, hentry⟩
  · exact Or.inl hholds
  · refine Or.inr ⟨hphase, fun hp => ?_⟩
    obtain ⟨he, hf⟩ := hslot hp
    rw [he, hf]
    exact hentry (by omega)

end MetricReporting.Ring.Traffic
