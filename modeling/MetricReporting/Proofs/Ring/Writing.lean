import MetricReporting.Proofs.Ring.Ownership
import Mathlib.Data.List.Nodup

/-!
# Accesses of writers

A write call changes at most the slot of the one position it holds, and the claim takes a position
that nobody owns. So no access of a writer disturbs the consumer or another writer.
-/
namespace MetricReporting.Ring.Traffic

variable {t : Traffic} {ring ring' : Ring} {consumer : Consume} {number p : Nat}
  {call call' : WriteCall}

theorem ConsumerSound.frame (h : ConsumerSound ring consumer)
    (hguarded : ring'.guarded = ring.guarded)
    (hconsumed : ring'.consumed = ring.consumed) (hwritten : ring.written ≤ ring'.written)
    (hslot : ∀ q, ring.consumed ≤ q → q < ring.written →
      q < ring.consumed + consumer.releasable ∨ ring.fenceAt q ≠ 0 →
      ring'.entryAt q = ring.entryAt q ∧ ring'.fenceAt q = ring.fenceAt q) :
    ConsumerSound ring' consumer := by
  have hchunk : ∀ {start len : Nat}, Chunk ring start len → Chunk ring' start len := by
    intro start len hc
    have := hc.le_written
    exact ⟨hguarded.trans hc.guarded, hc.start_eq.trans hconsumed.symm, by omega⟩
  have hraised : ∀ {start limit len : Nat}, Chunk ring start limit → len ≤ limit →
      (∀ i < len, ring.fenceAt (start + i) ≠ 0) → ∀ i < len, ring'.fenceAt (start + i) ≠ 0 := by
    intro start limit len hc hle hf i hi
    have := hc.start_eq
    have := hc.le_written
    rw [(hslot (start + i) (by omega) (by omega) (Or.inr (hf i hi))).2]
    exact hf i hi
  cases consumer with
  | starting most => exact hguarded.trans h
  | guarding most => exact hguarded.trans h
  | positioned most start => exact hchunk h
  | scanning start limit len => exact ⟨hchunk h.1, h.2.1, hraised h.1 h.2.1 h.2.2⟩
  | delivering start len => exact ⟨hchunk h.1, hraised h.1 le_rfl h.2⟩
  | blanking start len done =>
    obtain ⟨hc, hle, hblank⟩ := h
    have := hc.start_eq
    have := hc.le_written
    refine ⟨hchunk hc, hle, fun i hi => ?_⟩
    rw [(hslot (start + i) (by omega) (by omega)
      (Or.inl (by simp only [Consume.releasable]; omega))).1]
    exact hblank i hi
  | lowering start len done =>
    obtain ⟨hc, hle, hblank, hlow⟩ := h
    have := hc.start_eq
    have := hc.le_written
    refine ⟨hchunk hc, hle, fun i hi => ?_, fun i hi => ?_⟩
    · rw [(hslot (start + i) (by omega) (by omega)
        (Or.inl (by simp only [Consume.releasable]; omega))).1]
      exact hblank i hi
    · rw [(hslot (start + i) (by omega) (by omega)
        (Or.inl (by simp only [Consume.releasable]; omega))).2]
      exact hlow i hi
  | advancing start len =>
    obtain ⟨hc, hblank, hlow⟩ := h
    have := hc.start_eq
    have := hc.le_written
    refine ⟨hchunk hc, fun i hi => ?_, fun i hi => ?_⟩
    · rw [(hslot (start + i) (by omega) (by omega)
        (Or.inl (by simp only [Consume.releasable]; omega))).1]
      exact hblank i hi
    · rw [(hslot (start + i) (by omega) (by omega)
        (Or.inl (by simp only [Consume.releasable]; omega))).2]
      exact hlow i hi
  | releasing count => exact hguarded.trans h
  | returned count => exact hguarded.trans h

def replace (t : Traffic) (number : Nat) (ring : Ring) (call : WriteCall) : Traffic :=
  { t with ring := ring, calls := t.calls.set number call }

theorem Sound.handed_set (hs : t.Sound) (hcall : t.calls[number]? = some call)
    (hphase : call.phase ≠ .returned true) (call' : WriteCall) :
    (t.claims.take (t.reached - t.origin)).map (fun n => (t.calls.set number call')[n]?.bind
      WriteCall.written?) = (t.claims.take (t.reached - t.origin)).map t.written? := by
  apply List.map_congr_left
  intro n hn
  obtain ⟨i, hi, hget⟩ := List.mem_take_iff_getElem.1 hn
  have hlt : t.origin + i < t.reached := by omega
  obtain ⟨m, settled, hm, hsettled, hreturned⟩ := hs.settled (Nat.le_add_right _ _) hlt
  rw [Nat.add_sub_cancel_left, List.getElem?_eq_getElem (by omega), hget] at hm
  have hne : number ≠ n := by
    rintro rfl
    rw [← Option.some.inj hm, hcall, Option.some.injEq] at hsettled
    exact hphase (hsettled ▸ hreturned)
  rw [List.getElem?_set_ne hne, written?]

theorem Sound.replace (hs : t.Sound) (hcall : t.calls[number]? = some call)
    (hphase : call.phase ≠ .returned true) (hshaped : ring'.Shaped)
    (hcapacity : ring'.capacity = t.ring.capacity) (hwritten : ring'.written = t.ring.written)
    (hconsumed : ring'.consumed = t.ring.consumed) (hguarded : ring'.guarded = t.ring.guarded)
    (hslot : ∀ q, t.ring.consumed ≤ q → q < t.ring.consumed + t.ring.capacity →
      ¬ t.Holds number q →
      ring'.entryAt q = t.ring.entryAt q ∧ ring'.fenceAt q = t.ring.fenceAt q)
    (hown : (t.replace number ring' call').CallSound number call')
    (hposition : ∀ p, t.Holds number p → (t.replace number ring' call').PositionSound p) :
    (t.replace number ring' call').Sound := by
  have hnumber : number < t.calls.length := (List.getElem?_eq_some_iff.1 hcall).1
  have hreached : (t.replace number ring' call').reached = t.reached := by
    simp only [Traffic.replace, reached, hconsumed]
  have hle := t.consumed_le_reached
  have hwindow := hs.written_le
  refine ⟨hshaped, hconsumed ▸ hs.origin_le, hwritten ▸ hs.claims_length, ?_, ?_, hs.claims_nodup,
    ?_, ?_, ?_, ?_, ?_⟩
  · rw [hreached]; exact hwritten ▸ hs.reached_le
  · simpa only [Traffic.replace, hwritten, hconsumed, hcapacity] using hs.written_le
  · intro n other hn
    by_cases hne : number = n
    · subst hne
      rw [Traffic.replace, List.getElem?_set_self hnumber, Option.some.injEq] at hn
      exact hn ▸ hown
    · rw [Traffic.replace, List.getElem?_set_ne hne] at hn
      refine (hs.calls n other hn).frame rfl hcapacity hwritten.ge hconsumed.ge (List.prefix_refl _)
        id fun q hq => ?_
      have hlt := hq.lt_written hs
      have := hq.reached_le
      refine ⟨hreached ▸ hq.reached_le, hslot q (by omega) (by omega) fun hq' => hne ?_⟩
      exact Option.some.inj (hq'.claimant.symm.trans hq.claimant)
  · intro q ho hq
    have hq' : q < t.ring.written := hwritten ▸ hq
    have hpos := hs.positions q ho hq'
    by_cases hheld : t.Holds number q
    · exact hposition q hheld
    · refine hpos.frame rfl hreached.ge (List.prefix_refl _) (fun n hn => ?_) fun hr => ?_
      · refine List.getElem?_set_ne fun hne => ?_
        subst hne
        obtain ⟨m, other, hm, hother, hholds | ⟨hover, -⟩⟩ := hpos
        · rw [hn, Option.some.injEq] at hm
          exact hheld ((hs.calls number other (hm ▸ hother)).holds hholds)
        · rw [hn, Option.some.injEq] at hm
          rw [← hm, hcall, Option.some.injEq] at hother
          exact hphase (hother ▸ hover)
      · rw [hreached] at hr
        exact hslot q (by omega) (by omega) hheld
  · intro q hq hq'
    have hq1 : t.ring.written ≤ q := hwritten ▸ hq
    have hq2 : q < t.ring.consumed + t.ring.capacity := by
      simpa only [Traffic.replace, hconsumed, hcapacity] using hq'
    have hr := hs.reached_le
    obtain ⟨he, hf⟩ := hslot q (by omega) hq2 fun h => by have := h.lt_written hs; omega
    rw [Traffic.replace, he, hf]
    exact hs.free q hq1 hq2
  · refine hs.consumer.frame hguarded hconsumed hwritten.ge fun q hq hq' hor => ?_
    refine hslot q hq (by omega) fun hheld => ?_
    rcases hor with hlt | hfence
    · have := hheld.reached_le
      unfold reached at this
      omega
    · exact hfence hheld.fence
  · rw [hreached]
    exact hs.handed.trans (hs.handed_set hcall hphase call').symm

theorem Holds.mem_claims (h : t.Holds number p) : number ∈ t.claims :=
  List.mem_of_getElem? h.claimant

theorem Holds.replace (h : t.Holds number p) (hconsumed : ring'.consumed = t.ring.consumed)
    (hfence : ring'.fenceAt p = t.ring.fenceAt p) :
    (t.replace number ring' call').Holds number p := by
  refine ⟨h.origin_le, ?_, h.claimant, hfence.trans h.fence⟩
  simpa only [Traffic.replace, reached, hconsumed] using h.reached_le

theorem Sound.replace_idle (hs : t.Sound) (hcall : t.calls[number]? = some call)
    (hphase : call.phase ≠ .returned true) (hfresh : number ∉ t.claims)
    (hown : (t.replace number t.ring call').CallSound number call') :
    (t.replace number t.ring call').Sound :=
  hs.replace hcall hphase hs.shaped rfl rfl rfl rfl (fun _ _ _ _ => ⟨rfl, rfl⟩) hown
    fun _ hp => absurd hp.mem_claims hfresh

theorem Sound.replace_holding (hs : t.Sound) (hcall : t.calls[number]? = some call)
    (hphase : call.phase ≠ .returned true) (hholds : t.Holds number p) (hshaped : ring'.Shaped)
    (hcapacity : ring'.capacity = t.ring.capacity) (hwritten : ring'.written = t.ring.written)
    (hconsumed : ring'.consumed = t.ring.consumed) (hguarded : ring'.guarded = t.ring.guarded)
    (hslot : ∀ q, t.ring.index q ≠ t.ring.index p → ring'.entryAt q = t.ring.entryAt q)
    (hfence : ∀ q, ring'.fenceAt q = t.ring.fenceAt q) (hheld : call'.phase.holding? = some p)
    (hown : (t.replace number ring' call').Holds number p →
      (t.replace number ring' call').CallSound number call') :
    (t.replace number ring' call').Sound := by
  have hholds' : (t.replace number ring' call').Holds number p :=
    hholds.replace hconsumed (hfence p)
  have hnumber : number < t.calls.length := (List.getElem?_eq_some_iff.1 hcall).1
  have hlt := hholds.lt_written hs
  have hwindow := hs.written_le
  have := t.consumed_le_reached
  have := hholds.reached_le
  refine hs.replace hcall hphase hshaped hcapacity hwritten hconsumed hguarded
    (fun q hq hq' hne => ⟨hslot q ?_, hfence q⟩) (hown hholds') fun q hq => ?_
  · exact Ring.index_ne (by omega) (by omega) fun h => hne (h ▸ hholds)
  · obtain rfl := hq.unique hholds hs
    exact ⟨number, call', hq.claimant, List.getElem?_set_self hnumber, Or.inl hheld⟩

theorem Sound.claim (hs : t.Sound) (hcall : t.calls[number]? = some call)
    (hphase : call.phase = .room t.ring.written) :
    Sound { t with
      ring := { t.ring with written := t.ring.written + 1 }
      calls := t.calls.set number (call.moved (.claimed t.ring.written))
      claims := t.claims ++ [number] } := by
  have hnumber : number < t.calls.length := (List.getElem?_eq_some_iff.1 hcall).1
  obtain ⟨hfresh, -, hroom⟩ : number ∉ t.claims ∧ t.ring.written ≤ t.ring.written ∧
      t.ring.written < t.ring.consumed + t.ring.capacity := by
    simpa only [CallSound, hphase] using hs.calls number call hcall
  have hlen := hs.claims_length
  have hreached := hs.reached_le
  have hle := t.consumed_le_reached
  have horigin := hs.origin_le
  have hclaimant : (t.claims ++ [number])[t.ring.written - t.origin]? = some number := by
    rw [show t.ring.written - t.origin = t.claims.length by omega]
    exact List.getElem?_concat_length
  refine ⟨⟨hs.shaped.capacity_pos, hs.shaped.fences_size⟩, horigin, ?_, ?_, ?_, ?_, ?_, ?_, ?_, ?_,
    ?_⟩
  · simp only [List.length_append, List.length_singleton]; omega
  · exact Nat.le_succ_of_le hreached
  · exact hroom
  · rw [List.nodup_append]
    refine ⟨hs.claims_nodup, List.nodup_singleton _, fun a ha b hb hab => hfresh ?_⟩
    rw [List.mem_singleton] at hb
    exact hb ▸ hab ▸ ha
  · intro n other hn
    by_cases hne : number = n
    · subst hne
      rw [List.getElem?_set_self hnumber, Option.some.injEq] at hn
      subst hn
      exact ⟨by show t.origin ≤ t.ring.written; omega, hreached, hclaimant,
        (hs.free _ le_rfl hroom).2⟩
    · rw [List.getElem?_set_ne hne] at hn
      refine (hs.calls n other hn).frame rfl rfl (Nat.le_succ _) le_rfl (List.prefix_append _ _)
        (fun h => ?_) fun q hq => ⟨hq.reached_le, rfl, rfl⟩
      rw [List.mem_append, List.mem_singleton]
      exact fun hor => hor.elim h fun heq => hne heq.symm
  · intro q ho hq
    have hq' : q < t.ring.written + 1 := hq
    rcases Nat.lt_succ_iff_lt_or_eq.1 hq' with hlt | rfl
    · refine (hs.positions q ho hlt).frame rfl le_rfl (List.prefix_append _ _) (fun n hn => ?_)
        fun _ => ⟨rfl, rfl⟩
      exact List.getElem?_set_ne fun hne : number = n => hfresh (hne ▸ List.mem_of_getElem? hn)
    · exact ⟨number, _, hclaimant, List.getElem?_set_self hnumber, Or.inl rfl⟩
  · intro q hq hq'
    exact hs.free q (Nat.le_of_succ_le hq) hq'
  · exact hs.consumer.frame rfl rfl (Nat.le_succ _) fun _ _ _ _ => ⟨rfl, rfl⟩
  · have htake : (t.claims ++ [number]).take (t.reached - t.origin) =
        t.claims.take (t.reached - t.origin) := List.take_append_of_le_length (by omega)
    have hnot : call.phase ≠ .returned true := by rw [hphase]; nofun
    have hsame := hs.handed_set hcall hnot (call.moved (.claimed t.ring.written))
    refine hs.handed.trans (hsame.symm.trans ?_)
    exact (congrArg (List.map _) htake).symm

theorem access_eq_replace (hcall : t.calls[number]? = some call) {spurious : Bool}
    (h : (call.step spurious t.ring).2.phase.isClaimed = false) :
    t.access number spurious =
      t.replace number (call.step spurious t.ring).1 (call.step spurious t.ring).2 := by
  simp only [access, hcall, h, Traffic.replace, Bool.false_eq_true, ↓reduceIte]

theorem Sound.access (hs : t.Sound) (number : Nat) (spurious : Bool) :
    (t.access number spurious).Sound := by
  cases hcall : t.calls[number]? with
  | none => simpa only [Traffic.access, hcall] using hs
  | some call =>
    have hown := hs.calls number call hcall
    obtain ⟨value, tag, phase, ticks⟩ := call
    cases phase with
    | starting =>
      rw [access_eq_replace hcall rfl]
      exact hs.replace_idle hcall (by simp) hown ⟨hown, le_rfl⟩
    | loaded p =>
      obtain ⟨hfresh, hle⟩ := hown
      by_cases hfull : Write.full t.ring p = true
      · have hstep : WriteCall.step ⟨value, tag, .loaded p, ticks⟩ spurious t.ring =
            (t.ring, ⟨value, tag, .returned false, ticks⟩) := by
          simp [WriteCall.step, Write.step, hfull, WriteCall.moved, Write.carried?]
        rw [access_eq_replace hcall (by rw [hstep]; rfl), hstep]
        exact hs.replace_idle hcall (by simp) hfresh hfresh
      · have hstep : WriteCall.step ⟨value, tag, .loaded p, ticks⟩ spurious t.ring =
            (t.ring, ⟨value, tag, .room p, ticks⟩) := by
          simp [WriteCall.step, Write.step, hfull, WriteCall.moved, Write.carried?]
        rw [access_eq_replace hcall (by rw [hstep]; rfl), hstep]
        refine hs.replace_idle hcall (by simp) hfresh ⟨hfresh, hle, ?_⟩
        simp only [Write.full, decide_eq_true_eq] at hfull
        show p < t.ring.consumed + t.ring.capacity
        omega
    | room p =>
      by_cases hfail : (spurious || t.ring.written != p) = true
      · have hstep : WriteCall.step ⟨value, tag, .room p, ticks⟩ spurious t.ring =
            (t.ring, ⟨value, tag, .loaded t.ring.written, ticks⟩) := by
          simp [WriteCall.step, Write.step, hfail, WriteCall.moved, Write.carried?]
        rw [access_eq_replace hcall (by rw [hstep]; rfl), hstep]
        exact hs.replace_idle hcall (by simp) hown.1 ⟨hown.1, le_rfl⟩
      · obtain ⟨rfl, rfl⟩ : spurious = false ∧ t.ring.written = p := by simpa using hfail
        have hstep : t.access number false = { t with
            ring := { t.ring with written := t.ring.written + 1 }
            calls := t.calls.set number ⟨value, tag, .claimed t.ring.written, ticks⟩
            claims := t.claims ++ [number] } := by
          simp [Traffic.access, hcall, WriteCall.step, Write.step, WriteCall.moved,
            Write.carried?, Write.isClaimed]
        rw [hstep]
        exact hs.claim hcall rfl
    | claimed p =>
      rw [access_eq_replace hcall rfl]
      exact hs.replace_holding hcall (by simp) hown ⟨hs.shaped.capacity_pos, hs.shaped.fences_size⟩
        rfl
        rfl rfl rfl (fun _ _ => rfl) (fun _ => rfl) rfl fun hholds => ⟨hholds, rfl⟩
    | stamped p shown =>
      rw [access_eq_replace hcall rfl]
      exact hs.replace_holding hcall (by simp) hown.1 (hs.shaped.setEntry p _)
        (setEntry_capacity _ _ _) rfl rfl rfl (fun _ hne => entryAt_setEntry_of_ne hne _)
        (setEntry_fenceAt _ _ _) rfl
        fun hholds => ⟨hholds, rfl, hs.shaped.entryAt_setEntry p _⟩
    | stored p shown =>
      obtain ⟨hholds, hticks, hentry⟩ := hown
      have hlt := hholds.lt_written hs
      have hwindow := hs.written_le
      have := t.consumed_le_reached
      have := hholds.reached_le
      have hnumber : number < t.calls.length := (List.getElem?_eq_some_iff.1 hcall).1
      rw [access_eq_replace hcall rfl]
      refine hs.replace hcall (by simp) (hs.shaped.setFence p _) rfl rfl rfl rfl
        (fun q hq hq' hne => ⟨rfl, fenceAt_setFence_of_ne ?_ _⟩) ⟨hholds.mem_claims, ?_⟩
        fun q hq => ?_
      · exact Ring.index_ne (by omega) (by omega) fun h => hne (h ▸ hholds)
      · exact hticks ▸ rfl
      · obtain rfl := hq.unique hholds hs
        refine ⟨number, _, hq.claimant, List.getElem?_set_self hnumber, Or.inr ⟨rfl, fun _ => ?_⟩⟩
        obtain rfl : ticks = some shown := hticks
        refine ⟨congrArg some hentry.symm, ?_⟩
        exact (hs.shaped.fenceAt_setFence q _).trans_ne (raisedFence_ne_zero shown)
    | returned accepted =>
      have hstep : t.access number spurious = t := by
        obtain ⟨hi, hget⟩ := List.getElem?_eq_some_iff.1 hcall
        have hset : t.calls.set number ⟨value, tag, .returned accepted, ticks⟩ = t.calls := by
          rw [← hget, List.set_getElem_self]
        simp [Traffic.access, hcall, WriteCall.step, Write.step, WriteCall.moved,
          Write.carried?, Write.isClaimed, hset]
      rw [hstep]
      exact hs

end MetricReporting.Ring.Traffic
