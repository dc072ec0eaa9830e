import MetricReporting.Proofs.Ring.Crowd.Custody

/-!
# Accesses of writers in a crowd

A write stores only into the slot of the position it holds, and its claim takes a slot that nobody
has. So no chunk is disturbed, and no other writer.
-/
namespace MetricReporting.Ring.Crowd

variable {c : Crowd} {ring' : Ring} {number p : Nat} {call call' : WriteCall}

def replace (c : Crowd) (number : Nat) (ring : Ring) (call : WriteCall) : Crowd :=
  { c with ring := ring, calls := c.calls.set number call }

theorem Published.replace (h : c.Published p) (hcall : c.calls[number]? = some call)
    (hphase : call.phase ≠ .returned true) (ring' : Ring) (call' : WriteCall) :
    (c.replace number ring' call').Published p := by
  refine h.mono (List.prefix_refl _) fun n settled hn hreturned => ?_
  have hne : number ≠ n := by
    rintro rfl
    exact hphase (Option.some.inj (hcall.symm.trans hn) ▸ hreturned)
  rw [Crowd.replace, List.getElem?_set_ne hne]
  exact hn

theorem Sound.replace (hs : c.Sound) (hcall : c.calls[number]? = some call)
    (hphase : call.phase ≠ .returned true) (hshaped : ring'.Shaped)
    (hcapacity : ring'.capacity = c.ring.capacity) (hwritten : ring'.written = c.ring.written)
    (hconsumed : ring'.consumed = c.ring.consumed) (hguarded : ring'.guarded = c.ring.guarded)
    (hslot : ∀ q, c.ring.consumed ≤ q → q < c.ring.consumed + c.ring.capacity →
      ¬ c.Holds number q →
      ring'.entryAt q = c.ring.entryAt q ∧ ring'.fenceAt q = c.ring.fenceAt q)
    (hown : (c.replace number ring' call').CallSound number call')
    (hposition : ∀ p, c.Holds number p → (c.replace number ring' call').Published p ∨
      (c.replace number ring' call').Owns number p) :
    (c.replace number ring' call').Sound := by
  have hnumber : number < c.calls.length := (List.getElem?_eq_some_iff.1 hcall).1
  have hle := hs.consumed_le
  have hwindow := hs.written_le
  refine ⟨hshaped, hs.claims_length.trans hwritten.symm, ?_, ?_, hs.claims_nodup, ?_, ?_, ?_, ?_,
    fun other hinside => hguarded.trans (hs.guarded other hinside), hs.alone⟩
  · simpa only [Crowd.replace, hconsumed, hwritten] using hle
  · simpa only [Crowd.replace, hwritten, hconsumed, hcapacity] using hwindow
  · intro n other hn
    by_cases hne : number = n
    · subst hne
      rw [Crowd.replace, List.getElem?_set_self hnumber, Option.some.injEq] at hn
      exact hn ▸ hown
    · rw [Crowd.replace, List.getElem?_set_ne hne] at hn
      refine (hs.calls n other hn).frame hcapacity hconsumed.ge id fun q _ hq => ?_
      have hlt := hq.lt_written hs
      have hge := hq.consumed_le
      -- the claimant of a position is one call, so the other call's slot is not this one's
      have hdiff : ¬ c.Holds number q := fun hq' =>
        hne (Option.some.inj (hq'.claimant.symm.trans hq.claimant))
      refine ⟨hconsumed.trans_le hge, hq.claimant, ?_⟩
      exact (hslot q hge (by omega) hdiff).2.trans hq.fence
  · intro q hq
    rcases hs.positions q (hwritten ▸ hq) with hpublished | ⟨n, howns⟩
    · exact Or.inl (hpublished.replace hcall hphase ring' call')
    · by_cases hne : number = n
      · subst hne
        exact (hposition q (hs.holds howns)).imp_right fun h => ⟨number, h⟩
      · obtain ⟨other, hother, hholding⟩ := howns
        refine Or.inr ⟨n, other, ?_, hholding⟩
        rw [Crowd.replace, List.getElem?_set_ne hne]
        exact hother
  -- the slots not claimed yet: what the call holds is behind the write position
  · intro q hq hq'
    have hq1 : c.ring.written ≤ q := hwritten ▸ hq
    have hq2 : q < c.ring.consumed + c.ring.capacity := by
      simpa only [Crowd.replace, hconsumed, hcapacity] using hq'
    obtain ⟨he, hf⟩ := hslot q (by omega) hq2 fun h => by have := h.lt_written hs; omega
    rw [Crowd.replace, he, hf]
    exact hs.free q hq1 hq2
  · intro other consume hconsume
    refine (hs.consumes other consume hconsume).frame hconsumed hwritten.ge
      (fun p hp => hp.replace hcall hphase ring' call') fun p hp hp' hpublished => ?_
    exact hslot p hp (by omega) (hpublished.not_holds hcall hphase)

theorem Sound.replace_idle (hs : c.Sound) (hcall : c.calls[number]? = some call)
    (hphase : call.phase ≠ .returned true) (hfresh : number ∉ c.claims)
    (hown : (c.replace number c.ring call').CallSound number call') :
    (c.replace number c.ring call').Sound :=
  hs.replace hcall hphase hs.shaped rfl rfl rfl rfl (fun _ _ _ _ => ⟨rfl, rfl⟩) hown
    fun _ hp => absurd (List.mem_of_getElem? hp.claimant) hfresh

theorem Sound.replace_holding (hs : c.Sound) (hcall : c.calls[number]? = some call)
    (hphase : call.phase ≠ .returned true) (hholds : c.Holds number p) (hshaped : ring'.Shaped)
    (hcapacity : ring'.capacity = c.ring.capacity) (hwritten : ring'.written = c.ring.written)
    (hconsumed : ring'.consumed = c.ring.consumed) (hguarded : ring'.guarded = c.ring.guarded)
    (hslot : ∀ q, c.ring.index q ≠ c.ring.index p → ring'.entryAt q = c.ring.entryAt q)
    (hfence : ∀ q, ring'.fenceAt q = c.ring.fenceAt q) (hheld : call'.phase.holding? = some p)
    (hown : (c.replace number ring' call').Holds number p →
      (c.replace number ring' call').CallSound number call') :
    (c.replace number ring' call').Sound := by
  have hnumber : number < c.calls.length := (List.getElem?_eq_some_iff.1 hcall).1
  have hlt := hholds.lt_written hs
  have hge := hholds.consumed_le
  have hwindow := hs.written_le
  have hholds' : (c.replace number ring' call').Holds number p :=
    ⟨hconsumed.trans_le hge, hholds.claimant, (hfence p).trans hholds.fence⟩
  refine hs.replace hcall hphase hshaped hcapacity hwritten hconsumed hguarded
    (fun q hq hq' hne => ⟨hslot q ?_, hfence q⟩) (hown hholds') fun q hq => ?_
  · exact Ring.index_ne (by omega) (by omega) fun h => hne (h ▸ hholds)
  · obtain rfl := hq.unique hholds hs
    exact Or.inr ⟨call', List.getElem?_set_self hnumber, hheld⟩

theorem Sound.claim (hs : c.Sound) (hcall : c.calls[number]? = some call)
    (hphase : call.phase = .room c.ring.written) :
    Sound { c with
      ring := { c.ring with written := c.ring.written + 1 }
      calls := c.calls.set number (call.moved (.claimed c.ring.written))
      claims := c.claims ++ [number] } := by
  have hnumber : number < c.calls.length := (List.getElem?_eq_some_iff.1 hcall).1
  obtain ⟨hfresh, hroom⟩ : number ∉ c.claims ∧
      c.ring.written < c.ring.consumed + c.ring.capacity := by
    simpa only [CallSound, hphase] using hs.calls number call hcall
  have hlen := hs.claims_length
  have hle := hs.consumed_le
  have hclaimant : (c.claims ++ [number])[c.ring.written]? = some number := by
    rw [← hlen]
    exact List.getElem?_concat_length
  have hpublished : ∀ p, c.Published p → Published { c with
      ring := { c.ring with written := c.ring.written + 1 }
      calls := c.calls.set number (call.moved (.claimed c.ring.written))
      claims := c.claims ++ [number] } p := by
    intro p hp
    refine hp.mono (List.prefix_append _ _) fun n settled hn hreturned => ?_
    have hne : number ≠ n := by
      rintro rfl
      rw [Option.some.inj (hcall.symm.trans hn), hreturned] at hphase
      cases hphase
    rw [List.getElem?_set_ne hne]
    exact hn
  refine ⟨⟨hs.shaped.capacity_pos, hs.shaped.fences_size⟩, ?_, Nat.le_succ_of_le hle, hroom, ?_, ?_,
    ?_, fun q hq hq' => hs.free q (Nat.le_of_succ_le hq) hq', ?_, hs.guarded, hs.alone⟩
  · simp only [List.length_append, List.length_singleton, hlen]
  · rw [List.nodup_append]
    refine ⟨hs.claims_nodup, List.nodup_singleton _, fun a ha b hb hab => hfresh ?_⟩
    rw [List.mem_singleton] at hb
    exact hb ▸ hab ▸ ha
  · intro n other hn
    by_cases hne : number = n
    · subst hne
      rw [List.getElem?_set_self hnumber, Option.some.injEq] at hn
      subst hn
      -- the position claimed was the first free one, and its fence is lowered
      exact ⟨hle, hclaimant, (hs.free _ (Nat.le_refl _) hroom).2⟩
    · rw [List.getElem?_set_ne hne] at hn
      refine (hs.calls n other hn).frame rfl (Nat.le_refl _) (fun h => ?_) fun q _ hq => ?_
      · rw [List.mem_append, List.mem_singleton]
        exact fun hor => hor.elim h fun heq => hne heq.symm
      · exact ⟨hq.consumed_le,
          Traffic.getElem?_of_prefix (List.prefix_append _ _) hq.claimant, hq.fence⟩
  · intro q hq
    rcases Nat.lt_succ_iff_lt_or_eq.1 hq with hlt | rfl
    · rcases hs.positions q hlt with hp | ⟨n, other, hn, hholding⟩
      · exact Or.inl (hpublished q hp)
      · have hne : number ≠ n := by
          rintro rfl
          rw [← Option.some.inj (hcall.symm.trans hn), hphase] at hholding
          cases hholding
        refine Or.inr ⟨n, other, ?_, hholding⟩
        rw [List.getElem?_set_ne hne]
        exact hn
    · exact Or.inr ⟨number, _, List.getElem?_set_self hnumber, rfl⟩
  · intro other consume hconsume
    exact (hs.consumes other consume hconsume).frame rfl (Nat.le_succ _) hpublished
      fun _ _ _ _ => ⟨rfl, rfl⟩

theorem access_eq_replace (hcall : c.calls[number]? = some call) {spurious : Bool}
    (h : (call.step spurious c.ring).2.phase.isClaimed = false) :
    c.access number spurious =
      c.replace number (call.step spurious c.ring).1 (call.step spurious c.ring).2 := by
  simp only [access, hcall, h, Crowd.replace, Bool.false_eq_true, ↓reduceIte]

theorem Sound.access (hs : c.Sound) (number : Nat) (spurious : Bool) :
    (c.access number spurious).Sound := by
  cases hcall : c.calls[number]? with
  | none => simpa only [Crowd.access, hcall] using hs
  | some call =>
    have hown := hs.calls number call hcall
    obtain ⟨value, tag, phase, ticks⟩ := call
    cases phase with
    | starting =>
      rw [access_eq_replace hcall rfl]
      exact hs.replace_idle hcall (by simp) hown hown
    | loaded p =>
      by_cases hfull : Write.full c.ring p = true
      · have hstep : WriteCall.step ⟨value, tag, .loaded p, ticks⟩ spurious c.ring =
            (c.ring, ⟨value, tag, .returned false, ticks⟩) := by
          simp [WriteCall.step, Write.step, hfull, WriteCall.moved, Write.carried?]
        rw [access_eq_replace hcall (by rw [hstep]; rfl), hstep]
        exact hs.replace_idle hcall (by simp) hown trivial
      · have hstep : WriteCall.step ⟨value, tag, .loaded p, ticks⟩ spurious c.ring =
            (c.ring, ⟨value, tag, .room p, ticks⟩) := by
          simp [WriteCall.step, Write.step, hfull, WriteCall.moved, Write.carried?]
        rw [access_eq_replace hcall (by rw [hstep]; rfl), hstep]
        refine hs.replace_idle hcall (by simp) hown ⟨hown, ?_⟩
        simp only [Write.full, decide_eq_true_eq] at hfull
        show p < c.ring.consumed + c.ring.capacity
        omega
    | room p =>
      by_cases hfail : (spurious || c.ring.written != p) = true
      · have hstep : WriteCall.step ⟨value, tag, .room p, ticks⟩ spurious c.ring =
            (c.ring, ⟨value, tag, .loaded c.ring.written, ticks⟩) := by
          simp [WriteCall.step, Write.step, hfail, WriteCall.moved, Write.carried?]
        rw [access_eq_replace hcall (by rw [hstep]; rfl), hstep]
        exact hs.replace_idle hcall (by simp) hown.1 hown.1
      · obtain ⟨rfl, rfl⟩ : spurious = false ∧ c.ring.written = p := by simpa using hfail
        have hstep : c.access number false = { c with
            ring := { c.ring with written := c.ring.written + 1 }
            calls := c.calls.set number ⟨value, tag, .claimed c.ring.written, ticks⟩
            claims := c.claims ++ [number] } := by
          simp [Crowd.access, hcall, WriteCall.step, Write.step, WriteCall.moved,
            Write.carried?, Write.isClaimed]
        rw [hstep]
        exact hs.claim hcall rfl
    | claimed p =>
      rw [access_eq_replace hcall rfl]
      exact hs.replace_holding hcall (by simp) hown ⟨hs.shaped.capacity_pos, hs.shaped.fences_size⟩
        rfl
        rfl rfl rfl (fun _ _ => rfl) (fun _ => rfl) rfl id
    | stamped p shown =>
      rw [access_eq_replace hcall rfl]
      exact hs.replace_holding hcall (by simp) hown (hs.shaped.setEntry p _)
        (setEntry_capacity _ _ _)
        rfl rfl rfl (fun _ hne => entryAt_setEntry_of_ne hne _) (setEntry_fenceAt _ _ _) rfl id
    | stored p shown =>
      have hholds : c.Holds number p := hown
      have hlt := hholds.lt_written hs
      have hge := hholds.consumed_le
      have hwindow := hs.written_le
      have hnumber : number < c.calls.length := (List.getElem?_eq_some_iff.1 hcall).1
      rw [access_eq_replace hcall rfl]
      refine hs.replace hcall (by simp) (hs.shaped.setFence p _) rfl rfl rfl rfl
        (fun q hq hq' hne => ⟨rfl, fenceAt_setFence_of_ne ?_ _⟩) trivial fun q hq => ?_
      · exact Ring.index_ne (by omega) (by omega) fun h => hne (h ▸ hholds)
      · exact Or.inl ⟨number, _, hq.claimant, List.getElem?_set_self hnumber, rfl⟩
    | returned accepted =>
      have hstep : c.access number spurious = c := by
        obtain ⟨hi, hget⟩ := List.getElem?_eq_some_iff.1 hcall
        have hset : c.calls.set number ⟨value, tag, .returned accepted, ticks⟩ = c.calls := by
          rw [← hget, List.set_getElem_self]
        simp [Crowd.access, hcall, WriteCall.step, Write.step, WriteCall.moved,
          Write.carried?, Write.isClaimed, hset]
      rw [hstep]
      exact hs

end MetricReporting.Ring.Crowd
