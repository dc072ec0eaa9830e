import MetricReporting.Proofs.Ring.FirstInFirstOut
import Mathlib.Data.List.Induction

/-!
# Claims and rejections

A write compares a position that it loaded some time ago with a consume position that it loads
later. Still no position is claimed without a slot for it, and no write is turned away but at a
moment when all slots are taken: the position loaded is never ahead of the write position, so where
it looks taken from the consume position, the write position is there too.
-/
namespace MetricReporting.Ring.Traffic

variable {t t' : Traffic} {number p : Nat} {spurious : Bool} {call : WriteCall}

/-! ## The capacity -/

theorem write_step_capacity (value : Int64) (tag : Int32) (spurious : Bool) (ring : Ring)
    (write : Write) : (Write.step value tag spurious ring write).1.capacity = ring.capacity := by
  cases write with
  | loaded position =>
    simp only [Write.step]
    split <;> rfl
  | room position =>
    simp only [Write.step]
    split <;> rfl
  | stamped position ticks => exact setEntry_capacity _ _ _
  | _ => rfl

theorem consume_step_capacity (ring : Ring) (consume : Consume) :
    (Consume.step ring consume).1.capacity = ring.capacity := by
  cases consume with
  | starting most =>
    simp only [Consume.step]
    split <;> rfl
  | scanning start limit len =>
    simp only [Consume.step]
    split
    · rfl
    · split <;> rfl
  | blanking start len done =>
    simp only [Consume.step]
    split
    · exact setEntry_capacity _ _ _
    · rfl
  | lowering start len done =>
    simp only [Consume.step]
    split <;> rfl
  | _ => rfl

theorem edited_capacity (ring : Ring) (consumer : Consume) (edit : List Entry) :
    (edited ring consumer edit).capacity = ring.capacity := by
  cases consumer with
  | delivering start len => exact (overwrite_sameFrame _ _ _).capacity
  | _ => rfl

theorem act_capacity (t : Traffic) (act : Act) : (t.act act).ring.capacity = t.ring.capacity := by
  cases act with
  | access number spurious =>
    simp only [Traffic.act, access]
    split
    · rfl
    · exact write_step_capacity _ _ _ _ _
  | consume most =>
    simp only [Traffic.act]
    split <;> rfl
  | proceed edit => exact (consume_step_capacity _ _).trans (edited_capacity _ _ _)
  | panic =>
    simp only [Traffic.act]
    split
    · cases t.consumer <;> rfl
    · rfl
  | _ => rfl

theorem run_capacity (t : Traffic) (acts : List Act) :
    (t.run acts).ring.capacity = t.ring.capacity := by
  induction acts generalizing t with
  | nil => rfl
  | cons act acts ih => exact (ih (t.act act)).trans (act_capacity t act)

/-! ## What an access of a writer can do -/

/-- An access leaves the ring alone, claims the next position, or goes to the slot that its call
holds. -/
inductive Accessed (t : Traffic) (number : Nat) (t' : Traffic) : Prop
  | idle : t'.ring = t.ring → t'.claims = t.claims → Accessed t number t'
  | claim : t'.ring.written = t.ring.written + 1 → t'.claims = t.claims ++ [number] →
      Accessed t number t'
  | own : number ∈ t.claims → t'.ring.written = t.ring.written → t'.claims = t.claims →
      Accessed t number t'

theorem Sound.accessed (hs : t.Sound) (number : Nat) (spurious : Bool) :
    Accessed t number (t.access number spurious) := by
  cases hcall : t.calls[number]? with
  | none =>
    have hstays : t.access number spurious = t := by simp only [Traffic.access, hcall]
    rw [hstays]
    exact .idle rfl rfl
  | some call =>
    have hown := hs.calls number call hcall
    obtain ⟨value, tag, phase, ticks⟩ := call
    cases phase with
    | starting =>
      rw [access_eq_replace hcall rfl]
      exact .idle rfl rfl
    | loaded p =>
      have hstep : (Write.step value tag spurious t.ring (.loaded p)).1 = t.ring ∧
          (Write.step value tag spurious t.ring (.loaded p)).2.isClaimed = false := by
        simp only [Write.step]
        split <;> exact ⟨rfl, rfl⟩
      rw [access_eq_replace hcall hstep.2]
      exact .idle hstep.1 rfl
    | room p =>
      by_cases hfail : (spurious || t.ring.written != p) = true
      · have hstep : Write.step value tag spurious t.ring (.room p) =
            (t.ring, .loaded t.ring.written) := by
          simp only [Write.step, hfail, if_true]
        rw [access_eq_replace hcall (by rw [WriteCall.step, hstep]; rfl), WriteCall.step, hstep]
        exact .idle rfl rfl
      · obtain ⟨rfl, rfl⟩ : spurious = false ∧ t.ring.written = p := by simpa using hfail
        refine .claim ?_ ?_
        · simp [Traffic.access, hcall, WriteCall.step, Write.step]
        · simp [Traffic.access, hcall, WriteCall.step, Write.step, WriteCall.moved, Write.isClaimed]
    | claimed p =>
      rw [access_eq_replace hcall rfl]
      exact .own hown.mem_claims rfl rfl
    | stamped p shown =>
      rw [access_eq_replace hcall rfl]
      exact .own hown.1.mem_claims rfl rfl
    | stored p shown =>
      rw [access_eq_replace hcall rfl]
      exact .own hown.1.mem_claims rfl rfl
    | returned accepted =>
      rw [access_eq_replace hcall rfl]
      exact .idle rfl rfl

theorem Sound.act_claims (hs : t.Sound) (act : Act) :
    ((t.act act).claims = t.claims ∧ (t.act act).ring.written = t.ring.written) ∨
      ∃ number spurious, act = .access number spurious ∧
        (t.act act).ring.written = t.ring.written + 1 ∧
        (t.act act).claims = t.claims ++ [number] := by
  cases act with
  | access number spurious =>
    cases hs.accessed number spurious with
    | idle hring hclaims => exact Or.inl ⟨hclaims, congrArg Ring.written hring⟩
    | claim hwritten hclaims => exact Or.inr ⟨number, spurious, rfl, hwritten, hclaims⟩
    | own hmem hwritten hclaims => exact Or.inl ⟨hclaims, hwritten⟩
  | consume most =>
    refine Or.inl ?_
    simp only [Traffic.act]
    split <;> exact ⟨rfl, rfl⟩
  | proceed edit =>
    refine Or.inl ⟨rfl, (consume_step_written _).trans ?_⟩
    cases t.consumer with
    | delivering start len => exact (overwrite_sameFrame _ _ _).written
    | _ => rfl
  | panic =>
    refine Or.inl ?_
    simp only [Traffic.act]
    split
    · cases t.consumer <;> exact ⟨rfl, rfl⟩
    · exact ⟨rfl, rfl⟩
  | _ => exact Or.inl ⟨rfl, rfl⟩

theorem Sound.claims_prefix_act (hs : t.Sound) (act : Act) : t.claims <+: (t.act act).claims := by
  rcases hs.act_claims act with ⟨hclaims, -⟩ | ⟨number, -, -, -, hclaims⟩
  · exact hclaims ▸ List.prefix_refl _
  · exact hclaims ▸ List.prefix_append _ _

theorem Sound.claims_prefix_run (hs : t.Sound) (acts : List Act) :
    t.claims <+: (t.run acts).claims := by
  induction acts generalizing t with
  | nil => exact List.prefix_refl _
  | cons act acts ih => exact (hs.claims_prefix_act act).trans (ih (hs.act act))

/-! ## Claims, seen in a run -/

/-- Somewhere in the run an access of the call with this number moves the write position on
from `p`. -/
def Claims (t : Traffic) (acts : List Act) (number p : Nat) : Prop :=
  ∃ before spurious after, acts = before ++ .access number spurious :: after ∧
    (t.run before).ring.written = p ∧
    ((t.run before).access number spurious).ring.written = p + 1

theorem run_concat (t : Traffic) (acts : List Act) (act : Act) :
    t.run (acts ++ [act]) = (t.run acts).act act := by
  rw [run, List.foldl_append]
  rfl

theorem claims_concat (t : Traffic) (acts : List Act) (act : Act) (number p : Nat) :
    t.Claims (acts ++ [act]) number p ↔ t.Claims acts number p ∨
      ∃ spurious, act = .access number spurious ∧ (t.run acts).ring.written = p ∧
        ((t.run acts).act act).ring.written = p + 1 := by
  constructor
  · rintro ⟨before, spurious, after, hsplit, hclaim⟩
    rcases List.eq_nil_or_concat after with rfl | ⟨rest, last, rfl⟩
    · obtain ⟨rfl, hact⟩ := List.append_inj' hsplit rfl
      obtain rfl := List.singleton_inj.1 hact
      exact Or.inr ⟨spurious, rfl, hclaim⟩
    · rw [List.concat_eq_append, ← List.cons_append, ← List.append_assoc] at hsplit
      obtain ⟨rfl, -⟩ := List.append_inj' hsplit rfl
      exact Or.inl ⟨before, spurious, rest, rfl, hclaim⟩
  · rintro (⟨before, spurious, after, rfl, hclaim⟩ | ⟨spurious, rfl, hclaim⟩)
    · exact ⟨before, spurious, after ++ [act], by simp, hclaim⟩
    · exact ⟨acts, spurious, [], rfl, hclaim⟩

theorem Sound.claims_iff (hs : t.Sound) (hnew : t.claims = []) (acts : List Act) (number p : Nat) :
    t.Claims acts number p ↔
      t.origin ≤ p ∧ (t.run acts).claims[p - t.origin]? = some number := by
  induction acts using List.reverseRecOn with
  | nil =>
    constructor
    · rintro ⟨before, spurious, after, hsplit, -⟩
      simp at hsplit
    · rintro ⟨-, hclaim⟩
      rw [Traffic.run, List.foldl_nil, hnew] at hclaim
      cases hclaim
  -- the claims go up to the write position, so the next claim is at the end of them
  | append_singleton acts act ih =>
    have hrun := hs.run acts
    have hlength := hrun.claims_length
    rw [run_origin] at hlength
    rw [claims_concat, ih, run_concat]
    rcases hrun.act_claims act with ⟨hclaims, hwritten⟩ | ⟨other, spurious, rfl, hwritten, hclaims⟩
    · rw [hclaims]
      refine or_iff_left ?_
      rintro ⟨spurious, -, rfl, hmoved⟩
      omega
    · rw [hclaims, List.getElem?_append]
      split
      · refine or_iff_left ?_
        rintro ⟨spurious', -, rfl, -⟩
        omega
      · rename_i hnext
        constructor
        · rintro (⟨-, hclaim⟩ | ⟨spurious', hact, rfl, -⟩)
          · exact absurd (List.getElem?_eq_some_iff.1 hclaim).1 hnext
          · cases hact
            refine ⟨by omega, ?_⟩
            rw [show (t.run acts).ring.written - t.origin - (t.run acts).claims.length = 0 by omega]
            rfl
        · rintro ⟨horigin, hclaim⟩
          obtain ⟨hi, hget⟩ := List.getElem?_eq_some_iff.1 hclaim
          rw [List.length_singleton] at hi
          obtain rfl : other = number := by simpa using hget
          exact Or.inr ⟨spurious, rfl, by omega, by omega⟩

/-! ## Rejections -/

/-- The position that a call goes by is not ahead of the write position, so a call that finds no
room finds the ring full. -/
theorem Sound.outstanding_of_full (hs : t.Sound) (hcall : t.calls[number]? = some call)
    (hphase : call.phase = .loaded p) (hfull : Write.full t.ring p = true) :
    t.ring.outstanding = t.ring.capacity := by
  have hown := hs.calls number call hcall
  simp only [CallSound, hphase] at hown
  have hroom : t.ring.capacity ≤ p - t.ring.consumed := of_decide_eq_true hfull
  have hpos := hs.shaped.capacity_pos
  have hwritten := hs.written_le
  unfold Ring.outstanding
  omega

/-- A call is turned away by an access of its own, at which the ring is full. -/
theorem Sound.rejected_act (hs : t.Sound) (act : Act)
    (hcall : (t.act act).calls[number]? = some call) (hphase : call.phase = .returned false) :
    t.calls[number]? = some call ∨ ∃ call', t.calls[number]? = some call' ∧
      (∀ accepted, call'.phase ≠ .returned accepted) ∧ t.ring.outstanding = t.ring.capacity := by
  cases act with
  | call value tag =>
    rw [Traffic.act, List.getElem?_append] at hcall
    split at hcall
    · exact Or.inl hcall
    · have hnew : call = { value := value, tag := tag } := by
        obtain ⟨hi, hget⟩ := List.getElem?_eq_some_iff.1 hcall
        simpa using hget.symm
      rw [hnew] at hphase
      cases hphase
  | access other spurious =>
    rw [Traffic.act, Traffic.access] at hcall
    cases hother : t.calls[other]? with
    | none =>
      rw [hother] at hcall
      exact Or.inl hcall
    | some before =>
      simp only [hother] at hcall
      by_cases hne : other = number
      · subst hne
        have hlt := (List.getElem?_eq_some_iff.1 hother).1
        rw [List.getElem?_set_self hlt, Option.some.injEq] at hcall
        obtain ⟨value, tag, phase, ticks⟩ := before
        -- only a call that has just loaded the write position can be turned away
        cases phase with
        | loaded q =>
          by_cases hfull : Write.full t.ring q = true
          · exact Or.inr ⟨_, hother, by simp, hs.outstanding_of_full hother rfl hfull⟩
          · rw [← hcall] at hphase
            simp only [WriteCall.step, Write.step, hfull, Bool.false_eq_true, if_false,
              WriteCall.moved] at hphase
            cases hphase
        | room q =>
          rw [← hcall] at hphase
          simp only [WriteCall.step, Write.step, WriteCall.moved] at hphase
          split at hphase <;> cases hphase
        | returned accepted =>
          refine Or.inl ?_
          rw [hother, ← hcall]
          rfl
        | _ =>
          rw [← hcall] at hphase
          cases hphase
      · rw [List.getElem?_set_ne hne] at hcall
        exact Or.inl hcall
  | consume most =>
    simp only [Traffic.act] at hcall
    split at hcall <;> exact Or.inl hcall
  | panic =>
    simp only [Traffic.act] at hcall
    split at hcall <;> exact Or.inl hcall
  | _ => exact Or.inl hcall

theorem Sound.exists_full (hs : t.Sound) (hnew : t.calls = []) (acts : List Act)
    (hcall : (t.run acts).calls[number]? = some call) (hphase : call.phase = .returned false) :
    ∃ before after call', acts = before ++ after ∧ (t.run before).calls[number]? = some call' ∧
      (∀ accepted, call'.phase ≠ .returned accepted) ∧
      (t.run before).ring.outstanding = (t.run before).ring.capacity := by
  induction acts using List.reverseRecOn with
  | nil =>
    rw [Traffic.run, List.foldl_nil, hnew] at hcall
    cases hcall
  | append_singleton acts act ih =>
    rw [run_concat] at hcall
    rcases (hs.run acts).rejected_act act hcall hphase with hbefore | ⟨call', hopen⟩
    · obtain ⟨before, after, call', rfl, hfull⟩ := ih hbefore
      exact ⟨before, after ++ [act], call', List.append_assoc _ _ _, hfull⟩
    · exact ⟨acts, [act], call', rfl, hopen⟩

theorem Sound.untouched (hs : t.Sound) {before after : List Act}
    (hfresh : number ∉ (t.run (before ++ .access number spurious :: after)).claims) :
    ((t.run before).access number spurious).ring = (t.run before).ring := by
  have hbefore := hs.run before
  have hsplit : t.run (before ++ .access number spurious :: after) =
      ((t.run before).access number spurious).run after := by
    rw [Traffic.run, List.foldl_append]
    rfl
  have hkept := ((hbefore.access number spurious).claims_prefix_run after).subset
  rw [← hsplit] at hkept
  cases hbefore.accessed number spurious with
  | idle hring hclaims => exact hring
  | claim hwritten hclaims =>
    refine absurd (hkept ?_) hfresh
    rw [hclaims]
    exact List.mem_append_right _ (List.mem_singleton_self _)
  | own hmem hwritten hclaims =>
    refine absurd (hkept ?_) hfresh
    rw [hclaims]
    exact hmem

/-- The cursors are never further apart than there are slots, an accepted write has one position to
itself, and a write that is turned away has changed nothing and has seen the ring full: at some
moment between its start and its return as many positions were taken as there are slots. -/
theorem admission_exact (requested : Nat) (clock : Clock) (acts : List Act) :
    let start := ofRing (Ring.ofCapacity requested clock)
    let t := start.run acts
    (t.ring.capacity = roundedCapacity requested ∧ t.ring.consumed ≤ t.ring.written ∧
      t.ring.written ≤ t.ring.consumed + t.ring.capacity ∧
      ∀ most first, t.consumer = .positioned most first → first ≤ t.ring.written) ∧
    (∀ number call, t.calls[number]? = some call → call.phase = .returned true →
      ∃ p, start.Claims acts number p ∧
        ∀ other q, start.Claims acts other q → (other = number ↔ q = p)) ∧
    (∀ number call, t.calls[number]? = some call → call.phase = .returned false →
      (∀ p, ¬ start.Claims acts number p) ∧
      (∀ before spurious after, acts = before ++ .access number spurious :: after →
        ((start.run before).access number spurious).ring = (start.run before).ring) ∧
      ∃ before after call', acts = before ++ after ∧
        (start.run before).calls[number]? = some call' ∧
        (∀ accepted, call'.phase ≠ .returned accepted) ∧
        (start.run before).ring.outstanding = roundedCapacity requested) := by
  intro start t
  have hstart : start.Sound := ofRing_sound (startingAt_fresh requested 0 clock)
  have hs : t.Sound := hstart.run acts
  have hclaims : ∀ number p, start.Claims acts number p ↔ t.claims[p]? = some number := by
    intro number p
    rw [hstart.claims_iff rfl]
    exact and_iff_right (Nat.zero_le p)
  have hcapacity : ∀ acts, (start.run acts).ring.capacity = roundedCapacity requested := fun acts =>
    (run_capacity start acts).trans (ofCapacity_capacity requested clock)
  refine ⟨⟨hcapacity acts, t.consumed_le_reached.trans hs.reached_le, hs.written_le, ?_⟩, ?_, ?_⟩
  · intro most first hpositioned
    have hconsumer := hs.consumer
    rw [hpositioned] at hconsumer
    exact hconsumer.le_written
  · intro number call hcall hphase
    have hown := hs.calls number call hcall
    simp only [CallSound, hphase] at hown
    obtain ⟨p, hp, hclaim⟩ := List.getElem_of_mem hown.1
    have hclaim' : t.claims[p]? = some number := by rw [List.getElem?_eq_getElem hp, hclaim]
    refine ⟨p, (hclaims number p).2 hclaim', fun other q hother => ?_⟩
    rw [hclaims] at hother
    constructor
    · rintro rfl
      exact ((List.getElem?_inj hp hs.claims_nodup).1 (hclaim'.trans hother.symm)).symm
    · rintro rfl
      exact Option.some.inj (hother.symm.trans hclaim')
  · intro number call hcall hphase
    have hfresh : number ∉ t.claims := by
      have hown := hs.calls number call hcall
      simpa only [CallSound, hphase] using hown
    refine ⟨fun p hclaim => ?_, fun before spurious after hsplit => ?_, ?_⟩
    · exact hfresh (List.mem_of_getElem? ((hclaims number p).1 hclaim))
    · subst hsplit
      exact hstart.untouched hfresh
    · obtain ⟨before, after, call', hsplit, hopen, hunfinished, hfull⟩ :=
        hstart.exists_full rfl acts hcall hphase
      exact ⟨before, after, call', hsplit, hopen, hunfinished, hfull.trans (hcapacity before)⟩

def overtaken : List Act :=
  let write (number count : Nat) := List.replicate count (Act.access number false)
  [.call 10 1, .call 20 2, .call 30 3] ++ write 2 1 ++ write 0 6 ++ write 1 6 ++ write 2 3

theorem admission_exact_overtaken :
    let start := ofRing (Ring.ofCapacity 2 {})
    let t := start.run overtaken
    t.calls.map WriteCall.phase = [.returned true, .returned true, .returned false] ∧
    (∃ p, start.Claims overtaken 1 p ∧
      ∀ other q, start.Claims overtaken other q → (other = 1 ↔ q = p)) ∧
    ∃ before after call', overtaken = before ++ after ∧
      (start.run before).calls[2]? = some call' ∧ (∀ accepted, call'.phase ≠ .returned accepted) ∧
      (start.run before).ring.outstanding = roundedCapacity 2 := by
  intro start t
  have hphases : t.calls.map WriteCall.phase =
      [.returned true, .returned true, .returned false] := by decide +kernel
  have hphase : ∀ (number : Nat) (phase : Write),
      (t.calls.map WriteCall.phase)[number]? = some phase →
      ∃ call, t.calls[number]? = some call ∧ call.phase = phase := by
    intro number phase h
    rwa [List.getElem?_map, Option.map_eq_some_iff] at h
  obtain ⟨second, hsecond, haccepted⟩ := hphase 1 (.returned true) (by rw [hphases]; rfl)
  obtain ⟨third, hthird, hrejected⟩ := hphase 2 (.returned false) (by rw [hphases]; rfl)
  obtain ⟨-, htrue, hfalse⟩ := admission_exact 2 {} overtaken
  exact ⟨hphases, htrue 1 second hsecond haccepted, (hfalse 2 third hthird hrejected).2.2⟩

end MetricReporting.Ring.Traffic
