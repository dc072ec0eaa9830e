import MetricReporting.Proofs.Ring.Consumption
import MetricReporting.Proofs.Ring.Crowd.Moves
import MetricReporting.Proofs.Ring.Exclusion
import Mathlib.Data.Nat.Find

/-!
# Published and waiting

A published position waits until a callback returns that has it in its chunk. While it waits its
fence stays raised, and only a callback stores into its slot. So the raised fences at the consume
position are those of the published positions there, and no entry is handed out twice.
-/
namespace MetricReporting.Ring

namespace Consume

/-- The position is in the chunk that the callback has. -/
def shows : Consume → Nat → Bool
  | delivering start len, p => decide (start ≤ p) && decide (p < start + len)
  | _, _ => false

/-- The callback has returned from a chunk with this position, and the chunk is being released. -/
def Releases : Consume → Nat → Prop
  | blanking start len _, p | lowering start len _, p | advancing start len, p =>
      start ≤ p ∧ p < start + len
  | _, _ => False

/-- What is scanned or shown does not cross the end of the array. -/
def Contiguous (ring : Ring) : Consume → Prop
  | scanning start limit _ => ring.index start + limit ≤ ring.capacity
  | delivering start len => ring.index start + len ≤ ring.capacity
  | _ => True

variable {ring ring' : Ring} {consume consume' : Consume} {p : Nat}

theorem shows_iff : consume.shows p = true ↔
    ∃ start len, consume = delivering start len ∧ start ≤ p ∧ p < start + len := by
  cases consume with
  | delivering start len =>
    simp only [shows, Bool.and_eq_true, decide_eq_true_eq]
    exact ⟨fun h => ⟨start, len, rfl, h⟩, fun ⟨_, _, h, hp⟩ => by cases h; exact hp⟩
  | _ => exact ⟨nofun, fun ⟨_, _, h, _⟩ => nomatch h⟩

theorem Releases.isInside (h : consume.Releases p) : consume.isInside = true := by
  cases consume with
  | blanking | lowering | advancing => rfl
  | _ => cases h

theorem Stepped.guarded (h : Stepped ring consume ring' consume')
    (hguarded : ring'.guarded = true) :
    consume'.isInside = true ∨ ring.guarded = true ∧ consume.isInside = false := by
  cases h with
  | turnedAway | rested => exact Or.inr ⟨hguarded, rfl⟩
  | left => cases hguarded
  | _ => exact Or.inl rfl

theorem Stepped.releases (h : Stepped ring consume ring' consume')
    (hreleases : consume'.Releases p) :
    consume.Releases p ∨ consume.shows p = true := by
  cases h with
  | handed => exact Or.inr (shows_iff.2 ⟨_, _, rfl, hreleases⟩)
  | blanked | allBlank | lowered | allLow => exact Or.inl hreleases
  | _ => cases hreleases

section Start

variable (hstart : ∀ start len, consume = advancing start len → start = ring.consumed)
include hstart

/-- The consume position passes those positions whose chunk was being released, and no others. -/
theorem Stepped.lt_consumed (h : Stepped ring consume ring' consume') (hp : p < ring'.consumed) :
    p < ring.consumed ∨ consume.Releases p := by
  cases h with
  | advanced =>
    rename_i start len
    have := hstart start len rfl
    by_cases hold : p < ring.consumed
    · exact Or.inl hold
    · exact Or.inr ⟨by omega, this ▸ hp⟩
  | _ => exact Or.inl hp

theorem Releases.stepped (hreleases : consume.Releases p)
    (h : Stepped ring consume ring' consume') : consume'.Releases p ∨ p < ring'.consumed := by
  cases h with
  | blanked | allBlank | lowered | allLow => exact Or.inl hreleases
  | advanced => exact Or.inr (hstart _ _ rfl ▸ hreleases.2)
  | _ => cases hreleases

end Start

theorem Contiguous.congr (h : consume.Contiguous ring)
    (hcapacity : ring'.capacity = ring.capacity) :
    consume.Contiguous ring' := by
  cases consume with
  | scanning start limit len =>
    show start % ring'.capacity + limit ≤ ring'.capacity
    rw [hcapacity]
    exact h
  | delivering start len =>
    show start % ring'.capacity + len ≤ ring'.capacity
    rw [hcapacity]
    exact h
  | _ => trivial

theorem Contiguous.stepped (hin : consume.Contiguous ring) (hpos : 0 < ring.capacity)
    (hlimit : ∀ start limit len, consume = scanning start limit len → len ≤ limit)
    (h : Stepped ring consume ring' consume') : consume'.Contiguous ring' := by
  cases h with
  | limited =>
    rename_i most start
    have hlt : ring.index start < ring.capacity := Nat.mod_lt _ hpos
    show ring.index start + reach ring most start ≤ ring.capacity
    unfold reach
    omega
  | found => exact hin
  | calledBack hsome =>
    rename_i start limit len
    have hle := hlimit start limit len rfl
    have hspan : ring.index start + limit ≤ ring.capacity := hin
    show ring.index start + len ≤ ring.capacity
    omega
  | _ => trivial

end Consume

namespace Crowd

/-- A callback has returned that had this position in its chunk. -/
def Taken (c : Crowd) (p : Nat) : Prop :=
  p < c.ring.consumed ∨
    ∃ (place : Nat) (consume : Consume), c.consumes[place]? = some consume ∧ consume.Releases p

structure Waiting (c : Crowd) (p : Nat) : Prop where
  published : c.Published p
  not_taken : ¬ c.Taken p

def delivers (c : Crowd) (act : Act) (p : Nat) : Bool :=
  match act with
  | .proceed place => (c.consumes[place]?).any fun consume => consume.shows p
  | _ => false

def deliveries (c : Crowd) : List Act → Nat → Nat
  | [], _ => 0
  | act :: acts, p => (c.delivers act p).toNat + (c.act act).deliveries acts p

/-- The act stores an entry into the slot of this position, which a callback has. -/
def stores? (c : Crowd) (act : Act) (p : Nat) : Option Entry :=
  match act with
  | .edit place offset entry =>
      match c.consumes[place]? with
      | some (.delivering start len) =>
          if offset < len ∧ start + offset = p then some entry else none
      | _ => none
  | _ => none

/-- The entry in the slot of this position when the callbacks of a run have stored into it, which
held this entry before. -/
def stored (c : Crowd) : List Act → Nat → Entry → Entry
  | [], _, entry => entry
  | act :: acts, p, entry => (c.act act).stored acts p ((c.stores? act p).getD entry)

/-- Somebody is past a guard that is taken, a fence stays raised until a callback has returned from
its position, and no chunk crosses the end of the array. -/
structure Tidy (c : Crowd) : Prop where
  sound : c.Sound
  guard : c.ring.guarded = true → ∃ place, c.Inside place
  raised : ∀ p, c.Waiting p → c.ring.fenceAt p ≠ 0
  contiguous : ∀ (place : Nat) (consume : Consume), c.consumes[place]? = some consume →
    consume.Contiguous c.ring

variable {c : Crowd} {a : Act} {place p : Nat} {consume : Consume}

/-! ## Publications -/

theorem Published.access (h : c.Published p) (number : Nat) (spurious : Bool) :
    (c.access number spurious).Published p := by
  unfold Crowd.access
  split
  · exact h
  · rename_i call hcall
    refine h.mono ?_ fun other settled hsettled hphase => ?_
    · show c.claims <+: if _ then _ else _
      split
      · exact List.prefix_append _ _
      · exact List.prefix_refl _
    · show (c.calls.set number _)[other]? = _
      by_cases hne : number = other
      · subst hne
        obtain rfl : call = settled := Option.some.inj (hcall.symm.trans hsettled)
        rw [List.getElem?_set_self (List.getElem?_eq_some_iff.1 hcall).1]
        obtain ⟨value, tag, phase, ticks⟩ := call
        obtain rfl : phase = .returned true := hphase
        rfl
      · rw [List.getElem?_set_ne hne]
        exact hsettled

theorem Published.act (h : c.Published p) (a : Act) : (c.act a).Published p := by
  cases c.written_act a with
  | begun value tag ha =>
    subst ha
    exact h.mono (List.prefix_refl _) fun number call hcall _ =>
      Traffic.getElem?_of_prefix (List.prefix_append _ _) hcall
  | accessed number spurious ha =>
    subst ha
    exact h.access number spurious
  | aside hcalls hclaims =>
    exact h.mono (hclaims ▸ List.prefix_refl _) fun number call hcall _ => hcalls ▸ hcall

theorem Sound.published_access (hs : c.Sound) {number : Nat} {spurious : Bool}
    (h : (c.access number spurious).Published p) :
    c.Published p ∨ (c.access number spurious).ring.fenceAt p ≠ 0 := by
  obtain ⟨other, call, hclaim, hcall, hphase⟩ := h
  cases hwriter : c.calls[number]? with
  | none =>
    simp only [Crowd.access, hwriter] at hclaim hcall
    exact Or.inl ⟨other, call, hclaim, hcall, hphase⟩
  | some writer =>
    simp only [Crowd.access, hwriter] at hclaim hcall ⊢
    by_cases hne : number = other
    · subst hne
      have hheld : ∀ q, writer.phase.holding? = some q → c.Holds number q :=
        fun q => (hs.calls number writer hwriter).holds
      rw [List.getElem?_set_self (List.getElem?_eq_some_iff.1 hwriter).1,
        Option.some.injEq] at hcall
      subst hcall
      obtain ⟨value, tag, phase, ticks⟩ := writer
      cases phase with
      | stored q shown =>
        obtain rfl : p = q := (List.getElem?_inj (List.getElem?_eq_some_iff.1 hclaim).1
          hs.claims_nodup).1 (hclaim.trans (hheld q rfl).claimant.symm)
        exact Or.inr ((hs.shaped.fenceAt_setFence p _).trans_ne (raisedFence_ne_zero shown))
      | returned accepted => exact Or.inl ⟨number, _, hclaim, hwriter, hphase⟩
      | loaded q =>
        simp only [WriteCall.step, Write.step, WriteCall.moved] at hphase
        split at hphase <;> cases hphase
      | room q =>
        simp only [WriteCall.step, Write.step, WriteCall.moved] at hphase
        split at hphase <;> cases hphase
      | _ => cases hphase
    · rw [List.getElem?_set_ne hne] at hcall
      refine Or.inl ⟨other, call, ?_, hcall, hphase⟩
      split at hclaim
      · by_cases hlt : p < c.claims.length
        · rwa [List.getElem?_append_left hlt] at hclaim
        · rw [List.getElem?_append_right (Nat.le_of_not_lt hlt)] at hclaim
          exact absurd (List.mem_singleton.1 (List.mem_of_getElem? hclaim)).symm hne
      · exact hclaim

theorem Sound.published_act (hs : c.Sound) (h : (c.act a).Published p) :
    c.Published p ∨ (c.act a).ring.fenceAt p ≠ 0 := by
  cases c.written_act a with
  | begun value tag ha =>
    subst ha
    obtain ⟨number, call, hclaim, hcall, hphase⟩ := h
    refine Or.inl ⟨number, call, hclaim, ?_, hphase⟩
    have hlt := hs.lt_length_of_mem_claims (List.mem_of_getElem? hclaim)
    rwa [Crowd.act, List.getElem?_append_left hlt] at hcall
  | accessed number spurious ha =>
    subst ha
    exact hs.published_access h
  | aside hcalls hclaims =>
    obtain ⟨number, call, hclaim, hcall, hphase⟩ := h
    exact Or.inl ⟨number, call, hclaims ▸ hclaim, hcalls ▸ hcall, hphase⟩

/-! ## Positions taken -/

theorem Sound.advancing_start (hs : c.Sound) (hat : c.consumes[place]? = some consume)
    (start len : Nat)
    (h : consume = .advancing start len) : start = c.ring.consumed := by
  subst h
  exact Chunk.start_eq (hs.consumes place _ hat)

theorem Taken.act (h : c.Taken p) (hs : c.Sound) (a : Act) : (c.act a).Taken p := by
  cases c.moved_act a with
  | stepped place consume consume' ring' ha hat hstep hc' =>
    rw [hc']
    rcases h with hpassed | ⟨other, releasing, hother, hreleases⟩
    · exact Or.inl (hpassed.trans_le hstep.consumed_le)
    · by_cases hne : other = place
      · subst hne
        obtain rfl : consume = releasing := Option.some.inj (hat.symm.trans hother)
        rcases hreleases.stepped (hs.advancing_start hat) hstep with hstill | hpassed
        · exact Or.inr ⟨other, consume', enter_consumes_self hat ring' consume', hstill⟩
        · exact Or.inl hpassed
      · exact Or.inr ⟨other, releasing, (enter_consumes_of_ne hne _ _).trans hother, hreleases⟩
  | panicked place start len ha hat hc' =>
    rw [hc']
    rcases h with hpassed | ⟨other, releasing, hother, hreleases⟩
    · exact Or.inl hpassed
    · have hne : other ≠ place := by
        rintro rfl
        rw [Option.some.inj (hother.symm.trans hat)] at hreleases
        cases hreleases
      exact Or.inr ⟨other, releasing, (enter_consumes_of_ne hne _ _).trans hother, hreleases⟩
  | aside hconsumed hguarded hkeep hnew =>
    rcases h with hpassed | ⟨other, releasing, hother, hreleases⟩
    · exact Or.inl (hconsumed ▸ hpassed)
    · exact Or.inr ⟨other, releasing, hkeep other releasing hother, hreleases⟩

theorem delivers_proceed (hat : c.consumes[place]? = some consume) (p : Nat) :
    c.delivers (.proceed place) p = consume.shows p := by
  simp only [delivers, hat, Option.any_some]

theorem Sound.taken_act (hs : c.Sound) (h : (c.act a).Taken p) :
    c.Taken p ∨ c.delivers a p = true := by
  cases c.moved_act a with
  | stepped place consume consume' ring' ha hat hstep hc' =>
    subst ha
    rw [hc'] at h
    rw [delivers_proceed hat]
    rcases h with hpassed | ⟨other, releasing, hother, hreleases⟩
    · rcases hstep.lt_consumed (hs.advancing_start hat) hpassed with hold | hreleased
      · exact Or.inl (Or.inl hold)
      · exact Or.inl (Or.inr ⟨place, consume, hat, hreleased⟩)
    · by_cases hne : other = place
      · subst hne
        rw [enter_consumes_self hat, Option.some.injEq] at hother
        subst hother
        exact (hstep.releases hreleases).imp_left fun hreleased =>
          Or.inr ⟨other, consume, hat, hreleased⟩
      · rw [enter_consumes_of_ne hne] at hother
        exact Or.inl (Or.inr ⟨other, releasing, hother, hreleases⟩)
  | panicked place start len ha hat hc' =>
    rw [hc'] at h
    rcases h with hpassed | ⟨other, releasing, hother, hreleases⟩
    · exact Or.inl (Or.inl hpassed)
    · by_cases hne : other = place
      · subst hne
        rw [enter_consumes_self hat, Option.some.injEq] at hother
        subst hother
        cases hreleases
      · rw [enter_consumes_of_ne hne] at hother
        exact Or.inl (Or.inr ⟨other, releasing, hother, hreleases⟩)
  | aside hconsumed hguarded hkeep hnew =>
    rcases h with hpassed | ⟨other, releasing, hother, hreleases⟩
    · exact Or.inl (Or.inl (hconsumed ▸ hpassed))
    · rcases hnew other releasing hother with hold | ⟨most, rfl⟩
      · exact Or.inl (Or.inr ⟨other, releasing, hold, hreleases⟩)
      · cases hreleases

theorem delivers_iff : c.delivers a p = true ↔ ∃ place start len, a = .proceed place ∧
    c.consumes[place]? = some (.delivering start len) ∧ start ≤ p ∧ p < start + len := by
  refine ⟨fun h => ?_, fun ⟨place, start, len, ha, hat, hp⟩ => ?_⟩
  · cases a with
    | proceed place =>
      obtain ⟨consume, hat, hshows⟩ := (Option.any_eq_true _ _).1 h
      obtain ⟨start, len, rfl, hp⟩ := Consume.shows_iff.1 hshows
      exact ⟨place, start, len, rfl, hat, hp⟩
    | _ => cases h
  · subst ha
    rw [delivers_proceed hat]
    exact Consume.shows_iff.2 ⟨start, len, rfl, hp⟩

theorem taken_of_delivers (h : c.delivers a p = true) : (c.act a).Taken p := by
  obtain ⟨place, start, len, rfl, hat, hp⟩ := delivers_iff.1 h
  refine Or.inr ⟨place, .blanking start len 0, ?_, hp⟩
  rw [Crowd.act, proceed_eq hat]
  exact enter_consumes_self hat _ _

theorem Sound.not_delivers (hs : c.Sound) (h : c.Taken p) : c.delivers a p = false := by
  by_contra hcon
  obtain ⟨place, start, len, -, hat, hle, hlt⟩ := delivers_iff.1 (Bool.not_eq_false _ ▸ hcon)
  rcases h with hpassed | ⟨other, releasing, hother, hreleases⟩
  · have := Chunk.start_eq (hs.consumes place _ hat)
    omega
  · obtain rfl := hs.alone place other ⟨_, hat, rfl⟩ ⟨_, hother, hreleases.isInside⟩
    rw [← Option.some.inj (hat.symm.trans hother)] at hreleases
    cases hreleases

/-! ## While a position waits -/

theorem Waiting.consumed_le (h : c.Waiting p) : c.ring.consumed ≤ p :=
  Nat.le_of_not_lt fun hlt => h.not_taken (Or.inl hlt)

theorem Waiting.act (h : c.Waiting p) (hs : c.Sound) (hnot : c.delivers a p = false) :
    (c.act a).Waiting p :=
  ⟨h.published.act a, fun htaken => (hs.taken_act htaken).elim h.not_taken fun hdelivers => by
    rw [hnot] at hdelivers
    cases hdelivers⟩

theorem slot_eq_of_not_changed {ring ring' : Ring} (hcapacity : ring'.capacity = ring.capacity)
    (h : ¬ Changed ring ring' (ring.index p)) :
    ring'.entryAt p = ring.entryAt p ∧ ring'.fenceAt p = ring.fenceAt p := by
  obtain ⟨hslots, hfences⟩ := not_or.1 h
  have hindex : ring'.index p = ring.index p := by rw [index, index, hcapacity]
  rw [entryAt, entryAt, fenceAt, fenceAt, hindex, Array.getD_eq_getD_getElem?,
    Array.getD_eq_getD_getElem?, Array.getD_eq_getD_getElem?, Array.getD_eq_getD_getElem?,
    not_not.1 hslots, not_not.1 hfences]
  exact ⟨rfl, rfl⟩

theorem Waiting.touches (h : c.Waiting p) (hs : c.Sound)
    (hchanged : Changed c.ring (c.act a).ring (c.ring.index p)) :
    ∃ place, c.Touches place p ∧
      (a = .proceed place ∨ ∃ offset entry, a = .edit place offset entry) := by
  rcases changed_act hchanged with ⟨number, spurious, q, -, hstores, hindex⟩ |
    ⟨place, q, ha, htouches, hindex⟩
  · exact absurd hindex (hs.owned_not_published hstores.owns h.consumed_le h.published)
  · obtain ⟨hle, hpublished⟩ := (htouches.inChunk hs).1.published hs
    obtain rfl := hs.eq_of_index_eq hle (hpublished.lt_written hs) h.consumed_le
      (h.published.lt_written hs) hindex
    exact ⟨place, htouches, ha⟩

theorem Waiting.not_touches (h : c.Waiting p) (hnot : c.delivers (.proceed place) p = false) :
    ¬ c.Touches place p := by
  rintro ⟨consume, hat, htouches⟩
  rw [delivers_proceed hat] at hnot
  have hreleases : ¬ consume.Releases p := fun hreleases =>
    h.not_taken (Or.inr ⟨place, consume, hat, hreleases⟩)
  cases consume with
  | delivering start len =>
    rw [Consume.shows_iff.2 ⟨start, len, rfl, htouches⟩] at hnot
    cases hnot
  | blanking start len done =>
    obtain ⟨hlt, rfl⟩ := htouches
    exact hreleases ⟨Nat.le_add_right _ _, Nat.add_lt_add_left hlt _⟩
  | lowering start len done =>
    obtain ⟨hlt, rfl⟩ := htouches
    exact hreleases ⟨Nat.le_add_right _ _, Nat.add_lt_add_left hlt _⟩
  | _ => cases htouches

theorem Waiting.slot_edit (h : c.Waiting p) (hs : c.Sound) (place offset : Nat) (entry : Entry) :
    (c.edit place offset entry).ring.entryAt p =
        (c.stores? (.edit place offset entry) p).getD (c.ring.entryAt p) ∧
      (c.edit place offset entry).ring.fenceAt p = c.ring.fenceAt p := by
  cases hat : c.consumes[place]? with
  | none =>
    simp only [edit, stores?, hat, Option.getD_none, and_self]
  | some consume =>
    cases consume with
    | delivering start len =>
      simp only [edit, stores?, hat]
      by_cases hlt : offset < len
      · rw [if_pos hlt]
        refine ⟨?_, setEntry_fenceAt _ _ _ _⟩
        by_cases hself : start + offset = p
        · rw [if_pos ⟨hlt, hself⟩, Option.getD_some, ← hself]
          exact hs.shaped.entryAt_setEntry _ _
        · rw [if_neg fun hcon => hself hcon.2, Option.getD_none]
          refine entryAt_setEntry_of_ne (fun hindex => hself ?_) _
          obtain ⟨hle, hpublished⟩ := InChunk.published
            ⟨_, start, len, hat, rfl, Nat.le_add_right _ _, Nat.add_lt_add_left hlt _⟩ hs
          exact (hs.eq_of_index_eq h.consumed_le (h.published.lt_written hs) hle
            (hpublished.lt_written hs) hindex).symm
      · rw [if_neg hlt, if_neg fun hcon => hlt hcon.1]
        exact ⟨rfl, rfl⟩
    | _ => simp only [edit, stores?, hat, Option.getD_none, and_self]

theorem Waiting.slot (h : c.Waiting p) (hs : c.Sound) (hnot : c.delivers a p = false) :
    (c.act a).ring.entryAt p = (c.stores? a p).getD (c.ring.entryAt p) ∧
      (c.act a).ring.fenceAt p = c.ring.fenceAt p := by
  by_cases hedit : ∃ place offset entry, a = .edit place offset entry
  · obtain ⟨place, offset, entry, rfl⟩ := hedit
    exact h.slot_edit hs place offset entry
  · have hnone : c.stores? a p = none := by
      cases a with
      | edit place offset entry => exact absurd ⟨place, offset, entry, rfl⟩ hedit
      | _ => rfl
    rw [hnone, Option.getD_none]
    refine slot_eq_of_not_changed (act_capacity c a) fun hchanged => ?_
    obtain ⟨place, htouches, rfl | ⟨offset, entry, ha⟩⟩ := h.touches hs hchanged
    · exact h.not_touches hnot htouches
    · exact hedit ⟨place, offset, entry, ha⟩

/-! ## Runs -/

theorem Sound.deliveries_of_taken (hs : c.Sound) (h : c.Taken p) (acts : List Act) :
    (c.run acts).Taken p ∧ c.deliveries acts p = 0 := by
  induction acts generalizing c with
  | nil => exact ⟨h, rfl⟩
  | cons a acts ih =>
    obtain ⟨htaken, hnone⟩ := ih (hs.act a) (h.act hs a)
    exact ⟨htaken, by rw [deliveries, hs.not_delivers h, hnone]; rfl⟩

/-- A position that waits is handed out once and for all. Until then its fence stays as it is, and
its slot holds what the callbacks have left there. -/
theorem Waiting.run (h : c.Waiting p) (hs : c.Sound) (acts : List Act) :
    c.deliveries acts p = 0 ∧ (c.run acts).Waiting p ∧
        (c.run acts).ring.entryAt p = c.stored acts p (c.ring.entryAt p) ∧
        (c.run acts).ring.fenceAt p = c.ring.fenceAt p ∨
      c.deliveries acts p = 1 ∧ (c.run acts).Taken p := by
  induction acts generalizing c with
  | nil => exact Or.inl ⟨rfl, h, rfl, rfl⟩
  | cons a acts ih =>
    cases hdelivers : c.delivers a p with
    | true =>
      obtain ⟨htaken, hnone⟩ := (hs.act a).deliveries_of_taken (taken_of_delivers hdelivers) acts
      exact Or.inr ⟨by rw [deliveries, hdelivers, hnone]; rfl, htaken⟩
    | false =>
      obtain ⟨hentry, hfence⟩ := h.slot hs hdelivers
      have hcount : c.deliveries (a :: acts) p = (c.act a).deliveries acts p := by
        rw [deliveries, hdelivers, Bool.toNat_false, Nat.zero_add]
      rw [hcount, stored, ← hentry, ← hfence]
      exact ih (h.act hs hdelivers) (hs.act a)

/-! ## Between the two cursors -/

theorem Tidy.act (ht : c.Tidy) (a : Act) : (c.act a).Tidy := by
  refine ⟨ht.sound.act a, fun hguarded => ?_, fun p hp => ?_, fun place consume hat => ?_⟩
  · cases c.moved_act a with
    | stepped place consume consume' ring' ha hat hstep hc' =>
      rw [hc'] at hguarded ⊢
      rcases hstep.guarded hguarded with hin | ⟨hold, hout⟩
      · exact ⟨place, consume', enter_consumes_self hat ring' consume', hin⟩
      · obtain ⟨other, inside, hother, hin⟩ := ht.guard hold
        have hne : other ≠ place := by
          rintro rfl
          rw [← Option.some.inj (hat.symm.trans hother), hout] at hin
          cases hin
        exact ⟨other, inside, (enter_consumes_of_ne hne _ _).trans hother, hin⟩
    | panicked place start len ha hat hc' =>
      rw [hc'] at hguarded
      cases hguarded
    | aside hconsumed hsame hkeep hnew =>
      obtain ⟨other, inside, hother, hin⟩ := ht.guard (hsame ▸ hguarded)
      exact ⟨other, inside, hkeep other inside hother, hin⟩
  · have hnot : ¬ c.Taken p := fun htaken => hp.not_taken (htaken.act ht.sound a)
    rcases ht.sound.published_act hp.published with hpublished | hfence
    · have hdelivers : c.delivers a p = false := by
        by_contra hcon
        exact hp.not_taken (taken_of_delivers (Bool.not_eq_false _ ▸ hcon))
      have hwaiting : c.Waiting p := ⟨hpublished, hnot⟩
      rw [(hwaiting.slot ht.sound hdelivers).2]
      exact ht.raised p hwaiting
    · exact hfence
  · cases c.moved_act a with
    | stepped moving before after ring' ha hbefore hstep hc' =>
      rw [hc'] at hat ⊢
      by_cases hne : place = moving
      · subst hne
        rw [enter_consumes_self hbefore, Option.some.injEq] at hat
        subst hat
        refine (ht.contiguous place before hbefore).stepped ht.sound.shaped.capacity_pos ?_ hstep
        rintro start limit len rfl
        exact (ht.sound.consumes place _ hbefore).1
      · rw [enter_consumes_of_ne hne] at hat
        refine (ht.contiguous place consume hat).congr ?_
        have hcapacity := act_capacity c a
        rwa [hc'] at hcapacity
    | panicked moving start len ha hbefore hc' =>
      rw [hc'] at hat ⊢
      by_cases hne : place = moving
      · subst hne
        rw [enter_consumes_self hbefore, Option.some.injEq] at hat
        subst hat
        trivial
      · rw [enter_consumes_of_ne hne] at hat
        exact (ht.contiguous place consume hat).congr rfl
    | aside hconsumed hguarded hkeep hnew =>
      rcases hnew place consume hat with hold | ⟨most, rfl⟩
      · exact (ht.contiguous place consume hold).congr (act_capacity c a)
      · trivial

theorem Tidy.run (ht : c.Tidy) (acts : List Act) : (c.run acts).Tidy := by
  induction acts generalizing c with
  | nil => exact ht
  | cons a acts ih => exact ih (ht.act a)

theorem ofCapacity_tidy (requested : Nat) (clock : Clock) :
    Tidy { ring := Ring.ofCapacity requested clock } :=
  ⟨ofCapacity_sound requested clock, nofun, fun _ ⟨⟨_, _, hclaim, _⟩, _⟩ => (nomatch hclaim), nofun⟩

theorem waiting_iff (hidle : ∀ place, ¬ c.Inside place) :
    c.Waiting p ↔ c.ring.consumed ≤ p ∧ c.Published p := by
  refine ⟨fun h => ⟨h.consumed_le, h.published⟩, fun h => ⟨h.2, ?_⟩⟩
  rintro (hpassed | ⟨place, consume, hat, hreleases⟩)
  · exact absurd h.1 (Nat.not_le.2 hpassed)
  · exact hidle place ⟨consume, hat, hreleases.isInside⟩

/-- With nobody past the guard the raised fences are those of the published positions. -/
theorem Tidy.raised_iff (ht : c.Tidy) (hidle : ∀ place, ¬ c.Inside place)
    (hle : c.ring.consumed ≤ p)
    (hlt : p < c.ring.written) : c.ring.fenceAt p ≠ 0 ↔ c.Published p :=
  ⟨ht.sound.published_of_fence hlt, fun h => ht.raised p ((waiting_iff hidle).2 ⟨hle, h⟩)⟩

theorem Tidy.idle (ht : c.Tidy) (hidle : ∀ place, ¬ c.Inside place) : c.ring.Idle := by
  refine ⟨ht.sound.shaped, ?_, ht.sound.consumed_le, ht.sound.written_le⟩
  by_contra hcon
  obtain ⟨place, hinside⟩ := ht.guard (Bool.not_eq_false _ ▸ hcon)
  exact hidle place hinside

theorem Sound.exists_published_run (hs : c.Sound) :
    ∃ run, (∀ i < run, c.Published (c.ring.consumed + i)) ∧
      ¬ c.Published (c.ring.consumed + run) := by
  classical
  have hends : ∃ run, ¬ c.Published (c.ring.consumed + run) := by
    refine ⟨c.ring.written - c.ring.consumed, fun h => ?_⟩
    have := h.lt_written hs
    have := hs.consumed_le
    omega
  exact ⟨Nat.find hends, fun i hi => not_not.1 (Nat.find_min hends hi), Nat.find_spec hends⟩

/-- In every state of every run in which nobody is past the guard, whatever is claimed and not yet
published: a consume gets as far as the published positions go, the array, and the count asked for.
It calls back once with what is there, or not at all if that is nothing, and then releases just
this, whatever the callback has stored. Where all that is claimed is published, two consumes empty
the ring. -/
theorem consume_exact (requested : Nat) (clock : Clock) (acts : List Act)
    (hidle : ∀ place, ¬ (run { ring := Ring.ofCapacity requested clock } acts).Inside place) :
    let c := run { ring := Ring.ofCapacity requested clock } acts
    (∀ (edit : List Entry → List Entry) (most : Nat), ∃ run n ring',
      (∀ i < run, c.Published (c.ring.consumed + i)) ∧ ¬ c.Published (c.ring.consumed + run) ∧
      n = min (min most (c.ring.capacity - c.ring.consumed % c.ring.capacity)) run ∧
      c.ring.consumeEditing edit most =
        (if n = 0 then [] else [c.ring.chunk c.ring.consumed n], n, ring') ∧
      c.ring.Released n ring') ∧
    ((∀ p, c.ring.consumed ≤ p → p < c.ring.written → c.Published p) →
      ∀ (edit edit' : List Entry → List Entry) (most most' : Nat),
        c.ring.capacity ≤ most → c.ring.capacity ≤ most' →
        let first := c.ring.consumeEditing edit most
        let second := first.2.2.consumeEditing edit' most'
        first.1.flatten ++ second.1.flatten = c.ring.chunk c.ring.consumed c.ring.outstanding ∧
          second.2.2.consumed = c.ring.written ∧ second.2.2.written = c.ring.written) := by
  intro c
  have ht : c.Tidy := (ofCapacity_tidy requested clock).run acts
  have hring : c.ring.Idle := ht.idle hidle
  refine ⟨fun edit most => ?_, fun hall edit edit' most most' hmost hmost' => ?_⟩
  · obtain ⟨n, ring', hrun, hout, hreleased⟩ := hring.consumeEditing edit most
    obtain ⟨run, hpublished, hends⟩ := ht.sound.exists_published_run
    have hle : ∀ i < run, c.ring.consumed + i < c.ring.written :=
      fun i hi => (hpublished i hi).lt_written ht.sound
    have hrunle : run ≤ c.ring.written - c.ring.consumed := by
      have hconsumed : c.ring.consumed ≤ c.ring.written := ht.sound.consumed_le
      by_contra hcon
      have := hle (c.ring.written - c.ring.consumed) (by omega)
      omega
    have hn := hrun.eq_min run
      (fun i hi => (ht.raised_iff hidle (Nat.le_add_right _ _) (hle i hi)).2 (hpublished i hi))
      fun hlt => by
        by_contra hfence
        unfold Consume.reach at hlt
        exact hends ((ht.raised_iff hidle (Nat.le_add_right _ _) (by omega)).1 hfence)
    refine ⟨run, n, ring', hpublished, hends, ?_, hout, hreleased⟩
    unfold Consume.reach index at hn
    omega
  · exact hring.consumeEditing_twice
      (fun p hp hp' => (ht.raised_iff hidle hp hp').2 (hall p hp hp')) edit edit' hmost hmost'

/-- In the second round of a ring of four slots the third write is published, the fourth has only
claimed, and the fifth is published past it. -/
def heldBack : List Act :=
  let write (number count : Nat) := List.replicate count (Act.access number false)
  [.call 10 1, .call 20 2, .call 30 1, .call 40 2, .call 50 1] ++ write 0 6 ++ write 1 6 ++
    [.consume 5] ++ List.replicate 15 (.proceed 0) ++ write 2 6 ++ write 3 4 ++ write 4 6

theorem consume_exact_heldBack :
    let c := run { ring := Ring.ofCapacity 4 {} } heldBack
    (∀ place, ¬ c.Inside place) ∧ ¬ c.Published 3 ∧ c.Published 4 ∧
      ∃ ring', c.ring.consumeEditing List.reverse 5 = ([c.ring.chunk 2 1], 1, ring') ∧
        c.ring.Released 1 ring' := by
  have hconsumes : (run { ring := Ring.ofCapacity 4 {} } heldBack).consumes = [.returned 2] := by
    decide +kernel
  have hclaims : (run { ring := Ring.ofCapacity 4 {} } heldBack).claims = [0, 1, 2, 3, 4] := by
    decide +kernel
  have hphases : (run { ring := Ring.ofCapacity 4 {} } heldBack).calls.map WriteCall.phase =
      [.returned true, .returned true, .returned true, .stamped 3 4, .returned true] := by
    decide +kernel
  have hcursor : (run { ring := Ring.ofCapacity 4 {} } heldBack).ring.consumed = 2 ∧
      (run { ring := Ring.ofCapacity 4 {} } heldBack).ring.capacity = 4 := by
    decide +kernel
  have hexact := consume_exact 4 {} heldBack
  dsimp only at hexact ⊢
  generalize run { ring := Ring.ofCapacity 4 {} } heldBack = c at *
  have hidle : ∀ place, ¬ c.Inside place := by
    rintro place ⟨consume, hat, hin⟩
    rw [hconsumes] at hat
    rw [List.mem_singleton.1 (List.mem_of_getElem? hat)] at hin
    cases hin
  have hpublished : ∀ p, c.Published p ↔
      ∃ number, c.claims[p]? = some number ∧ (c.calls.map WriteCall.phase)[number]? =
        some (.returned true) := by
    intro p
    simp only [List.getElem?_map, Option.map_eq_some_iff]
    exact ⟨fun ⟨n, call, hn, hcall, hphase⟩ => ⟨n, hn, call, hcall, hphase⟩,
      fun ⟨n, hn, call, hcall, hphase⟩ => ⟨n, call, hn, hcall, hphase⟩⟩
  simp only [hclaims, hphases] at hpublished
  have hthird : c.Published 2 := (hpublished 2).2 ⟨2, rfl, rfl⟩
  have hfourth : ¬ c.Published 3 := fun h => by
    obtain ⟨number, hnumber, hphase⟩ := (hpublished 3).1 h
    cases hnumber
    cases hphase
  obtain ⟨run, n, ring', hrun, hends, hn, hout, hreleased⟩ := (hexact hidle).1 List.reverse 5
  rw [hcursor.1] at hrun hends hn hout
  obtain rfl : run = 1 := by
    by_contra hne
    rcases Nat.lt_or_ge run 1 with hlt | hge
    · obtain rfl : run = 0 := by omega
      exact hends hthird
    · exact hfourth (hrun 1 (by omega))
  rw [hcursor.2] at hn
  obtain rfl : n = 1 := hn
  exact ⟨hidle, hfourth, (hpublished 4).2 ⟨4, rfl, rfl⟩, ring', hout, hreleased⟩

end Crowd

end MetricReporting.Ring
