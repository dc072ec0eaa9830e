import MetricReporting.Proofs.Ring.Admission
import MetricReporting.Proofs.Ring.Crowd.Consumers

/-!
# What an act can do in a crowd

Every access of a consume is one of a few steps, and every act moves one consume, or one write, or
nobody who has begun. The capacity stays what it is.
-/
namespace MetricReporting.Ring

namespace Consume

inductive Stepped (ring : Ring) : Consume → Ring → Consume → Prop
  | turnedAway {most : Nat} : Stepped ring (starting most) ring (returned 0)
  | entered {most : Nat} : ring.guarded = false →
      Stepped ring (starting most) { ring with guarded := true } (guarding most)
  | placed {most : Nat} : Stepped ring (guarding most) ring (positioned most ring.consumed)
  | limited {most start : Nat} :
      Stepped ring (positioned most start) ring (scanning start (reach ring most start) 0)
  | found {start limit len : Nat} : len < limit → ring.fenceAt (start + len) ≠ 0 →
      Stepped ring (scanning start limit len) ring (scanning start limit (len + 1))
  | nothing {start limit : Nat} : Stepped ring (scanning start limit 0) ring (releasing 0)
  | calledBack {start limit len : Nat} : 0 < len →
      Stepped ring (scanning start limit len) ring (delivering start len)
  | handed {start len : Nat} : Stepped ring (delivering start len) ring (blanking start len 0)
  | blanked {start len done : Nat} : done < len → Stepped ring (blanking start len done)
      (ring.setEntry (start + done) Entry.blank) (blanking start len (done + 1))
  | allBlank {start len done : Nat} :
      Stepped ring (blanking start len done) ring (lowering start len 0)
  | lowered {start len done : Nat} : done < len → Stepped ring (lowering start len done)
      (ring.setFence (start + done) 0) (lowering start len (done + 1))
  | allLow {start len done : Nat} :
      Stepped ring (lowering start len done) ring (advancing start len)
  | advanced {start len : Nat} : Stepped ring (advancing start len)
      { ring with consumed := ring.consumed + len } (releasing len)
  | left {count : Nat} :
      Stepped ring (releasing count) { ring with guarded := false } (returned count)
  | rested {count : Nat} : Stepped ring (returned count) ring (returned count)

variable {ring ring' : Ring} {consume consume' : Consume} {p : Nat}

theorem stepped (ring : Ring) (consume : Consume) :
    Stepped ring consume (step ring consume).1 (step ring consume).2 := by
  cases consume with
  | starting most =>
    by_cases hturned : (decide (most = 0) || ring.guarded) = true
    · simp only [step, hturned, if_true]
      exact .turnedAway
    · have hfree : ring.guarded = false := by simp_all
      simp only [step, hturned]
      exact .entered hfree
  | guarding most => exact .placed
  | positioned most start => exact .limited
  | scanning start limit len =>
    simp only [step]
    split
    · rename_i hfound
      exact .found hfound.1 hfound.2.2
    · split
      · rename_i hnone
        subst hnone
        exact .nothing
      · rename_i hsome
        exact .calledBack (Nat.pos_of_ne_zero hsome)
  | delivering start len => exact .handed
  | blanking start len done =>
    simp only [step]
    split
    · rename_i hlt
      exact .blanked hlt
    · exact .allBlank
  | lowering start len done =>
    simp only [step]
    split
    · rename_i hlt
      exact .lowered hlt
    · exact .allLow
  | advancing start len => exact .advanced
  | releasing count => exact .left
  | returned count => exact .rested

theorem Stepped.consumed_le (h : Stepped ring consume ring' consume') :
    ring.consumed ≤ ring'.consumed := by
  cases h with
  | advanced => exact Nat.le_add_right _ _
  | _ => exact Nat.le_refl _

end Consume

namespace Crowd

variable {c : Crowd} {place : Nat} {consume : Consume}

theorem act_capacity (c : Crowd) (a : Act) : (c.act a).ring.capacity = c.ring.capacity := by
  cases a with
  | access number spurious =>
    simp only [Crowd.act, access]
    split
    · rfl
    · exact Traffic.write_step_capacity _ _ _ _ _
  | proceed place =>
    simp only [Crowd.act, proceed]
    split
    · rfl
    · exact Traffic.consume_step_capacity _ _
  | edit place offset entry =>
    simp only [Crowd.act, edit]
    split
    · split
      · exact setEntry_capacity _ _ _
      · rfl
    · rfl
  | panic place =>
    simp only [Crowd.act, panic]
    split <;> rfl
  | _ => rfl

theorem access_consumes (c : Crowd) (number : Nat) (spurious : Bool) :
    (c.access number spurious).consumes = c.consumes := by
  unfold access
  split <;> rfl

theorem access_consumed (c : Crowd) (number : Nat) (spurious : Bool) :
    (c.access number spurious).ring.consumed = c.ring.consumed := by
  unfold access
  split
  · rfl
  · exact Traffic.write_step_consumed _

theorem access_guarded (c : Crowd) (number : Nat) (spurious : Bool) :
    (c.access number spurious).ring.guarded = c.ring.guarded := by
  unfold access
  split
  · rfl
  · rename_i call _
    obtain ⟨value, tag, phase, ticks⟩ := call
    cases phase with
    | loaded position =>
      simp only [WriteCall.step, Write.step]
      split <;> rfl
    | room position =>
      simp only [WriteCall.step, Write.step]
      split <;> rfl
    | _ => rfl

/-- What an act is to the consumes: one of them makes an access, a callback panics, or none of those
begun goes on. -/
inductive Moved (c : Crowd) (a : Act) (c' : Crowd) : Prop
  | stepped (place : Nat) (consume consume' : Consume) (ring' : Ring) : a = .proceed place →
      c.consumes[place]? = some consume → Consume.Stepped c.ring consume ring' consume' →
      c' = c.enter place ring' consume' → Moved c a c'
  | panicked (place start len : Nat) : a = .panic place →
      c.consumes[place]? = some (.delivering start len) →
      c' = c.enter place { c.ring with guarded := false } (.returned 0) → Moved c a c'
  | aside : c'.ring.consumed = c.ring.consumed → c'.ring.guarded = c.ring.guarded →
      (∀ (place : Nat) (consume : Consume), c.consumes[place]? = some consume →
        c'.consumes[place]? = some consume) →
      (∀ (place : Nat) (consume : Consume), c'.consumes[place]? = some consume →
        c.consumes[place]? = some consume ∨ ∃ most, consume = .starting most) → Moved c a c'

theorem moved_act (c : Crowd) (a : Act) : c.Moved a (c.act a) := by
  cases a with
  | access number spurious =>
    have hsame : (c.act (.access number spurious)).consumes = c.consumes :=
      access_consumes c number spurious
    refine .aside (access_consumed c number spurious)
      (access_guarded c number spurious) (fun place consume h => hsame ▸ h)
      fun place consume h => Or.inl (hsame ▸ h)
  | consume most =>
    refine .aside rfl rfl
      (fun place consume h => Traffic.getElem?_of_prefix (List.prefix_append _ _) h)
      fun place consume h => ?_
    by_cases hlt : place < c.consumes.length
    · exact Or.inl (by rwa [Crowd.act, List.getElem?_append_left hlt] at h)
    · rw [Crowd.act, List.getElem?_append_right (Nat.le_of_not_lt hlt)] at h
      exact Or.inr ⟨most, List.mem_singleton.1 (List.mem_of_getElem? h)⟩
  | proceed place =>
    cases hat : c.consumes[place]? with
    | none =>
      have hnone : c.act (.proceed place) = c := by simp only [Crowd.act, proceed, hat]
      rw [hnone]
      exact .aside rfl rfl (fun _ _ => id) fun _ _ => Or.inl
    | some consume =>
        exact .stepped place consume _ _ rfl hat (Consume.stepped _ _) (proceed_eq hat)
  | edit place offset entry =>
    have hsame : (c.act (.edit place offset entry)).consumes = c.consumes ∧
        (c.act (.edit place offset entry)).ring.consumed = c.ring.consumed ∧
        (c.act (.edit place offset entry)).ring.guarded = c.ring.guarded := by
      simp only [Crowd.act, edit]
      split
      · split <;> exact ⟨rfl, rfl, rfl⟩
      · exact ⟨rfl, rfl, rfl⟩
    exact .aside hsame.2.1 hsame.2.2 (fun place consume h => hsame.1 ▸ h)
      fun place consume h => Or.inl (hsame.1 ▸ h)
  | panic place =>
    cases hpanic : c.consumes[place]? with
    | none =>
      have hnone : c.act (.panic place) = c := by simp only [Crowd.act, panic, hpanic]
      rw [hnone]
      exact .aside rfl rfl (fun _ _ => id) fun _ _ => Or.inl
    | some consume =>
      cases consume with
      | delivering start len =>
        exact .panicked place start len rfl hpanic (by simp only [Crowd.act, panic, hpanic]; rfl)
      | _ =>
        have hnone : c.act (.panic place) = c := by simp only [Crowd.act, panic, hpanic]
        rw [hnone]
        exact .aside rfl rfl (fun _ _ => id) fun _ _ => Or.inl
  | _ => exact .aside rfl rfl (fun _ _ => id) fun _ _ => Or.inl

theorem enter_consumes_self (hat : c.consumes[place]? = some consume) (ring' : Ring)
    (consume' : Consume) : (c.enter place ring' consume').consumes[place]? = some consume' :=
  List.getElem?_set_self (List.getElem?_eq_some_iff.1 hat).1

theorem enter_consumes_of_ne {other : Nat} (hne : other ≠ place) (ring' : Ring)
    (consume' : Consume) : (c.enter place ring' consume').consumes[other]? = c.consumes[other]? :=
  List.getElem?_set_ne hne.symm

inductive Written (c : Crowd) (a : Act) : Prop
  | begun (value : Int64) (tag : Int32) : a = .call value tag → Written c a
  | accessed (number : Nat) (spurious : Bool) : a = .access number spurious → Written c a
  | aside : (c.act a).calls = c.calls → (c.act a).claims = c.claims → Written c a

theorem written_act (c : Crowd) (a : Act) : c.Written a := by
  cases a with
  | call value tag => exact .begun value tag rfl
  | access number spurious => exact .accessed number spurious rfl
  | proceed place =>
    have hsame : (c.proceed place).calls = c.calls ∧ (c.proceed place).claims = c.claims := by
      unfold proceed
      split <;> exact ⟨rfl, rfl⟩
    exact .aside hsame.1 hsame.2
  | edit place offset entry =>
    have hsame : (c.edit place offset entry).calls = c.calls ∧
        (c.edit place offset entry).claims = c.claims := by
      unfold edit
      split
      · split <;> exact ⟨rfl, rfl⟩
      · exact ⟨rfl, rfl⟩
    exact .aside hsame.1 hsame.2
  | panic place =>
    have hsame : (c.panic place).calls = c.calls ∧ (c.panic place).claims = c.claims := by
      unfold panic
      split <;> exact ⟨rfl, rfl⟩
    exact .aside hsame.1 hsame.2
  | _ => exact .aside rfl rfl

end Crowd

end MetricReporting.Ring
