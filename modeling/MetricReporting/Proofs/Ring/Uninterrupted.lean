import MetricReporting.Proofs.Ring.FirstInFirstOut

/-!
# Calls that nobody interrupts

The accesses of a write in a row are `tryWrite`, and those of a consume in a row are `consume`. The
number of accesses that these allow is enough, since each one brings a call nearer to its return.
-/
namespace MetricReporting.Ring

namespace Write

variable {value : Int64} {tag : Int32}

theorem steps_add (n m : Nat) (state : Ring × Write) :
    steps value tag (n + m) state = steps value tag m (steps value tag n state) := by
  induction n generalizing state with
  | zero => rw [Nat.zero_add, steps]
  | succ n ih =>
    rw [Nat.succ_add]
    exact ih _

theorem steps_returned (n : Nat) (ring : Ring) (result : Bool) :
    steps value tag n (ring, .returned result) = (ring, .returned result) := by
  induction n with
  | zero => rfl
  | succ n ih => exact ih

theorem claim_eq (ring : Ring) :
    claim value tag ring =
      if full ring ring.written then (ring, .returned false)
      else ({ ring with written := ring.written + 1 }, .claimed ring.written) := by
  cases hfull : full ring ring.written with
  | true => simp [claim, steps, step, hfull]
  | false => simp [claim, steps, step, hfull]

theorem steps_eq_tryWrite (ring : Ring) :
    steps value tag 6 (ring, .starting) =
      ((ring.tryWrite value tag).2, .returned (ring.tryWrite value tag).1) := by
  have hsplit : steps value tag 6 (ring, .starting) = publish value tag (claim value tag ring) :=
    steps_add 3 3 _
  rw [hsplit, tryWrite, claim_eq]
  split <;> rfl

end Write

namespace Consume

def left (capacity : Nat) : Consume → Nat
  | starting _ => capacity + 5
  | guarding _ => capacity + 4
  | positioned _ _ => capacity + 3
  | scanning _ limit len => limit - len + 2
  | delivering _ _ => 0
  | blanking _ len done => len - done + len + 4
  | lowering _ len done => len - done + 3
  | advancing _ _ => 2
  | releasing _ => 1
  | returned _ => 0

/-- Up to its callback a consume has counted nothing. -/
def Opening (capacity : Nat) (ring : Ring) : Consume → Prop
  | starting _ | guarding _ | positioned _ _ => ring.capacity = capacity
  | scanning _ _ _ | delivering _ _ => True
  | releasing count | returned count => count = 0
  | _ => False

def Closing (count : Nat) (_ : Ring) : Consume → Prop
  | blanking _ len _ | lowering _ len _ | advancing _ len => len = count
  | releasing len | returned len => len = count
  | _ => False

/-- A half of a consume: its accesses call no callback, keep `Inv` and come to an end. -/
structure Half (stop : Consume → Bool) (capacity : Nat) (Inv : Ring → Consume → Prop) : Prop where
  quiet : ∀ ring c, Inv ring c → stop c = false → c.isDelivering = false
  step : ∀ ring c, Inv ring c → stop c = false →
    Inv (step ring c).1 (step ring c).2 ∧ left capacity (step ring c).2 < left capacity c

theorem opening_half (capacity : Nat) :
    Half (fun c => c.isDelivering || c.isReturned) capacity (Opening capacity) := by
  refine ⟨fun ring c _ hstop => (Bool.or_eq_false_iff.1 hstop).1, fun ring c h hstop => ?_⟩
  cases c with
  | starting most =>
    simp only [Consume.step]
    split
    · exact ⟨rfl, Nat.succ_pos _⟩
    · exact ⟨h, Nat.lt_succ_self _⟩
  | guarding most => exact ⟨h, Nat.lt_succ_self _⟩
  | positioned most start =>
    refine ⟨trivial, ?_⟩
    have hcapacity : ring.capacity = capacity := h
    simp only [Consume.step, left, reach]
    omega
  | scanning start limit len =>
    simp only [Consume.step]
    split
    · rename_i hraised
      refine ⟨trivial, ?_⟩
      simp only [left]
      omega
    · split
      · exact ⟨rfl, by simp only [left]; omega⟩
      · exact ⟨trivial, Nat.succ_pos _⟩
  | delivering start len => cases hstop
  | releasing count => exact ⟨h, Nat.one_pos⟩
  | returned count => cases hstop
  | _ => exact absurd h id

theorem closing_half (capacity count : Nat) : Half isReturned capacity (Closing count) := by
  refine ⟨fun ring c h _ => ?_, fun ring c h hstop => ?_⟩
  · cases c with
    | delivering start len => exact absurd h id
    | _ => rfl
  cases c with
  | blanking start len done =>
    simp only [Consume.step]
    split
    · exact ⟨h, by simp only [left]; omega⟩
    · exact ⟨h, by simp only [left]; omega⟩
  | lowering start len done =>
    simp only [Consume.step]
    split
    · exact ⟨h, by simp only [left]; omega⟩
    · exact ⟨h, by simp only [left]; omega⟩
  | advancing start len => exact ⟨h, Nat.lt_succ_self _⟩
  | releasing len => exact ⟨h, Nat.one_pos⟩
  | returned len => cases hstop
  | _ => exact absurd h id

end Consume

namespace Traffic

variable {t : Traffic}

theorem run_append (t : Traffic) (acts more : List Act) :
    t.run (acts ++ more) = (t.run acts).run more :=
  List.foldl_append

theorem run_half {stop : Consume → Bool} {capacity : Nat} {Inv : Ring → Consume → Prop}
    (hhalf : Consume.Half stop capacity Inv) (fuel : Nat) (h : Inv t.ring t.consumer)
    (hfuel : Consume.left capacity t.consumer ≤ fuel) :
    let s := Consume.stepsUntil stop fuel (t.ring, t.consumer)
    Inv s.1 s.2 ∧ stop s.2 = true ∧
      ∃ n, t.run (List.replicate n (.proceed [])) = { t with ring := s.1, consumer := s.2 } := by
  induction fuel generalizing t with
  | zero =>
    refine ⟨h, ?_, 0, rfl⟩
    by_contra hstop
    have hless := (hhalf.step _ _ h (Bool.eq_false_iff.2 hstop)).2
    omega
  | succ fuel ih =>
    simp only [Consume.stepsUntil]
    cases hstop : stop t.consumer with
    | true => exact ⟨h, hstop, 0, rfl⟩
    | false =>
      obtain ⟨hinv, hless⟩ := hhalf.step _ _ h hstop
      have hproceed := proceed_eq (hhalf.quiet _ _ h hstop) []
      obtain ⟨hinv', hstop', n, hrun⟩ := @ih (t.proceed []) (by rw [hproceed]; exact hinv)
        (by rw [hproceed]; exact Nat.le_of_lt_succ (hless.trans_le hfuel))
      rw [hproceed] at hinv' hstop' hrun
      refine ⟨hinv', hstop', n + 1, ?_⟩
      rw [List.replicate_succ, run, List.foldl_cons, act, hproceed]
      exact hrun

theorem Sound.delivering_le (hs : t.Sound) {start len : Nat}
    (hc : t.consumer = .delivering start len) : len ≤ t.ring.capacity := by
  have hconsumer := hs.consumer
  rw [hc] at hconsumer
  have hstart := hconsumer.1.start_eq
  have hlast := hconsumer.1.le_written
  have hwritten := hs.written_le
  omega

theorem run_delivering {start len : Nat} (hc : t.consumer = .delivering start len)
    (hle : len ≤ t.ring.capacity) :
    ∃ n, t.run (List.replicate n (.proceed [])) =
      { t with
        ring := (Consume.closed (t.ring, t.consumer)).1
        consumer := .returned len
        handed := t.handed ++ [t.ring.chunk start len] } := by
  have hdeliver : t.run [.proceed []] = { t with
      consumer := .blanking start len 0
      handed := t.handed ++ [t.ring.chunk start len] } := by
    simp [Traffic.run, Traffic.act, Traffic.proceed, edited_nil, Consume.step, Consume.held, hc]
  have hclose := @run_half (t.run [.proceed []]) _ _ _
    (Consume.closing_half t.ring.capacity len) (2 * t.ring.capacity + 5)
    (by rw [hdeliver]; rfl) (by rw [hdeliver]; simp only [Consume.left]; omega)
  have hfuel : Consume.closed (t.ring, t.consumer) =
      Consume.stepsUntil Consume.isReturned (2 * t.ring.capacity + 5)
        (t.ring, .blanking start len 0) := by
    rw [hc]
    rfl
  rw [hdeliver] at hclose
  simp only [← hfuel] at hclose
  obtain ⟨hclosed, hdone, n, hrun⟩ := hclose
  have hlast : (Consume.closed (t.ring, t.consumer)).2 = .returned len := by
    cases hcase : (Consume.closed (t.ring, t.consumer)).2 with
    | returned count =>
      rw [hcase] at hclosed
      exact congrArg _ hclosed
    | _ => rw [hcase] at hdone; cases hdone
  refine ⟨1 + n, ?_⟩
  rw [List.replicate_add, run_append, List.replicate_one, hdeliver, hrun, hlast]

/-- A consume that nobody interrupts is `consume`. -/
theorem Sound.run_consume (hs : t.Sound) (hidle : t.consumer.isReturned = true) (most : Nat) :
    ∃ n chunks, t.run (.consume most :: List.replicate n (.proceed [])) =
        { t with
          ring := (t.ring.consume most).2
          consumer := .returned (t.ring.consume most).1.length
          handed := t.handed ++ chunks } ∧
      chunks.flatten = (t.ring.consume most).1 := by
  have hbegin : t.run [.consume most] = { t with consumer := .starting most } := if_pos hidle
  have hopen := @run_half (t.run [.consume most]) _ _ _
    (Consume.opening_half t.ring.capacity) (t.ring.capacity + 6)
    (by rw [hbegin]; rfl) (by rw [hbegin]; exact Nat.le_succ _)
  rw [hbegin] at hopen
  obtain ⟨hopened, hstop, n, hrun⟩ := hopen
  have hsound := (hs.run [.consume most]).run (List.replicate n (.proceed []))
  rw [hbegin, hrun] at hsound
  have hcons : ∀ acts, t.run (.consume most :: acts) = (t.run [.consume most]).run acts :=
    run_append t [.consume most]
  unfold Ring.consume Consume.opened
  generalize Consume.stepsUntil (fun c => c.isDelivering || c.isReturned) (t.ring.capacity + 6)
    (t.ring, .starting most) = s at hopened hstop hrun hsound
  obtain ⟨ring, consumer⟩ := s
  cases consumer with
  | returned count =>
    obtain rfl : count = 0 := hopened
    refine ⟨n, [], ?_, rfl⟩
    rw [hcons, hbegin, hrun, List.append_nil]
    rfl
  | delivering start len =>
    obtain ⟨m, hrest⟩ :=
      run_delivering (t := { t with ring, consumer := .delivering start len }) rfl
      (hsound.delivering_le rfl)
    refine ⟨n + m, [ring.chunk start len], ?_, List.append_nil _⟩
    rw [hcons, hbegin, List.replicate_add, run_append, hrun, hrest]
    simp only [Consume.held, Option.getD_some, chunk_length]
  | _ => cases hstop

theorem run_access {number : Nat} {call : WriteCall} (h : t.calls[number]? = some call) (n : Nat) :
    ∃ call' claims', t.run (List.replicate n (.access number false)) =
        { t with
          ring := (Write.steps call.value call.tag n (t.ring, call.phase)).1
          calls := t.calls.set number call'
          claims := claims' } ∧
      call'.phase = (Write.steps call.value call.tag n (t.ring, call.phase)).2 := by
  induction n generalizing t call with
  | zero =>
    obtain ⟨hlt, hget⟩ := List.getElem?_eq_some_iff.1 h
    refine ⟨call, t.claims, ?_, rfl⟩
    rw [← hget, List.set_getElem_self]
    rfl
  | succ n ih =>
    have hlt := (List.getElem?_eq_some_iff.1 h).1
    have haccess : t.access number false = { t with
        ring := (call.step false t.ring).1
        calls := t.calls.set number (call.step false t.ring).2
        claims := if (call.step false t.ring).2.phase.isClaimed then t.claims ++ [number]
          else t.claims } := by
      simp only [access, h]
    obtain ⟨call', claims', hrun, hphase⟩ :=
      @ih (t.access number false) (call.step false t.ring).2 (by
        rw [haccess]
        exact List.getElem?_set_self hlt)
    refine ⟨call', claims', ?_, ?_⟩
    · rw [List.replicate_succ]
      refine Eq.trans hrun ?_
      rw [haccess, List.set_set]
      rfl
    · rw [hphase, haccess]
      rfl

theorem run_tryWrite (t : Traffic) (value : Int64) (tag : Int32) :
    ∃ call claims', t.run (.call value tag :: List.replicate 6 (.access t.calls.length false)) =
        { t with
          ring := (t.ring.tryWrite value tag).2
          calls := t.calls ++ [call]
          claims := claims' } ∧
      call.phase = .returned (t.ring.tryWrite value tag).1 := by
  obtain ⟨call, claims', hrun, hphase⟩ := @run_access (t.act (.call value tag)) t.calls.length
    { value := value, tag := tag } List.getElem?_concat_length 6
  have hsteps : Write.steps value tag 6 (t.ring, .starting) = _ := Write.steps_eq_tryWrite t.ring
  have hset : (t.act (.call value tag)).calls.set t.calls.length call = t.calls ++ [call] := by
    simp only [act, List.set_append_right _ _ (Nat.le_refl _), Nat.sub_self, List.set_cons_zero]
  refine ⟨call, claims', hrun.trans ?_, hphase.trans (congrArg Prod.snd hsteps)⟩
  rw [hset]
  exact congrArg (fun ring => { t with ring, calls := t.calls ++ [call], claims := claims' })
    (congrArg Prod.fst hsteps)

end Traffic

end MetricReporting.Ring
