import MetricReporting.Command.Execution
import MetricReporting.Proofs.Payload.Circulation

/-!
# Files listed with one pool

The files of one command are decoded with the same pool, one after the other. Main statement: two
pools decode a payload alike, whatever each was used for before, and so each file is listed as it is
with an unused pool.
-/
namespace MetricReporting

open Payload (Pool Message)

variable {pool other : Pool} {files : FileTree} {withValues : Bool} {path : String}
  {listing : Listing}

namespace Listing

theorem ofPayload_reachable (h : pool.Reachable) (path : String) (payload : Bytes)
    (withValues : Bool) : (ofPayload path payload withValues pool).2.Reachable := by
  have hdecoded := h.decodeTagged payload
  unfold ofPayload
  split
  · rename_i hdecode
    rw [hdecode] at hdecoded
    exact hdecoded
  · rename_i messages after hdecode
    rw [hdecode] at hdecoded
    have hreleased := hdecoded.releaseAll messages
    split <;> exact hreleased

theorem ofPayload_alike (hpool : pool.Clean) (hother : other.Clean) (path : String)
    (payload : Bytes) (withValues : Bool) :
    (ofPayload path payload withValues pool).1 = (ofPayload path payload withValues other).1 := by
  have halike := Payload.decodeTagged_alike hpool hother payload
  unfold ofPayload
  generalize Payload.decodeTagged payload pool = outcome at halike ⊢
  generalize Payload.decodeTagged payload other = outcome' at halike ⊢
  obtain ⟨result, after⟩ := outcome
  obtain ⟨result', after'⟩ := outcome'
  obtain rfl : result = result' := halike
  cases result with
  | error error => rfl
  | ok messages =>
    dsimp only
    split <;> rfl

end Listing

namespace Machine

theorem listFile_reachable (h : pool.Reachable)
    (hlist : listFile files withValues pool path = .ok (listing, other)) : other.Reachable := by
  cases hread : files.read path with
  | error error => simp [listFile, hread] at hlist
  | ok payload =>
    have hafter := Listing.ofPayload_reachable h path payload withValues
    simp only [listFile, hread] at hlist
    generalize Listing.ofPayload path payload withValues pool = outcome at hlist hafter
    obtain ⟨result, after⟩ := outcome
    cases result with
    | ok found =>
      simp only [Except.ok.injEq, Prod.mk.injEq] at hlist
      rw [← hlist.2]
      exact hafter
    | error fault => cases fault <;> simp at hlist

theorem listFile_alike (hpool : pool.Clean) (hother : other.Clean) (files : FileTree)
    (withValues : Bool) (path : String) :
    (listFile files withValues pool path).map Prod.fst =
      (listFile files withValues other path).map Prod.fst := by
  cases hread : files.read path with
  | error error => simp only [listFile, hread]
  | ok payload =>
    have halike := Listing.ofPayload_alike hpool hother path payload withValues
    simp only [listFile, hread]
    generalize Listing.ofPayload path payload withValues pool = outcome at halike ⊢
    generalize Listing.ofPayload path payload withValues other = outcome' at halike ⊢
    obtain ⟨result, after⟩ := outcome
    obtain ⟨result', after'⟩ := outcome'
    obtain rfl : result = result' := halike
    cases result with
    | ok found => rfl
    | error fault => cases fault <;> rfl

theorem listFiles_eq (h : pool.Reachable) (hother : other.Clean) (files : FileTree)
    (withValues : Bool) (paths : List String) :
    listFiles files withValues paths pool =
      paths.mapM fun path => (listFile files withValues other path).map Prod.fst := by
  induction paths generalizing pool with
  | nil => rfl
  | cons path rest ih =>
    have halike := listFile_alike h.clean hother files withValues path
    rw [listFiles, List.mapM_cons, ← halike]
    cases hlist : listFile files withValues pool path with
    | error failure => rfl
    | ok listed =>
      have hrest := ih (listFile_reachable h hlist)
      show (listFiles files withValues rest listed.2 >>= fun others => .ok (listed.1 :: others)) = _
      rw [hrest]
      rfl

end Machine

namespace Payload.Circulation

/-- Whatever was done with two pools, good and bad payloads decoded with them included, they decode
a payload to the same messages or the same error. Nothing that waits in a pool holds a tag or a
value, and a file is listed as if it were the only one. -/
theorem decoded_alike (acts others : List Act) :
    let pool := (run {} acts).pool
    let other := (run {} others).pool
    (∀ message ∈ pool.free, message.tag = "" ∧ message.values = #[]) ∧
    (∀ payload, (decodeTagged payload pool).1 = (decodeTagged payload other).1) ∧
    (∀ path payload withValues, (Listing.ofPayload path payload withValues pool).1 =
      (Listing.ofPayload path payload withValues other).1) ∧
    ∀ files withValues paths, Machine.listFiles files withValues paths pool =
      paths.mapM fun path => (Machine.listFile files withValues other path).map Prod.fst := by
  intro pool other
  have hpool : pool.Reachable := run_reachable .new acts
  have hother : other.Reachable := run_reachable .new others
  refine ⟨fun message hmessage => ?_, fun payload => ?_, fun path payload withValues => ?_,
    fun files withValues paths => ?_⟩
  · rw [hpool.clean message hmessage]
    exact ⟨rfl, rfl⟩
  · exact decodeTagged_alike hpool.clean hother.clean payload
  · exact Listing.ofPayload_alike hpool.clean hother.clean path payload withValues
  · exact Machine.listFiles_eq hpool hother.clean files withValues paths

end Payload.Circulation

end MetricReporting
