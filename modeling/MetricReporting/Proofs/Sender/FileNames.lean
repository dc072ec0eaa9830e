import MetricReporting.Sender.FileSink
import MetricReporting.Proofs.Sender.Trails
import MetricReporting.Proofs.Text.Numerals

/-!
# The names of payload files

The name of a payload file tells the stream and the number it was made of, whatever the name of the
stream and however many digits the number has: the last dash of it is the one between the two.
-/
namespace MetricReporting.FileSink

variable {sink other : FileSink}

theorem append_cons_inj_of_last {separator : Char} {before before' after after' : List Char}
    (hafter : separator ∉ after) (hafter' : separator ∉ after')
    (h : before ++ separator :: after = before' ++ separator :: after') :
    before = before' ∧ after = after' := by
  rcases List.append_eq_append_iff.1 h with ⟨between, hbefore, hrest⟩ | ⟨between, hbefore, hrest⟩
  · rcases List.cons_eq_append_iff.1 hrest with ⟨rfl, hsame⟩ | ⟨others, -, rfl⟩
    · rw [List.append_nil] at hbefore
      exact ⟨hbefore.symm, (List.cons.inj hsame).2.symm⟩
    · exact absurd (List.mem_append_right _ List.mem_cons_self) hafter
  · rcases List.cons_eq_append_iff.1 hrest with ⟨rfl, hsame⟩ | ⟨others, -, rfl⟩
    · rw [List.append_nil] at hbefore
      exact ⟨hbefore, (List.cons.inj hsame).2⟩
    · exact absurd (List.mem_append_right _ List.mem_cons_self) hafter'

theorem toList_fileName (name : String) (sequence : UInt64) : (fileName name sequence).toList =
    name.toList ++ '-' :: ((Text.padded 6 sequence.toNat).toList ++ ".bin".toList) := by
  have hdash : "-".toList = ['-'] := by decide
  simp only [fileName, String.toList_append, List.append_assoc, hdash, List.cons_append,
    List.nil_append]

theorem not_mem_padded {c : Char} (hdigit : c.isDigit = false) (sequence : UInt64) :
    c ∉ (Text.padded 6 sequence.toNat).toList := by
  intro hmem
  rw [Text.isDigit_padded 6 _ c hmem] at hdigit
  cases hdigit

/-- A file name tells the stream and the number, also where the stream's name holds dashes and
digits of its own. -/
theorem fileName_injective {name name' : String} {sequence sequence' : UInt64}
    (h : fileName name sequence = fileName name' sequence') :
    name = name' ∧ sequence = sequence' := by
  have hdash : ∀ sequence : UInt64,
      '-' ∉ (Text.padded 6 sequence.toNat).toList ++ ".bin".toList := by
    intro sequence hmem
    rcases List.mem_append.1 hmem with hdigits | hending
    · exact not_mem_padded rfl sequence hdigits
    · exact absurd hending (by decide)
  have hchars := congrArg String.toList h
  rw [toList_fileName, toList_fileName] at hchars
  obtain ⟨hname, hrest⟩ := append_cons_inj_of_last (hdash _) (hdash _) hchars
  have hnumber := Text.padded_injective 6 (String.toList_inj.1 (List.append_cancel_right hrest))
  exact ⟨String.toList_inj.1 hname, UInt64.toNat_inj.1 hnumber⟩

example : fileName "a-000000" 1234567 = "a-000000-1234567.bin" := by decide

theorem isEntry_fileName {name : String} (h : '/' ∉ name.toList) (sequence : UInt64) :
    FileTree.IsEntry (fileName name sequence) := by
  have hmem : 'b' ∈ (fileName name sequence).toList := by
    rw [toList_fileName]
    simp
  have hne : ∀ text : String, 'b' ∉ text.toList → fileName name sequence ≠ text :=
    fun text hnot hsame => hnot (hsame ▸ hmem)
  refine ⟨hne _ (by decide), hne _ (by decide), hne _ (by decide), ?_⟩
  rw [toList_fileName, List.mem_append, List.mem_cons, List.mem_append]
  rintro (hname | hdash | hdigits | hending)
  · exact h hname
  · exact absurd hdash (by decide)
  · exact not_mem_padded rfl sequence hdigits
  · exact absurd hending (by decide)

end MetricReporting.FileSink
