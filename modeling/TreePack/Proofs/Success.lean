import Mathlib.Tactic
import TreePack.Proofs.Frame
import TreePack.Proofs.Refusal

/-!
# When a run completes

Only a full device refuses what is written to it.  As long as the artifact is none, every write to it
succeeds, whatever has been written before, and so does every step of the loop.  Hence a run
completes exactly if its artifact can be opened and is not a full device.
-/

namespace TreePack

variable {base fs : FileSystem} {artifact : Location} {sink : Sink}

namespace FileSystem

/-- The place is not a full device. -/
def HasRoom (fs : FileSystem) (location : Location) : Prop :=
  fs.node? location ≠ some (.device .full)

theorem Rewritten.hasRoom (hfs : base.Rewritten artifact fs) (hroom : base.HasRoom artifact) :
    fs.HasRoom artifact := by
  cases hfs with
  | unchanged => exact hroom
  | changed new hfile =>
      unfold HasRoom
      rw [node?_setData_self hfile]
      simp

theorem HasRoom.exists_write (hroom : fs.HasRoom artifact) (bytes : Bytes) :
    ∃ written, fs.write artifact bytes = .ok written := by
  unfold write
  split
  next hfull => exact absurd hfull hroom
  next => exact ⟨_, rfl⟩
  next => exact ⟨_, rfl⟩

end FileSystem

/-! ## Through the loop -/

namespace Sink

theorem exists_flush (hfile : sink.file = artifact) (hroom : fs.HasRoom artifact) :
    ∃ flushed, sink.flush fs = .ok flushed := by
  obtain ⟨written, hwrite⟩ := hroom.exists_write sink.pending
  unfold flush
  rw [hfile, hwrite]
  split <;> exact ⟨_, rfl⟩

theorem exists_write (hfs : base.Rewritten artifact fs) (hfile : sink.file = artifact)
    (hroom : base.HasRoom artifact) (bytes : Bytes) :
    ∃ written, sink.write fs bytes = .ok written := by
  obtain ⟨flushed, hflush⟩ := exists_flush hfile (hfs.hasRoom hroom)
  have hkept := flush_rewritten hfs hfile hflush
  obtain ⟨direct, hdirect⟩ := (hkept.1.hasRoom hroom).exists_write bytes
  unfold write
  simp only [hflush, hkept.2, hdirect]
  split
  next => exact ⟨_, rfl⟩
  next => split <;> exact ⟨_, rfl⟩

end Sink

theorem FileSystem.exists_sink_packEach (hfs : base.Rewritten artifact fs)
    (hfile : sink.file = artifact) (hroom : base.HasRoom artifact) (candidates : List Candidate) :
    ∃ sink', (fs.packEach sink candidates).sink = .ok sink' := by
  induction candidates generalizing fs sink with
  | nil => exact ⟨sink, rfl⟩
  | cons c rest ih =>
      unfold packEach
      cases fs.readCandidate c with
      | error reason => exact ih hfs hfile
      | ok file =>
          obtain ⟨next, hwrite⟩ := Sink.exists_write hfs hfile hroom (Bytes.ofText file.record)
          have hkept := Sink.write_rewritten hfs hfile hwrite
          simp only [hwrite]
          exact ih hkept.1 hkept.2

/-- What is held back for a full device stays held back. -/
theorem FileSystem.packEach_full (hfull : fs.node? sink.file = some (.device .full))
    (hpending : sink.pending ≠ []) (candidates : List Candidate) {sink' : Sink}
    (hsink : (fs.packEach sink candidates).sink = .ok sink') :
    (fs.packEach sink candidates).files = fs ∧ sink'.file = sink.file ∧ sink'.pending ≠ [] := by
  induction candidates generalizing sink with
  | nil =>
      cases hsink
      exact ⟨rfl, rfl, hpending⟩
  | cons c rest ih =>
      unfold packEach at hsink ⊢
      cases hread : fs.readCandidate c with
      | error reason =>
          simp only [hread] at hsink
          exact ih hfull hpending hsink
      | ok file =>
          simp only [hread] at hsink
          by_cases hfits : (sink.pending ++ Bytes.ofText file.record).length ≤ Sink.capacity
          · have hwrite := Sink.write_of_fits fs sink hpending hfits
            simp only [hwrite] at hsink ⊢
            exact ih hfull (List.append_ne_nil_of_left_ne_nil hpending _) hsink
          · have hwrite := Sink.write_full_of_overflow sink hfull hpending (Nat.lt_of_not_le hfits)
            simp [hwrite] at hsink

/-! ## Whole runs -/

namespace Job

variable {made : FileSystem}

theorem exists_result_fill (job : Job) (hroom : made.HasRoom artifact) :
    ∃ summary, (job.fill made artifact).result = .ok summary := by
  have hstart : made.Rewritten artifact made := .unchanged
  have hfile : Sink.file ⟨artifact, Bytes.ofText introduction⟩ = artifact := rfl
  have hloop := FileSystem.packEach_rewritten hstart hfile (made.candidates job.rules job.root)
  obtain ⟨sink, hsink⟩ :=
    FileSystem.exists_sink_packEach hstart hfile hroom (made.candidates job.rules job.root)
  obtain ⟨flushed, hflush⟩ :=
    Sink.exists_flush (hloop.2 sink hsink) (hloop.1.hasRoom hroom)
  unfold fill
  simp only [hsink, hflush]
  exact ⟨_, rfl⟩

theorem fill_full (job : Job) (hfull : made.node? artifact = some (.device .full))
    (summary : Summary) :
    (job.fill made artifact).result ≠ .ok summary := by
  intro hresult
  unfold fill at hresult
  dsimp only at hresult
  split at hresult
  next => contradiction
  next sink' hsink =>
    obtain ⟨hfiles, hfile, hpending⟩ :=
      FileSystem.packEach_full hfull introduction_ne_nil _ hsink
    rw [hfiles, Sink.flush_full sink' (hfile ▸ hfull) hpending] at hresult
    contradiction

/-- A run completes exactly if its artifact can be opened and takes what is written to it. -/
theorem run_ok_iff (job : Job) (fs : FileSystem) :
    (∃ summary, (job.run fs).result = .ok summary) ↔
      ∃ made artifact, fs.create job.outputPath = .ok (made, artifact) ∧
        made.HasRoom artifact := by
  constructor
  · rintro ⟨summary, hresult⟩
    obtain ⟨made, artifact, hcompletes⟩ := exists_completes hresult
    refine ⟨made, artifact, hcompletes.create, ?_⟩
    intro hfull
    rw [run_of_create hcompletes.create] at hresult
    exact job.fill_full hfull summary hresult
  · rintro ⟨made, artifact, hcreate, hroom⟩
    rw [run_of_create hcreate]
    exact job.exists_result_fill hroom

end Job

end TreePack
