import Mathlib.Data.List.Nodup
import Mathlib.Tactic
import TreePack.Proofs.Frame
import TreePack.Proofs.Order
import TreePack.Proofs.VisitedLink

/-!
# What becomes of one candidate

A survey has no candidate twice, so a run that completes has one entry for each of them.  If the
candidate does not lead to the artifact, this entry says how it is read in the tree in which the
artifact has just been opened, whatever has been written since.
-/

namespace TreePack

/-- Every run of the job that completes has one entry for the candidate, with this outcome.  The
entries of a run are what it prints, what its summary says and, if the artifact is a regular file,
the records in it. -/
def Job.Yields (job : Job) (fs : FileSystem) (c : Candidate)
    (outcome : Except SkipReason PackedFile) : Prop :=
  ∀ summary, (job.run fs).result = .ok summary →
    ∃ made artifact, job.Completes fs made artifact summary ∧
      (∀ mode data, made.node? artifact = some (.file mode data) →
        (job.run fs).files.node? artifact = some (.file mode
          (artifactBytes ((job.entries made artifact).filterMap Entry.packed?)))) ∧
      (job.entries made artifact).filter (fun entry => entry.candidate = c) = [⟨c, outcome⟩]

theorem Candidate.below_injective {root : Path} (hroot : root.bytes ≠ []) :
    Function.Injective (Candidate.below root) := by
  intro trail other heq
  exact Path.descend_injective hroot (congrArg Candidate.path heq)

theorem FileSystem.nodup_candidates (fs : FileSystem) (rules : Rules) (root : Path) :
    (fs.candidates rules root).Nodup := by
  cases hdir : fs.isDir root with
  | true =>
      obtain ⟨mode, entries, htop⟩ := (isDir_eq_true_iff fs root).1 hdir
      obtain ⟨here, hlocate, -⟩ := (stat_eq_ok_iff fs root _).1 htop
      have hroot : root.bytes ≠ [] := (usable_of_locate hlocate).notEmpty
      have hpairwise : ∃ trails : List (List Name), trails.Pairwise TrailBefore ∧
          fs.candidates rules root = trails.map (Candidate.below root) :=
        candidates_pairwise hdir
      obtain ⟨trails, hsorted, heq⟩ := hpairwise
      have hnodup : trails.Nodup := hsorted.imp TrailBefore.ne
      rw [heq]
      exact hnodup.map (Candidate.below_injective hroot)
  | false =>
      unfold candidates
      cases hsurvey : fs.survey rules root with
      | error e => exact List.nodup_nil
      | ok visits =>
          cases visits with
          | nil => exact List.nodup_nil
          | cons visit rest =>
              have halone := (survey_of_not_isDir hdir hsurvey List.mem_cons_self).1
              rw [halone]
              cases hcandidate : visit.candidate? root <;> simp [hcandidate]

theorem filter_eq_singleton_of_nodup {α β : Type} [DecidableEq β] {key : α → β} {l : List α}
    (hnodup : (l.map key).Nodup) {a : α} (hmem : a ∈ l) :
    l.filter (fun b => key b = key a) = [a] := by
  obtain ⟨before, after, rfl⟩ := List.append_of_mem hmem
  rw [List.map_append, List.map_cons, List.nodup_middle, List.nodup_cons, List.mem_append,
    not_or] at hnodup
  obtain ⟨⟨hbefore, hafter⟩, -⟩ := hnodup
  have hnone : ∀ others : List α, key a ∉ others.map key →
      others.filter (fun b => key b = key a) = [] := by
    intro others hout
    rw [List.filter_eq_nil_iff]
    intro b hb hkey
    exact hout (List.mem_map.2 ⟨b, hb, of_decide_eq_true hkey⟩)
  rw [List.filter_append, List.filter_cons_of_pos (by simp), hnone before hbefore,
    hnone after hafter, List.nil_append]

theorem Job.Completes.outcome_eq {job : Job} {fs made : FileSystem} {artifact : Location}
    {summary : Summary} (hrun : job.Completes fs made artifact summary) {c : Candidate}
    (hmem : c ∈ made.candidates job.rules job.root)
    (hclear : made.locate .use c.path ≠ .ok artifact) :
    (job.entries made artifact).filter (fun entry => entry.candidate = c) =
      [⟨c, made.readCandidate c⟩] := by
  have hnodup : ((job.entries made artifact).map Entry.candidate).Nodup := by
    rw [hrun.candidates]
    exact made.nodup_candidates job.rules job.root
  rw [← hrun.candidates, List.mem_map] at hmem
  obtain ⟨entry, hentry, rfl⟩ := hmem
  have houtcome : entry.outcome = made.readCandidate entry.candidate :=
    FileSystem.packEach_outcome .unchanged rfl _ entry hentry hclear
  rw [filter_eq_singleton_of_nodup hnodup hentry, ← houtcome]

theorem Job.yields_of_create {job : Job} {fs : FileSystem} {c : Candidate}
    {outcome : Except SkipReason PackedFile}
    (hmade : ∀ made artifact, fs.create job.outputPath = .ok (made, artifact) →
      c ∈ made.candidates job.rules job.root ∧ made.locate .use c.path ≠ .ok artifact ∧
        made.readCandidate c = outcome) :
    job.Yields fs c outcome := by
  intro summary hresult
  obtain ⟨made, artifact, hrun⟩ := exists_completes hresult
  obtain ⟨hmem, hclear, hread⟩ := hmade made artifact hrun.create
  refine ⟨made, artifact, hrun, ?_, ?_⟩
  · intro mode data hfile
    rw [run_eq_completed hrun.create hfile]
    exact FileSystem.node?_setData_self hfile _
  · rw [← hread]
    exact hrun.outcome_eq hmem hclear

end TreePack
