import Mathlib.Tactic
import TreePack.FileSystem.Edit
import TreePack.Proofs.Frame
import TreePack.Proofs.LinkFree

/-!
# When an artifact is packed into itself

The artifact is there before the survey begins, so the survey may come upon it.  What keeps it out
is its name alone: in a tree without links the name that an artifact has in its directory is the
last name of the path under which it was opened, and a survey picks nothing whose name the rules do
not accept, wherever it lies.  The standard rules exclude the name that a standard job gives to its
artifact, but no rule is tied to the name that a job uses: under another name the artifact is
packed like any file.
-/

namespace TreePack

/-! ## Candidates and their places -/

/-- The candidate is the entry at this location, as seen from the root of a survey. -/
def Candidate.IsAt (fs : FileSystem) (root : Path) (location : Location) (c : Candidate) : Prop :=
  ∃ here trail, fs.locate .use root = .ok here ∧ c = Candidate.below root trail ∧
    location = here ++ trail

theorem Rules.judge_eq_candidate_iff (rules : Rules) (name : Bytes) :
    rules.judge name = .candidate ↔ rules.accepts (Utf8.lossy name) = true := by
  unfold judge
  split
  next haccepts => simp [haccepts]
  next hrejects => simp [hrejects]

theorem Node.accepts_of_verdict {fs : FileSystem} {rules : Rules} {path : Path} {n : Name}
    {node : Node} (hverdict : node.verdict fs rules path n = .candidate) :
    rules.accepts n.display = true := by
  rw [Name.display, ← rules.judge_eq_candidate_iff]
  cases node with
  | file mode data => exact hverdict
  | link target =>
      simp only [verdict] at hverdict
      split at hverdict
      next => contradiction
      next => exact hverdict
  | fifo mode => contradiction
  | device kind => contradiction
  | dir mode entries =>
      simp only [verdict] at hverdict
      split at hverdict
      next => contradiction
      next => split at hverdict <;> contradiction

namespace FileSystem

variable {fs : FileSystem} {rules : Rules} {root : Path}

theorem LinkFree.exists_top (hfree : fs.LinkFree) {c : Candidate}
    (hc : c ∈ fs.candidates rules root) :
    root.isStandardInput = false ∧ ∃ top, fs.stat root = .ok top := by
  unfold candidates survey at hc
  cases hinput : root.isStandardInput with
  | true => simp [hinput] at hc
  | false =>
      refine ⟨rfl, ?_⟩
      cases hentry : fs.linkStat root with
      | error e => simp [hinput, hentry] at hc
      | ok node => exact ⟨node, hfree.stat_of_linkStat hentry⟩

/-- A root that is no directory is the only candidate, if any. -/
theorem LinkFree.eq_root_of_candidate (hfree : fs.LinkFree) {top : Node}
    (hinput : root.isStandardInput = false) (htop : fs.stat root = .ok top)
    (hnotDir : top.isDir = false) {c : Candidate} (hc : c ∈ fs.candidates rules root) :
    rules.judge (rootName root) = .candidate ∧ c = Candidate.below root [] := by
  unfold candidates at hc
  rw [hfree.survey_eq hinput htop] at hc
  obtain ⟨visit, hvisit, hcandidate⟩ := List.mem_filterMap.1 hc
  have honly : ∃ verdict, visit = ⟨[], verdict⟩ ∧
      (verdict = .candidate → rules.judge (rootName root) = .candidate) := by
    cases top with
    | dir mode entries => contradiction
    | file mode data =>
        rw [Node.visits, List.mem_singleton] at hvisit
        exact ⟨_, hvisit, id⟩
    | link target =>
        rw [Node.visits, List.mem_singleton] at hvisit
        refine ⟨_, hvisit, ?_⟩
        split <;> simp
    | fifo mode =>
        rw [Node.visits, List.mem_singleton] at hvisit
        exact ⟨_, hvisit, by simp⟩
    | device kind =>
        rw [Node.visits, List.mem_singleton] at hvisit
        exact ⟨_, hvisit, by simp⟩
  obtain ⟨verdict, rfl, hjudge⟩ := honly
  unfold Visit.candidate? at hcandidate
  split at hcandidate
  next hverdict =>
    cases hcandidate
    exact ⟨hjudge hverdict, rfl⟩
  next => contradiction

/-- A candidate whose place has a name is there because the rules accept this name. -/
theorem LinkFree.accepts_of_candidate (hfree : fs.LinkFree) {c : Candidate} {location : Location}
    {n : Name} (hc : c ∈ fs.candidates rules root) (hat : c.IsAt fs root location)
    (hlast : location.getLast? = some n) :
    rules.accepts n.display = true := by
  obtain ⟨here, trail, hroot, rfl, rfl⟩ := hat
  obtain ⟨hinput, top, htop⟩ := hfree.exists_top hc
  have htrails := Path.descend_injective (usable_of_locate hroot).notEmpty
  cases hdir : top.isDir with
  | true =>
      obtain ⟨before, m, inner, hsame, _, hverdict⟩ := (mem_candidates_iff hinput htop hdir _).1 hc
      have htrail : trail = before ++ [m] := htrails (congrArg Candidate.path hsame)
      rw [htrail, ← List.append_assoc, List.getLast?_concat] at hlast
      cases hlast
      exact Node.accepts_of_verdict hverdict
  | false =>
      -- The root is itself a file, and is judged by the last name of its path.
      obtain ⟨hjudge, hsame⟩ := hfree.eq_root_of_candidate hinput htop hdir hc
      have htrail : trail = [] := htrails (congrArg Candidate.path hsame)
      rw [htrail, List.append_nil] at hlast
      obtain ⟨place, hplace, hnode⟩ := (stat_eq_ok_iff fs root top).1 htop
      rw [hroot] at hplace
      cases hplace
      have hname := hfree.fileName?_eq ((locate_eq_ok_iff fs .use root here).1 hroot)
        (by simp [hnode, hdir])
      rw [hlast] at hname
      unfold rootName at hjudge
      rw [hname] at hjudge
      exact (rules.judge_eq_candidate_iff n.bytes).1 hjudge

/-- A candidate is at the place that its path leads to. -/
theorem LinkFree.isAt_of_locate (hfree : fs.LinkFree) {c : Candidate} {location : Location}
    (hc : c ∈ fs.candidates rules root) (hlocate : fs.locate .use c.path = .ok location) :
    c.IsAt fs root location := by
  obtain ⟨hinput, top, htop⟩ := hfree.exists_top hc
  obtain ⟨here, hroot, hhere⟩ := (stat_eq_ok_iff fs root top).1 htop
  cases hdir : top.isDir with
  | true =>
      obtain ⟨before, m, inner, rfl, hmeets, _⟩ := (mem_candidates_iff hinput htop hdir c).1 hc
      have hinner := hmeets.get?
      have hnotLink : ∀ target, inner ≠ .link target := by
        rintro target rfl
        apply hfree (here ++ (before ++ [m])) target
        rw [node?_append, hhere]
        exact hinner
      exact ⟨here, _, hroot, rfl, locate_descend hroot hhere hinner hnotLink hlocate⟩
  | false =>
      obtain ⟨_, rfl⟩ := hfree.eq_root_of_candidate hinput htop hdir hc
      have hsame : fs.locate .use root = .ok location := hlocate
      exact ⟨location, [], hsame, rfl, (List.append_nil location).symm⟩

end FileSystem

namespace Job

theorem standard_rejects_artifact (root : Path) :
    ∃ n, (standard root).outputPath.fileName? = some n ∧
      (standard root).rules.accepts n.display = false := by
  let n : Name := ⟨Bytes.ofText artifactName, by decide +kernel⟩
  have hrejects : Rules.standard.accepts n.display = false := by
    decide +kernel
  exact ⟨n, root.fileName?_join_ofName n, hrejects⟩

/-- In a tree without links, no entry of a run that completes is the artifact, wherever it lies, if
the rules do not accept its name.  The standard rules do not accept the name that a standard job
gives to its artifact. -/
theorem artifact_not_among_entries {fs : FileSystem} (hfree : fs.LinkFree) :
    (∀ (job : Job) (n : Name) (summary : Summary), job.outputPath.fileName? = some n →
        job.rules.accepts n.display = false → (job.run fs).result = .ok summary →
        ∃ made artifact, job.Completes fs made artifact summary ∧
          ∀ entry ∈ job.entries made artifact,
            ¬ entry.candidate.IsAt made job.root artifact ∧
              made.locate .use entry.candidate.path ≠ .ok artifact) ∧
      ∀ root, ∃ n, (standard root).outputPath.fileName? = some n ∧
        (standard root).rules.accepts n.display = false := by
  refine ⟨?_, standard_rejects_artifact⟩
  intro job n summary hname hrejects hresult
  obtain ⟨made, artifact, hrun⟩ := exists_completes hresult
  refine ⟨made, artifact, hrun, ?_⟩
  intro entry hentry
  have hmadeFree := (FileSystem.madeAt_of_create hrun.create).linkFree hfree
  have hlast : artifact.getLast? = some n := by
    rw [hfree.getLast?_of_create hrun.create, hname]
  have hcandidate : entry.candidate ∈ made.candidates job.rules job.root := by
    rw [← hrun.candidates]
    exact List.mem_map_of_mem hentry
  have hnotAt : ¬ entry.candidate.IsAt made job.root artifact := by
    intro hat
    rw [hmadeFree.accepts_of_candidate hcandidate hat hlast] at hrejects
    contradiction
  refine ⟨hnotAt, ?_⟩
  intro hlocate
  exact hnotAt (hmadeFree.isAt_of_locate hcandidate hlocate)

/-- A project that keeps its artifact among its documents, where an old one lies. -/
def documentedProject : FileSystem :=
  FileSystem.built
    [(·.putFile (Path.ofText "/proj/a.c") (Bytes.ofText "int a;")),
      (·.putFile (Path.ofText "/proj/docs/b.md") (Bytes.ofText "b")),
      (·.putFile (Path.ofText "/proj/docs/project_context.txt") (Bytes.ofText "old"))]

theorem artifact_not_among_entries_of_documentedProject :
    let job : Job := ⟨Path.ofText "/proj", "docs/project_context.txt", Rules.standard⟩
    documentedProject.LinkFree ∧
      ∃ n summary made artifact, job.outputPath.fileName? = some n ∧
        job.rules.accepts n.display = false ∧
        (job.run documentedProject).result = .ok summary ∧
        job.Completes documentedProject made artifact summary ∧
        (job.entries made artifact).map (fun entry => entry.candidate.display) =
          ["./a.c", "./docs/b.md"] ∧
        ∀ entry ∈ job.entries made artifact,
          ¬ entry.candidate.IsAt made job.root artifact ∧
            made.locate .use entry.candidate.path ≠ .ok artifact := by
  intro job
  let n : Name := ⟨Bytes.ofText artifactName, by decide +kernel⟩
  have hfree : documentedProject.LinkFree :=
    FileSystem.linkFree_of_hasLink (by decide +kernel)
  have hname : job.outputPath.fileName? = some n := by
    decide +kernel
  have hrejects : job.rules.accepts n.display = false := by
    decide +kernel
  have hopens : documentedProject.opensFile job.outputPath = true := by
    decide +kernel
  have hdisplays : ((documentedProject.create job.outputPath).toOption.all fun opened =>
      decide ((opened.1.candidates job.rules job.root).map Candidate.display =
        ["./a.c", "./docs/b.md"])) = true := by
    decide +kernel
  obtain ⟨summary, hresult⟩ := (job.dependsOnOpening_run documentedProject).completes hopens
  obtain ⟨made, artifact, hrun, hnone⟩ :=
    (artifact_not_among_entries hfree).1 job n summary hname hrejects hresult
  simp only [hrun.create, Except.toOption, Option.all_some, decide_eq_true_eq] at hdisplays
  rw [← hrun.candidates, List.map_map] at hdisplays
  exact ⟨hfree, n, summary, made, artifact, hname, hrejects, hresult, hrun, hdisplays, hnone⟩

/-- Under a name that the rules accept, the artifact of an empty directory is packed. -/
theorem artifact_packed_under_accepted_name :
    let job : Job := ⟨Path.ofText "/", "out.txt", Rules.standard⟩
    FileSystem.bare.LinkFree ∧
      ∃ summary made artifact, (job.run FileSystem.bare).result = .ok summary ∧
        job.Completes FileSystem.bare made artifact summary ∧ summary.packed = ["./out.txt"] ∧
        ∃ entry ∈ job.entries made artifact, entry.candidate.IsAt made job.root artifact ∧
          made.locate .use entry.candidate.path = .ok artifact := by
  intro job
  let n : Name := ⟨Bytes.ofText "out.txt", by decide +kernel⟩
  have hfree : FileSystem.bare.LinkFree :=
    FileSystem.linkFree_of_hasLink (by decide +kernel)
  have hopens : FileSystem.bare.opensFile job.outputPath = true := by
    decide +kernel
  have hmade : ((FileSystem.bare.create job.outputPath).toOption.all fun opened =>
      decide (opened.2 = [n] ∧ opened.1.locate .use job.root = .ok [] ∧
        opened.1.locate .use (Path.ofText "/out.txt") = .ok [n] ∧
        opened.1.candidates job.rules job.root = [Candidate.below job.root [n]] ∧
        (Job.summary job.outputPath (job.entries opened.1 opened.2)).packed = ["./out.txt"])) =
          true := by
    decide +kernel
  obtain ⟨summary, hresult⟩ := (job.dependsOnOpening_run FileSystem.bare).completes hopens
  obtain ⟨made, artifact, hrun⟩ := exists_completes hresult
  simp only [hrun.create, Except.toOption, Option.all_some, decide_eq_true_eq] at hmade
  obtain ⟨rfl, hroot, hpath, hcandidates, hpacked⟩ := hmade
  have hmem : Candidate.below job.root [n] ∈ (job.entries made [n]).map Entry.candidate := by
    rw [hrun.candidates, hcandidates]
    exact List.mem_singleton_self _
  obtain ⟨entry, hentry, hcandidate⟩ := List.mem_map.1 hmem
  refine ⟨hfree, summary, made, [n], hresult, hrun, ?_, entry, hentry, ?_, ?_⟩
  · rw [hrun.summary]
    exact hpacked
  · exact ⟨[], [n], hroot, hcandidate, rfl⟩
  · rw [hcandidate]
    exact hpath

end Job

end TreePack
