import Mathlib.Data.String.Basic
import Mathlib.Tactic
import TreePack.FileSystem.Edit
import TreePack.Proofs.Writing

/-!
# How a run ends

A run that has opened its artifact as a regular file always completes.  Its report is then a
function of the tree right after the artifact was opened and of the place where the artifact lies:
what was in the file before is gone, and nothing that the survey or a read meets can stop the run.

A run that cannot open its artifact ends at once.  It reports why, and the tree is what it was.
Packing the working directory adds the closing lines to a run, and adds them only to a run that
completes.
-/

namespace TreePack

namespace Job

/-- What becomes of each candidate in a run that meets `base` once its artifact is open. -/
def entries (job : Job) (base : FileSystem) (artifact : Location) : List Entry :=
  (base.packEach ⟨artifact, Bytes.ofText introduction⟩
    (base.candidates job.rules job.root)).entries

/-- What such a run leaves behind if it completes. -/
def completed (job : Job) (base : FileSystem) (artifact : Location) : Report :=
  let entries := job.entries base artifact
  let files := base.setData artifact (artifactBytes (entries.filterMap Entry.packed?))
  let summary := summary (job.reported files) entries
  { files := files
    lines := entries.map Entry.line
    events := job.eventsUpTo base entries ++
      [.packed summary.packed.length summary.skipped.length]
    result := .ok summary }

section RegularFile

variable {job : Job} {fs base : FileSystem} {artifact : Location} {mode : Mode} {data : Bytes}

theorem introduction_ne_nil : Bytes.ofText introduction ≠ [] := by
  decide +kernel

theorem entries_eq_outcomes (hartifact : base.node? artifact = some (.file mode []))
    (hcase : (∀ c ∈ base.candidates job.rules job.root, base.locate .use c.path ≠ .ok artifact) ∨
      (artifactBytes (base.filesRead (base.candidates job.rules job.root))).length ≤
        Sink.capacity) :
    job.entries base artifact = base.outcomes (base.candidates job.rules job.root) := by
  have hstart := Sink.holds_start hartifact introduction_ne_nil
  exact FileSystem.packEach_entries hartifact hstart _ hcase

theorem fill_eq_completed (hartifact : base.node? artifact = some (.file mode [])) :
    job.fill base artifact = job.completed base artifact := by
  have hstart := Sink.holds_start hartifact introduction_ne_nil
  have hloop := FileSystem.packEach_holds hartifact hstart (base.candidates job.rules job.root)
  rcases hloop with ⟨_, sink, hsink, hholds⟩
  have hflush := hholds.flush_eq hartifact
  unfold fill
  simp only [hsink, hflush]
  rfl

theorem run_eq_completed (hcreate : fs.create job.outputPath = .ok (base, artifact))
    (hfile : base.node? artifact = some (.file mode data)) :
    job.run fs = job.completed base artifact := by
  have hopened := FileSystem.opened_of_create hcreate hfile
  rcases hopened.isEmpty with ⟨_, hempty, _⟩
  unfold run
  rw [hcreate]
  exact fill_eq_completed hempty

theorem locate_outputPath_completed (hopened : base.Opened job.outputPath artifact) :
    (job.completed base artifact).files.locate .use job.outputPath = .ok artifact := by
  have hlocate := FileSystem.locate_use_of_make hopened.leads
  rw [← hlocate]
  exact FileSystem.locate_setData base artifact _ .use job.outputPath

end RegularFile

theorem run_of_create_error {job : Job} {fs : FileSystem} {e : IoError}
    (hcreate : fs.create job.outputPath = .error e) :
    job.run fs = ⟨fs, [], [], .error (.creating job.outputPath e)⟩ := by
  unfold run
  rw [hcreate]

theorem run_of_create {job : Job} {fs made : FileSystem} {artifact : Location}
    (hcreate : fs.create job.outputPath = .ok (made, artifact)) :
    job.run fs = job.fill made artifact := by
  unfold run
  rw [hcreate]

theorem lines_fill (job : Job) (made : FileSystem) (artifact : Location) :
    (job.fill made artifact).lines = (job.entries made artifact).map Entry.line := by
  dsimp only [fill, entries]
  split
  next => rfl
  next => split <;> rfl

theorem exists_lines_run_eq (job : Job) (fs : FileSystem) :
    ∃ entries : List Entry, (job.run fs).lines = entries.map Entry.line := by
  unfold run
  cases fs.create job.outputPath with
  | error e => exact ⟨[], rfl⟩
  | ok opened => exact ⟨_, job.lines_fill opened.1 opened.2⟩

end Job

/-! ## Failures -/

/-- A report that says how the opening of `output` went: the run completed if it was opened as a
regular file, and had no effect if it could not be opened. -/
structure Report.DependsOnOpening (report : Report) (fs : FileSystem) (output : Path) : Prop where
  completes : fs.opensFile output = true → ∃ summary, report.result = .ok summary
  hasNoEffect : ∀ e, fs.create output = .error e →
    (∃ failure, report.result = .error failure ∧
      failure.chain = ["creating " ++ output.display, e.message]) ∧
    report.output = "" ∧ report.events = [] ∧ report.files = fs

theorem Job.dependsOnOpening_run (job : Job) (fs : FileSystem) :
    (job.run fs).DependsOnOpening fs job.outputPath := by
  constructor
  · intro hopens
    rw [FileSystem.opensFile_eq_true_iff] at hopens
    rcases hopens with ⟨base, artifact, mode, data, hcreate, hfile⟩
    rw [run_eq_completed hcreate hfile]
    exact ⟨_, rfl⟩
  · intro e hcreate
    rw [run_of_create_error hcreate]
    exact ⟨⟨_, rfl, rfl⟩, rfl, rfl, rfl⟩

theorem Entry.line_ne_blank (entry : Entry) : entry.line ≠ .blank := by
  unfold Entry.line
  cases entry.outcome <;> simp

theorem Entry.line_ne_closing (entry : Entry) (output : Path) : entry.line ≠ .closing output := by
  unfold Entry.line
  cases entry.outcome <;> simp

theorem Report.output_closing (report : Report) (output : Path) :
    Report.output { report with lines := report.lines ++ [.blank, .closing output] } =
      report.output ++ "\n" ++ "All files packed into: " ++ output.display ++ "\n" := by
  have hsplit : Report.output { report with lines := report.lines ++ [.blank, .closing output] } =
      report.output ++ String.join ([Line.blank, .closing output].map
        fun line => line.text ++ "\n") := by
    unfold Report.output
    simp only [String.join_eq, List.map_append, List.flatten_append, String.ofList_append]
  have hclosing : String.join ([Line.blank, .closing output].map fun line => line.text ++ "\n") =
      "" ++ ("" ++ "\n") ++ ("All files packed into: " ++ output.display ++ "\n") := rfl
  rw [hsplit, hclosing, String.empty_append, String.empty_append]
  rw [String.append_assoc, String.append_assoc, String.append_assoc, String.append_assoc]

section WorkingDir

variable {fs : FileSystem} {root : Path}

theorem packWorkingDir_of_completed (hroot : fs.workingPath = .ok root) {summary : Summary}
    (hresult : ((Job.standard root).run fs).result = .ok summary) :
    packWorkingDir fs =
      { (Job.standard root).run fs with
        lines := ((Job.standard root).run fs).lines ++ [.blank, .closing summary.output] } := by
  unfold packWorkingDir
  simp only [hroot, hresult]

theorem packWorkingDir_of_failed (hroot : fs.workingPath = .ok root) {failure : Failure}
    (hresult : ((Job.standard root).run fs).result = .error failure) :
    packWorkingDir fs = (Job.standard root).run fs := by
  unfold packWorkingDir
  simp only [hroot, hresult]

/-- Only the artifact makes a run fail.  Packing the working directory is such a run, and the blank
line and the closing line are printed after it exactly if it completed. -/
theorem fails_only_for_artifact (fs : FileSystem) :
    (∀ job : Job, (job.run fs).DependsOnOpening fs job.outputPath) ∧
      ∀ root, fs.workingPath = .ok root →
        (packWorkingDir fs).DependsOnOpening fs (Job.standard root).outputPath ∧
        (packWorkingDir fs).result = ((Job.standard root).run fs).result ∧
        (packWorkingDir fs).files = ((Job.standard root).run fs).files ∧
        (packWorkingDir fs).events = ((Job.standard root).run fs).events ∧
        (∀ summary, (packWorkingDir fs).result = .ok summary →
          (packWorkingDir fs).output = ((Job.standard root).run fs).output ++
            "\n" ++ "All files packed into: " ++ summary.output.display ++ "\n") ∧
        (∀ failure, (packWorkingDir fs).result = .error failure →
          (packWorkingDir fs).output = ((Job.standard root).run fs).output) ∧
        (Line.blank ∈ (packWorkingDir fs).lines ↔
          ∃ summary, (packWorkingDir fs).result = .ok summary) ∧
        ((∃ output, Line.closing output ∈ (packWorkingDir fs).lines) ↔
          ∃ summary, (packWorkingDir fs).result = .ok summary) := by
  constructor
  · intro job
    exact job.dependsOnOpening_run fs
  · intro root hroot
    have hinner := (Job.standard root).dependsOnOpening_run fs
    have hlines := (Job.standard root).exists_lines_run_eq fs
    rcases hlines with ⟨entries, hlines⟩
    have hblank : Line.blank ∉ entries.map Entry.line := by
      intro hmem
      rw [List.mem_map] at hmem
      rcases hmem with ⟨entry, _, hline⟩
      exact entry.line_ne_blank hline
    have hclosing : ∀ output, Line.closing output ∉ entries.map Entry.line := by
      intro output hmem
      rw [List.mem_map] at hmem
      rcases hmem with ⟨entry, _, hline⟩
      exact entry.line_ne_closing output hline
    cases hresult : ((Job.standard root).run fs).result with
    | error failure =>
        rw [packWorkingDir_of_failed hroot hresult]
        refine ⟨hinner, hresult, rfl, rfl, ?_, fun _ _ => rfl, ?_, ?_⟩
        · intro summary hsummary
          rw [hresult] at hsummary
          contradiction
        · simp [hlines, hblank, hresult]
        · simp [hlines, hclosing, hresult]
    | ok summary =>
        rw [packWorkingDir_of_completed hroot hresult]
        refine ⟨?_, hresult, rfl, rfl, ?_, ?_, ?_, ?_⟩
        · constructor
          · exact hinner.completes
          · intro e hcreate
            have hfailed := (hinner.hasNoEffect e hcreate).1
            rw [hresult] at hfailed
            rcases hfailed with ⟨failure, hfailure, _⟩
            contradiction
        · intro other hother
          have hsame : summary = other := Except.ok.inj (hresult.symm.trans hother)
          subst other
          exact Report.output_closing _ summary.output
        · intro failure hfailure
          rw [hresult] at hfailure
          contradiction
        · simp [hresult]
        · simp [hresult]

/-- A project, entered as the working directory, with files that cannot be read for different
reasons and a directory that lets nothing in. -/
def strainedProject : FileSystem :=
  (FileSystem.built
    [(·.putFile (Path.ofText "/proj/a.c") (Bytes.ofText "int a;")),
      (·.putFile (Path.ofText "/proj/bad.c") [0x6f, 0xff]),
      (·.putFile (Path.ofText "/proj/secret.c") (Bytes.ofText "int s;")),
      (·.putFile (Path.ofText "/proj/locked/in.c") []),
      (·.putLink (Path.ofText "/proj/loop.c") (Path.ofText "loop.c")),
      (·.putLink (Path.ofText "/proj/gone.c") (Path.ofText "missing")),
      (·.changeMode (Path.ofText "/proj/secret.c") ⟨0⟩),
      (·.changeMode (Path.ofText "/proj/locked") ⟨0⟩)]).enter
    [FileSystem.projName]

theorem fails_only_for_artifact_of_strainedProject :
    let shut : Job := ⟨Path.ofText "/proj", "locked/out.txt", Rules.standard⟩
    strainedProject.opensFile (Job.standard (Path.ofText "/proj")).outputPath = true ∧
      (∃ summary, (packWorkingDir strainedProject).result = .ok summary) ∧
      (∃ output, Line.closing output ∈ (packWorkingDir strainedProject).lines) ∧
      strainedProject.create shut.outputPath = .error .accessDenied ∧
      (∃ failure, (shut.run strainedProject).result = .error failure ∧
        failure.chain =
          ["creating /proj/locked/out.txt", "Permission denied (os error 13)"]) ∧
      (shut.run strainedProject).output = "" ∧
      (shut.run strainedProject).files = strainedProject := by
  intro shut
  have hroot : strainedProject.workingPath = .ok (Path.ofText "/proj") := by rfl
  have hopens : strainedProject.opensFile (Job.standard (Path.ofText "/proj")).outputPath = true := by
    decide +kernel
  have hrefused : strainedProject.create shut.outputPath = .error .accessDenied := by
    have hcheck : (match strainedProject.create shut.outputPath with
        | .error e => decide (e = .accessDenied)
        | .ok _ => false) = true := by
      decide +kernel
    split at hcheck
    next e hcreate => rw [hcreate, of_decide_eq_true hcheck]
    next => contradiction
  have hchain : ["creating " ++ shut.outputPath.display, IoError.accessDenied.message] =
      ["creating /proj/locked/out.txt", "Permission denied (os error 13)"] := by
    decide +kernel
  have hfails := fails_only_for_artifact strainedProject
  rcases hfails with ⟨hjobs, hworking⟩
  have hshut := (hjobs shut).hasNoEffect _ hrefused
  rw [hchain] at hshut
  have hstandard := hworking _ hroot
  have hcompleted := hstandard.1.completes hopens
  have hclosing := hstandard.2.2.2.2.2.2.2.2 hcompleted
  exact ⟨hopens, hcompleted, hclosing, hrefused, hshut.1, hshut.2.1, hshut.2.2.2⟩

end WorkingDir

end TreePack
