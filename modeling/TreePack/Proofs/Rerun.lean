import Mathlib.Tactic
import TreePack.Proofs.Completion

/-!
# Running a job again

A run starts by opening its artifact, which empties the file or makes it.  From then on the way to
the artifact is fixed: opening it again leads to the same file, whatever the file holds by then, and
gives the same tree.  So the whole report of a second run, with the tree it leaves behind, is the
report of the first.  It does not matter here whether the first run had to make the file, how many
links lead to it, or whether the survey meets it under a name that is packed.
-/

namespace TreePack

namespace Job

section RegularFile

variable {job : Job} {fs base : FileSystem} {artifact : Location} {mode : Mode} {data : Bytes}

theorem run_of_setData (hcreate : fs.create job.outputPath = .ok (base, artifact))
    (hfile : base.node? artifact = some (.file mode data)) (contents : Bytes) :
    job.run (base.setData artifact contents) = job.completed base artifact := by
  have hopened := FileSystem.opened_of_create hcreate hfile
  have hagain := FileSystem.create_again hopened contents
  exact run_eq_completed hagain hfile

/-- A run that opens a regular file does not depend on what a run before it left there.  The first
run completes, its artifact lies where the output path leads, and after any change to the contents
of the artifact a second run has the same report. -/
theorem run_again (hcreate : fs.create job.outputPath = .ok (base, artifact))
    (hfile : base.node? artifact = some (.file mode data)) :
    (∃ summary, (job.run fs).result = .ok summary) ∧
      (job.run fs).files.locate .use job.outputPath = .ok artifact ∧
      (∃ written, (job.run fs).files.node? artifact = some (.file mode written)) ∧
      (∀ contents, job.run ((job.run fs).files.setData artifact contents) = job.run fs) ∧
      job.run (job.run fs).files = job.run fs := by
  have hopened := FileSystem.opened_of_create hcreate hfile
  rw [run_eq_completed hcreate hfile]
  have hfiles : (job.completed base artifact).files = base.setData artifact
      (artifactBytes ((job.entries base artifact).filterMap Entry.packed?)) := rfl
  refine ⟨⟨_, rfl⟩, ?_, ?_, ?_, ?_⟩
  · exact locate_outputPath_completed hopened
  · rw [hfiles]
    exact ⟨_, FileSystem.node?_setData_self hfile _⟩
  · intro contents
    rw [hfiles, FileSystem.setData_setData]
    exact run_of_setData hcreate hfile contents
  · rw [hfiles]
    exact run_of_setData hcreate hfile _

end RegularFile

/-- A project whose artifact is reached through a link that leads nowhere yet, and then through
another link, both with names that are packed. -/
def aliasedProject : FileSystem :=
  FileSystem.built
    [(·.putFile (Path.ofText "/proj/a.c") (Bytes.ofText "int a;")),
      (·.makeDirs (Path.ofText "/proj/deep")),
      (·.putLink (Path.ofText "/proj/out.c") (Path.ofText "deep/real")),
      (·.putLink (Path.ofText "/proj/alias.c") (Path.ofText "out.c"))]

theorem run_again_of_aliasedProject :
    let job : Job := ⟨Path.ofText "/proj", "out.c", Rules.standard⟩
    (aliasedProject.stat job.outputPath).toBool = false ∧
      (job.run aliasedProject).lines =
        [.packed "./a.c", .packed "./alias.c", .packed "./out.c"] ∧
      ∃ base artifact mode data,
        aliasedProject.create job.outputPath = .ok (base, artifact) ∧
        base.node? artifact = some (.file mode data) ∧
        (job.run aliasedProject).files.locate .use job.outputPath = .ok artifact ∧
        (∀ contents, job.run ((job.run aliasedProject).files.setData artifact contents) =
          job.run aliasedProject) ∧
        job.run (job.run aliasedProject).files = job.run aliasedProject := by
  intro job
  have hdangling : (aliasedProject.stat job.outputPath).toBool = false := by
    decide +kernel
  have hopens : aliasedProject.opensFile job.outputPath = true := by
    decide +kernel
  have hlines : (job.run aliasedProject).lines =
      [.packed "./a.c", .packed "./alias.c", .packed "./out.c"] := by
    decide +kernel
  rw [FileSystem.opensFile_eq_true_iff] at hopens
  rcases hopens with ⟨base, artifact, mode, data, hcreate, hfile⟩
  have hagain := run_again hcreate hfile
  rcases hagain with ⟨_, hlocate, _, hcontents, hsame⟩
  exact ⟨hdangling, hlines, base, artifact, mode, data, hcreate, hfile, hlocate, hcontents, hsame⟩

end Job

end TreePack
