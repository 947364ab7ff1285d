import Mathlib.Tactic
import TreePack.Proofs.ArgumentForms
import TreePack.Proofs.Success
import TreePack.Shell.Program

/-!
# How the program ends

The arguments decide alone whether anything is packed.  If not, the tree stays as it is, and the
status says whether the arguments were understood.  If so, the program prints what packing the
working directory prints and leaves behind what it leaves behind, and the status says whether it
completed.  Files that were skipped and directories that could not be listed have no part in this.

The log setting has a part in neither.  It is read where all that is left to choose is what goes to
the error stream.
-/

namespace TreePack

/-! ## Packing the working directory -/

theorem packWorkingDir_ok_iff (fs : FileSystem) :
    (∃ summary, (packWorkingDir fs).result = .ok summary) ↔
      ∃ root made artifact, fs.workingPath = .ok root ∧
        fs.create (Job.standard root).outputPath = .ok (made, artifact) ∧
        made.HasRoom artifact := by
  cases hroot : fs.workingPath with
  | error e => simp [packWorkingDir, hroot]
  | ok root =>
      have hsame : (packWorkingDir fs).result = ((Job.standard root).run fs).result := by
        cases hresult : ((Job.standard root).run fs).result with
        | error failure =>
            rw [packWorkingDir_of_failed hroot hresult]
            exact hresult
        | ok summary =>
            rw [packWorkingDir_of_completed hroot hresult]
            exact hresult
      rw [hsame, Job.run_ok_iff]
      simp

def Event.isWalkProblem : Event → Bool
  | .walkProblem _ _ _ => true
  | _ => false

theorem Event.exists_walkProblem {events : List Event}
    (hany : events.any Event.isWalkProblem = true) :
    ∃ root path e, Event.walkProblem root path e ∈ events := by
  obtain ⟨event, hmem, hevent⟩ := List.any_eq_true.1 hany
  cases event with
  | walkProblem root path e => exact ⟨root, path, e, hmem⟩
  | _ => contradiction

/-! ## Lines of progress -/

theorem Line.exists_opening {line : Line} (hline : line ≠ .blank) :
    ∃ opening ∈ ["Packed: ", "Skipped ", "All files packed into: "], ∃ rest,
      line.text = opening ++ rest := by
  cases line with
  | packed display => exact ⟨"Packed: ", by simp, display, rfl⟩
  | skipped display reason =>
      refine ⟨"Skipped ", by simp, display ++ (" due to error: " ++ reason.message), ?_⟩
      rw [← String.append_assoc, ← String.append_assoc]
      rfl
  | blank => contradiction
  | closing output => exact ⟨"All files packed into: ", by simp, output.display, rfl⟩

/-- The text has no line in it that tells of packing. -/
def TellsNothing (text : String) : Prop :=
  ∀ line : Line, line ≠ .blank → ¬ line.text.toList <:+: text.toList

theorem tellsNothing_of_openings {text : String}
    (hnone : ∀ opening ∈ ["Packed: ", "Skipped ", "All files packed into: "],
      ¬ opening.toList <:+: text.toList) : TellsNothing text := by
  intro line hline hinfix
  obtain ⟨opening, hmem, rest, htext⟩ := Line.exists_opening hline
  rw [htext, String.toList_append] at hinfix
  exact hnone opening hmem ((List.prefix_append _ _).isInfix.trans hinfix)

namespace Program

theorem tellsNothing_empty : TellsNothing "" :=
  tellsNothing_of_openings (by decide +kernel)

theorem tellsNothing_flagText (flag : Flag) : TellsNothing (flagText flag) := by
  apply tellsNothing_of_openings
  cases flag <;> decide +kernel

/-! ## Exits -/

section Exits

variable (filter : LogFilter) (stamp : String) (records : List LogRecord) (report : Report)

theorem output_exitOf : (exitOf filter stamp records report).output = report.output := by
  unfold exitOf
  cases report.result <;> rfl

theorem files_exitOf : (exitOf filter stamp records report).files = report.files := by
  unfold exitOf
  cases report.result <;> rfl

theorem status_exitOf : (exitOf filter stamp records report).status =
    match report.result with
    | .ok _ => 0
    | .error _ => 1 := by
  unfold exitOf
  cases report.result <;> rfl

end Exits

section Runs

variable {arguments : List Bytes}

theorem run_of_accepts (haccepts : Invocation.Accepts arguments) (setting : Option Bytes)
    (stamp : String) (fs : FileSystem) :
    run arguments setting stamp fs = exitOf (LogFilter.ofSetting setting) stamp
      (logRecords fs (packWorkingDir fs)) (packWorkingDir fs) := by
  unfold run
  rw [(Invocation.ofArguments_eq_pack_iff arguments).2 haccepts]

/-- Arguments that are not accepted decide everything, and nothing happens to the tree. -/
theorem exists_run_eq (hnot : ¬ Invocation.Accepts arguments) :
    ∃ status output errors, TellsNothing output ∧
      (status = 0 ↔ ∃ flag, Invocation.AsksFor flag arguments) ∧ (status = 0 ∨ status = 2) ∧
      ∀ setting stamp fs, run arguments setting stamp fs = ⟨status, output, errors, fs⟩ := by
  cases hinvocation : Invocation.ofArguments arguments with
  | pack => exact absurd ((Invocation.ofArguments_eq_pack_iff arguments).1 hinvocation) hnot
  | «show» flag =>
      have hasks := (Invocation.ofArguments_eq_show_iff arguments flag).1 hinvocation
      refine ⟨0, flagText flag, "", tellsNothing_flagText flag, ?_, .inl rfl, ?_⟩
      · exact iff_of_true rfl ⟨flag, hasks⟩
      · intro setting stamp fs
        simp only [run, hinvocation]
  | refuse refusal =>
      refine ⟨2, "", refusalText refusal, tellsNothing_empty, ?_, .inr rfl, ?_⟩
      · refine iff_of_false (by decide) ?_
        rintro ⟨flag, hasks⟩
        rw [← Invocation.ofArguments_eq_show_iff, hinvocation] at hasks
        contradiction
      · intro setting stamp fs
        simp only [run, hinvocation]

end Runs

/-- The log setting changes nothing but the error stream.  Arguments that are not accepted change
nothing in the tree and print nothing of packing; the status is zero if they ask for help or for the
version, and otherwise two.  For accepted ones the program prints what packing the working directory
prints and leaves behind what it leaves behind.  The status is zero if this completes and otherwise
one, and it completes if the artifact can be opened and takes what is written to it, whatever has to
be skipped on the way. -/
theorem exits_by_arguments_and_tree (arguments : List Bytes) (fs : FileSystem) :
    (∀ setting setting' stamp stamp',
      let exit := run arguments setting stamp fs
      let exit' := run arguments setting' stamp' fs
      exit'.status = exit.status ∧ exit'.output = exit.output ∧ exit'.files = exit.files) ∧
    ∀ setting stamp,
      let exit := run arguments setting stamp fs
      (¬ Invocation.Accepts arguments →
        exit.files = fs ∧ TellsNothing exit.output ∧
        ((∃ flag, Invocation.AsksFor flag arguments) → exit.status = 0) ∧
        ((¬ ∃ flag, Invocation.AsksFor flag arguments) → exit.status = 2)) ∧
      (Invocation.Accepts arguments →
        let report := packWorkingDir fs
        exit.files = report.files ∧ exit.output = report.output ∧
        (∀ summary, report.result = .ok summary → exit.status = 0) ∧
        (∀ failure, report.result = .error failure → exit.status = 1) ∧
        (exit.status = 0 ↔ ∃ root made artifact, fs.workingPath = .ok root ∧
          fs.create (Job.standard root).outputPath = .ok (made, artifact) ∧
          made.HasRoom artifact)) := by
  by_cases haccepts : Invocation.Accepts arguments
  · have hrun := run_of_accepts haccepts
    have hok : ∀ setting stamp, (run arguments setting stamp fs).status = 0 ↔
        ∃ summary, (packWorkingDir fs).result = .ok summary := by
      intro setting stamp
      rw [hrun, status_exitOf]
      cases (packWorkingDir fs).result <;> simp
    constructor
    · intro setting setting' stamp stamp'
      simp only [hrun, status_exitOf, output_exitOf, files_exitOf, and_self]
    · intro setting stamp
      refine ⟨fun hnot => absurd haccepts hnot, fun _ => ?_⟩
      refine ⟨?_, ?_, ?_, ?_, ?_⟩
      · rw [hrun, files_exitOf]
      · rw [hrun, output_exitOf]
      · intro summary hresult
        exact (hok setting stamp).2 ⟨summary, hresult⟩
      · intro failure hresult
        rw [hrun, status_exitOf, hresult]
      · rw [hok, packWorkingDir_ok_iff]
  · obtain ⟨status, output, errors, htells, hasks, htwo, hrun⟩ := exists_run_eq haccepts
    constructor
    · intro setting setting' stamp stamp'
      simp only [hrun, and_self]
    · intro setting stamp
      refine ⟨fun _ => ?_, fun h => absurd h haccepts⟩
      rw [hrun]
      exact ⟨rfl, htells, hasks.2, fun hnone => htwo.resolve_left fun hzero => hnone (hasks.1 hzero)⟩

theorem exits_by_arguments_and_tree_of_strainedProject :
    let accepted := [Bytes.ofText "--"]
    let request := [Bytes.ofText "-hq", Bytes.ofText "x"]
    let refused := [Bytes.ofText "--output"]
    let silent := some (Bytes.ofText "off")
    let garbled := some (Bytes.ofText "=info")
    let packed := run accepted silent "" strainedProject
    Invocation.Accepts accepted ∧ ¬ Invocation.Accepts request ∧ ¬ Invocation.Accepts refused ∧
      (∃ flag, Invocation.AsksFor flag request) ∧
      (¬ ∃ flag, Invocation.AsksFor flag refused) ∧
      (∃ summary, (packWorkingDir strainedProject).result = .ok summary ∧
        summary.skipped.length = 4) ∧
      (∃ root path e, Event.walkProblem root path e ∈ (packWorkingDir strainedProject).events) ∧
      packed.status = 0 ∧ packed.output = (packWorkingDir strainedProject).output ∧
      (run accepted garbled "" strainedProject).status = packed.status ∧
      (run accepted garbled "" strainedProject).output = packed.output ∧
      (run accepted garbled "" strainedProject).files = packed.files ∧
      (run request silent "" strainedProject).status = 0 ∧
      (run request silent "" strainedProject).files = strainedProject ∧
      (run refused silent "" strainedProject).status = 2 ∧
      (run refused silent "" strainedProject).files = strainedProject ∧
      TellsNothing (run refused silent "" strainedProject).output := by
  intro accepted request refused silent garbled packed
  have haccepts : Invocation.Accepts accepted := by decide +kernel
  have hrequest : ¬ Invocation.Accepts request := by decide +kernel
  have hrefused : ¬ Invocation.Accepts refused := by decide +kernel
  have hhelp : ∃ flag, Invocation.AsksFor flag request :=
    ⟨.help, _, _, rfl, .inr (by decide +kernel)⟩
  have hnone : ¬ ∃ flag, Invocation.AsksFor flag refused := by
    rintro ⟨flag, hasks⟩
    rw [← Invocation.ofArguments_eq_show_iff] at hasks
    cases flag <;> revert hasks <;> decide +kernel
  have hskipped : ∃ summary, (packWorkingDir strainedProject).result = .ok summary ∧
      summary.skipped.length = 4 := by
    decide +kernel
  have hproblem : (packWorkingDir strainedProject).events.any Event.isWalkProblem = true := by
    decide +kernel
  have hwalk := Event.exists_walkProblem hproblem
  obtain ⟨hsame, hends⟩ := exits_by_arguments_and_tree accepted strainedProject
  obtain ⟨-, houtput, hzero, -⟩ := (hends silent "").2 haccepts
  obtain ⟨hstatus, hprinted, hfiles⟩ := hsame silent garbled "" ""
  obtain ⟨hkept, -, hshown, -⟩ :=
    ((exits_by_arguments_and_tree request strainedProject).2 silent "").1 hrequest
  obtain ⟨hkept', htells, -, hmisused⟩ :=
    ((exits_by_arguments_and_tree refused strainedProject).2 silent "").1 hrefused
  obtain ⟨summary, hresult, hcount⟩ := hskipped
  exact ⟨haccepts, hrequest, hrefused, hhelp, hnone, ⟨summary, hresult, hcount⟩, hwalk,
    hzero summary hresult, houtput, hstatus, hprinted, hfiles, hshown hhelp, hkept,
    hmisused hnone, hkept', htells⟩

end Program

end TreePack
