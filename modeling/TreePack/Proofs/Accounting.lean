import Mathlib.Tactic
import TreePack.FileSystem.Edit
import TreePack.Proofs.Completion

/-!
# Accounting for the candidates

A run tells what became of a candidate in four places: in the artifact, in its summary, in the lines
it prints and in the warnings among its events.  All four are views of one list, which holds each
candidate once.  If no candidate leads to the artifact, or if the artifact fits the buffer, this list
is what reading the candidates one by one gives in the tree that the run meets, so that each of the
four can be told from that tree.
-/

namespace TreePack

namespace Event

def isSkipping : Event → Bool
  | skipping _ _ => true
  | _ => false

end Event

theorem isSkipping_of_mem_surveyEvents {fs : FileSystem} {rules : Rules} {root : Path}
    {event : Event} (hmem : event ∈ fs.surveyEvents rules root) :
    event.isSkipping = false := by
  unfold FileSystem.surveyEvents at hmem
  cases hsurvey : fs.survey rules root with
  | error e =>
      rw [hsurvey, List.mem_singleton] at hmem
      subst event
      rfl
  | ok visits =>
      rw [hsurvey, List.mem_filterMap] at hmem
      rcases hmem with ⟨visit, _, hevent⟩
      unfold Visit.event? at hevent
      cases hverdict : visit.verdict <;> simp [hverdict] at hevent <;> subst event <;> rfl

namespace FileSystem

variable (fs : FileSystem)

def packable (c : Candidate) : Bool := (fs.readCandidate c).toBool

def failures (candidates : List Candidate) : List (Candidate × SkipReason) :=
  candidates.filterMap fun c =>
    match fs.readCandidate c with
    | .ok _ => none
    | .error reason => some (c, reason)

def progress (c : Candidate) : String :=
  match fs.readCandidate c with
  | .ok _ => "Packed: " ++ c.display
  | .error reason => "Skipped " ++ c.display ++ " due to error: " ++ reason.message

/-- What is printed of these candidates. -/
def told (candidates : List Candidate) : String :=
  String.join (candidates.map fun c => fs.progress c ++ "\n")

theorem told_append (before after : List Candidate) :
    fs.told (before ++ after) = fs.told before ++ fs.told after := by
  unfold told
  simp only [String.join_eq, List.map_append, List.flatten_append, String.ofList_append]

theorem display_of_readCandidate {fs : FileSystem} {c : Candidate} {file : PackedFile}
    (hread : fs.readCandidate c = .ok file) : file.display = c.display := by
  unfold readCandidate PackedFile.ofBytes at hread
  split at hread
  next bytes _ =>
    split at hread
    next => cases hread; rfl
    next => contradiction
  next => contradiction

/-! ## Views of what becomes of the candidates -/

theorem packed_outcomes (candidates : List Candidate) :
    ((fs.outcomes candidates).filterMap fun entry => entry.packed?.map PackedFile.display) =
      (candidates.filter fs.packable).map Candidate.display := by
  unfold outcomes
  rw [List.filterMap_map, ← List.filterMap_eq_map, List.filterMap_filter]
  apply List.filterMap_congr
  intro c _
  cases hread : fs.readCandidate c with
  | error reason => simp [packable, hread, Except.toBool]
  | ok file =>
      have hdisplay := display_of_readCandidate hread
      simp [packable, hread, hdisplay, Except.toBool]

theorem filterMap_outcomes_eq_map_failures {α : Type} {view : Entry → Option α}
    {shown : Candidate × SkipReason → α}
    (hok : ∀ c file, view ⟨c, .ok file⟩ = none)
    (herror : ∀ c reason, view ⟨c, .error reason⟩ = some (shown (c, reason)))
    (candidates : List Candidate) :
    (fs.outcomes candidates).filterMap view = (fs.failures candidates).map shown := by
  unfold outcomes failures
  rw [List.filterMap_map, List.map_filterMap]
  apply List.filterMap_congr
  intro c _
  cases hread : fs.readCandidate c with
  | error reason => simp [hread, herror]
  | ok file => simp [hread, hok]

theorem skipped_outcomes (candidates : List Candidate) :
    (fs.outcomes candidates).filterMap Entry.skipped? =
      (fs.failures candidates).map fun failure => (failure.1.display, failure.2) := by
  apply filterMap_outcomes_eq_map_failures
  · intro c file
    rfl
  · intro c reason
    rfl

theorem event?_outcomes (candidates : List Candidate) :
    (fs.outcomes candidates).filterMap Entry.event? =
      (fs.failures candidates).map fun failure => .skipping failure.1.display failure.2 := by
  apply filterMap_outcomes_eq_map_failures
  · intro c file
    rfl
  · intro c reason
    rfl

theorem line_outcomes (candidates : List Candidate) :
    ((fs.outcomes candidates).map Entry.line).map Line.text = candidates.map fs.progress := by
  unfold outcomes
  rw [List.map_map, List.map_map]
  apply List.map_congr_left
  intro c _
  simp only [Function.comp, Entry.line, progress]
  cases hread : fs.readCandidate c with
  | error reason => rfl
  | ok file =>
      have hdisplay := display_of_readCandidate hread
      exact congrArg (fun display => "Packed: " ++ display) hdisplay

theorem output_of_outcomes {report : Report} {fs : FileSystem} {done : List Candidate}
    (hlines : report.lines = (fs.outcomes done).map Entry.line) :
    report.output = fs.told done := by
  have htexts := congrArg (List.map fun text => text ++ "\n") (fs.line_outcomes done)
  unfold Report.output told
  rw [hlines]
  simp only [List.map_map, Function.comp_def] at htexts ⊢
  rw [htexts]

theorem length_packable_add_failures (candidates : List Candidate) :
    (candidates.filter fs.packable).length + (fs.failures candidates).length =
      candidates.length := by
  induction candidates with
  | nil => rfl
  | cons c rest ih =>
      unfold failures at ih ⊢
      cases hread : fs.readCandidate c with
      | error reason =>
          have hpackable : fs.packable c = false := by
            simp [packable, hread, Except.toBool]
          rw [List.filter_cons_of_neg (by simp [hpackable])]
          simp only [List.filterMap_cons, hread, List.length_cons]
          omega
      | ok file =>
          have hpackable : fs.packable c = true := by
            simp [packable, hread, Except.toBool]
          rw [List.filter_cons_of_pos hpackable]
          simp only [List.filterMap_cons, hread, List.length_cons]
          omega

end FileSystem

/-! ## The run as a whole -/

namespace Job

theorem filter_isSkipping_eventsUpTo (job : Job) (base : FileSystem) (entries : List Entry)
    (files skips : ℕ) :
    (job.eventsUpTo base entries ++ [Event.packed files skips]).filter Event.isSkipping =
      entries.filterMap Entry.event? := by
  have hsurvey : (base.surveyEvents job.rules job.root).filter Event.isSkipping = [] := by
    rw [List.filter_eq_nil_iff]
    intro event hmem
    simp [isSkipping_of_mem_surveyEvents hmem]
  have hentries : (entries.filterMap Entry.event?).filter Event.isSkipping =
      entries.filterMap Entry.event? := by
    rw [List.filter_eq_self]
    intro event hmem
    rw [List.mem_filterMap] at hmem
    rcases hmem with ⟨entry, _, hevent⟩
    unfold Entry.event? at hevent
    cases houtcome : entry.outcome with
    | ok file => simp [houtcome] at hevent
    | error reason =>
        simp only [houtcome, Option.some.injEq] at hevent
        subst event
        rfl
  unfold eventsUpTo
  simp only [List.cons_append, List.filter_cons, List.filter_append, hsurvey, hentries]
  simp [Event.isSkipping]

variable {job : Job} {fs base : FileSystem} {artifact : Location} {mode : Mode} {data : Bytes}

/-- A run that opens a regular file tells the same about every candidate in its artifact, in its
summary, in what it prints and in its warnings, and tells what the candidate was when the run met
it. -/
theorem run_accounts_for_candidates
    (hcreate : fs.create job.outputPath = .ok (base, artifact))
    (hfile : base.node? artifact = some (.file mode data))
    (hcase : (∀ c ∈ base.candidates job.rules job.root, base.locate .use c.path ≠ .ok artifact) ∨
      (artifactBytes (base.filesRead (base.candidates job.rules job.root))).length ≤
        Sink.capacity) :
    let candidates := base.candidates job.rules job.root
    ∃ summary, (job.run fs).result = .ok summary ∧
      (job.run fs).files.locate .use job.outputPath = .ok artifact ∧
      (job.run fs).files.node? artifact =
        some (.file mode (artifactBytes (base.filesRead candidates))) ∧
      summary.packed = (candidates.filter base.packable).map Candidate.display ∧
      summary.skipped =
        (base.failures candidates).map (fun failure => (failure.1.display, failure.2)) ∧
      (job.run fs).output =
        String.join (candidates.map fun c => base.progress c ++ "\n") ∧
      ((job.run fs).events.filter Event.isSkipping).map (fun e => (e.level, e.message)) =
        (base.failures candidates).map (fun failure =>
          (.warn, "skipping " ++ failure.1.display ++ ": " ++ failure.2.message)) ∧
      (candidates.filter base.packable).length + (base.failures candidates).length =
        candidates.length := by
  intro candidates
  have hopened := FileSystem.opened_of_create hcreate hfile
  rcases hopened.isEmpty with ⟨mode', hempty, _⟩
  have hentries : job.entries base artifact = base.outcomes candidates :=
    entries_eq_outcomes hempty hcase
  have hlocate := locate_outputPath_completed hopened
  rw [run_eq_completed hcreate hfile]
  refine ⟨_, rfl, hlocate, ?_, ?_, ?_, ?_, ?_, base.length_packable_add_failures candidates⟩
  · simp only [completed, hentries, FileSystem.filterMap_packed?_outcomes]
    exact FileSystem.node?_setData_self hfile _
  · simp only [summary, hentries]
    exact base.packed_outcomes candidates
  · simp only [summary, hentries]
    exact base.skipped_outcomes candidates
  · have hlines := base.line_outcomes candidates
    have htexts : (base.outcomes candidates).map (fun entry => entry.line.text ++ "\n") =
        candidates.map fun c => base.progress c ++ "\n" := by
      have hmapped := congrArg (List.map fun text => text ++ "\n") hlines
      simpa [List.map_map, Function.comp_def] using hmapped
    unfold Report.output
    simp only [completed, hentries, List.map_map, Function.comp_def]
    rw [htexts]
  · simp only [completed, filter_isSkipping_eventsUpTo, hentries]
    rw [base.event?_outcomes candidates, List.map_map]
    rfl

/-- A project with a file that can be packed, files that cannot, and a link to the artifact that is
packed itself. -/
def mixedProject : FileSystem :=
  FileSystem.built
    [(·.putFile (Path.ofText "/proj/a.c") (Bytes.ofText "int a;")),
      (·.putFile (Path.ofText "/proj/bad.c") [0x6f, 0xff]),
      (·.putLink (Path.ofText "/proj/gone.c") (Path.ofText "missing")),
      (·.putLink (Path.ofText "/proj/latest.md") (Path.ofText "project_context.txt")),
      (·.putFile (Path.ofText "/proj/secret.c") (Bytes.ofText "int s;")),
      (·.changeMode (Path.ofText "/proj/secret.c") ⟨0⟩)]

theorem run_accounts_for_candidates_of_mixedProject :
    let job := Job.standard (Path.ofText "/proj")
    ∃ base artifact mode data,
      mixedProject.create job.outputPath = .ok (base, artifact) ∧
        base.node? artifact = some (.file mode data) ∧
        (artifactBytes (base.filesRead (base.candidates job.rules job.root))).length ≤
          Sink.capacity ∧
        (job.run mixedProject).files.node? artifact = some (.file mode
          (artifactBytes (base.filesRead (base.candidates job.rules job.root)))) ∧
        ∃ summary, (job.run mixedProject).result = .ok summary ∧
          summary.packed = ["./a.c", "./latest.md"] ∧
          summary.skipped = [("./bad.c", .invalidUtf8 1), ("./gone.c", .io .notFound),
            ("./secret.c", .io .accessDenied)] := by
  intro job
  have hopens : mixedProject.opensFile job.outputPath = true := by
    decide +kernel
  have hfits : ((mixedProject.create job.outputPath).toOption.all fun opened =>
      decide ((artifactBytes (opened.1.filesRead
        (opened.1.candidates job.rules job.root))).length ≤ Sink.capacity)) = true := by
    decide +kernel
  have hpacked : ((mixedProject.create job.outputPath).toOption.all fun opened =>
      decide (((opened.1.candidates job.rules job.root).filter opened.1.packable).map
        Candidate.display = ["./a.c", "./latest.md"])) = true := by
    decide +kernel
  have hskipped : ((mixedProject.create job.outputPath).toOption.all fun opened =>
      decide ((opened.1.failures (opened.1.candidates job.rules job.root)).map
        (fun failure => (failure.1.display, failure.2)) =
          [("./bad.c", .invalidUtf8 1), ("./gone.c", .io .notFound),
            ("./secret.c", .io .accessDenied)])) = true := by
    decide +kernel
  rw [FileSystem.opensFile_eq_true_iff] at hopens
  rcases hopens with ⟨base, artifact, mode, data, hcreate, hfile⟩
  simp only [hcreate, Except.toOption, Option.all_some, decide_eq_true_eq] at hfits hpacked hskipped
  have haccounts := run_accounts_for_candidates hcreate hfile (.inr hfits)
  rcases haccounts with ⟨summary, hresult, _, hnode, hsummaryPacked, hsummarySkipped, _⟩
  rw [hpacked] at hsummaryPacked
  rw [hskipped] at hsummarySkipped
  exact ⟨base, artifact, mode, data, hcreate, hfile, hfits, hnode, summary, hresult,
    hsummaryPacked, hsummarySkipped⟩

end Job

end TreePack
