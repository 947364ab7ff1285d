import Mathlib.Tactic
import TreePack.FileSystem.Edit
import TreePack.Proofs.Accounting
import TreePack.Proofs.Frame
import TreePack.Proofs.Sight
import TreePack.Proofs.Unaffected

/-!
# One file and the others

Two trees that differ in the contents or the permissions of one regular file are seen alike, so they
have the same survey and a path of the artifact leads to the same place in both.  If that place is
not the file itself, the trees still differ in this file alone once the artifact is open, and while
it is written they change there alone.  So what one run makes of a candidate the other makes of it
too, unless the candidate leads to the file; whether the file can be read, and what is in it, shows
nowhere else.
-/

namespace TreePack

namespace FileSystem

/-- Both trees have a regular file at this location.  They may differ in its contents and in its
permissions, and in nothing else. -/
structure DifferInFile (f : Location) (fs other : FileSystem) : Prop where
  workingDir : other.workingDir = fs.workingDir
  file : ∃ mode data, fs.node? f = some (.file mode data)
  otherFile : ∃ mode data, other.node? f = some (.file mode data)
  elsewhere : ∀ location, location ≠ f →
    (other.node? location).map Node.surface = (fs.node? location).map Node.surface

/-- Any change of a file into another file, in its place, gives such a pair of trees. -/
theorem differInFile_update {fs : FileSystem} {f : Location} {mode mode' : Mode}
    {data data' : Bytes} {g : Node → Node} (hg : ∀ node, node.WellFormed → (g node).WellFormed)
    (hfile : fs.node? f = some (.file mode data))
    (hchange : g (.file mode data) = .file mode' data') :
    DifferInFile f fs (fs.update f g hg) := by
  have hself : (fs.update f g hg).node? f = some (.file mode' data') := by
    have hnode : fs.root.get? f = some (.file mode data) := hfile
    have hupdated := Node.get?_update_self g f fs.root
    rw [hnode, Option.map_some, hchange] at hupdated
    exact hupdated
  refine ⟨rfl, ⟨mode, data, hfile⟩, ⟨mode', data', hself⟩, ?_⟩
  intro location hne
  by_cases hbelow : f <+: location
  · -- There is nothing below a file.
    obtain ⟨rest, rfl⟩ := hbelow
    obtain ⟨n, tail, rfl⟩ := List.exists_cons_of_ne_nil (l := rest) (by simpa using hne)
    rw [node?_append, node?_append, hself, hfile]
    simp [Node.get?, Node.entry?]
  · exact Node.surface_get?_update_elsewhere g hbelow fs.root

section DifferInFile

variable {f : Location} {fs other : FileSystem} (hdiffer : DifferInFile f fs other)

include hdiffer

theorem DifferInFile.sight_eq : other.sight = fs.sight := by
  funext location
  unfold sight
  by_cases hf : location = f
  · obtain ⟨mode, data, hfile⟩ := hdiffer.file
    obtain ⟨mode', data', hfile'⟩ := hdiffer.otherFile
    rw [hf, hfile, hfile']
    rfl
  · have hsame := congrArg (Option.map Node.outline) (hdiffer.elsewhere location hf)
    simpa [Option.map_map, Function.comp_def] using hsame

/-- What is picked for packing is the same, and so is what is reported of the survey. -/
theorem DifferInFile.survey_eq (rules : Rules) (root : Path) :
    other.survey rules root = fs.survey rules root :=
  survey_of_sight hdiffer.sight_eq hdiffer.workingDir rules root

theorem DifferInFile.readCandidate_eq {c : Candidate} (hc : fs.locate .use c.path ≠ .ok f) :
    other.readCandidate c = fs.readCandidate c := by
  have hstat : (other.stat c.path).map Node.surface = (fs.stat c.path).map Node.surface := by
    apply map_stat_congr (locate_congr hdiffer.sight_eq hdiffer.workingDir .use c.path)
    intro location hlocate
    apply hdiffer.elsewhere
    rintro rfl
    exact hc hlocate
  unfold readCandidate
  rw [read_congr hstat]

end DifferInFile

/-! ## Opening the artifact -/

/-- What is at the place of an artifact once it is open. -/
def openedNode : Option Node → Node
  | none => .file .ordinaryFile []
  | some (.file mode _) => .file mode []
  | some node => node

theorem surface_openedNode_congr {node node' : Option Node}
    (hsame : node'.map Node.surface = node.map Node.surface) :
    (openedNode node').surface = (openedNode node).surface := by
  cases node <;> cases node' <;> simp only [Option.map_some, Option.map_none, reduceCtorEq,
    Option.some.injEq] at hsame
  case none.none => rfl
  case some.some node node' =>
    cases node <;> cases node' <;> simp_all [openedNode, Node.surface]

section Opening

variable {fs made : FileSystem} {p : Path} {artifact : Location}
  (hcreate : fs.create p = .ok (made, artifact))

include hcreate

theorem node?_of_create : made.node? artifact = some (openedNode (fs.node? artifact)) := by
  cases creates_of_create hcreate with
  | makes _ hdir hfree =>
      rw [node?_insert_new hdir hfree, node?_entry hdir, hfree]
      rfl
  | empties _ hold _ =>
      rw [node?_setData_self hold, hold]
      rfl
  | @opens _ node _ hnode _ hnotFile _ =>
      rw [hnode]
      cases node <;> simp_all [openedNode, Node.isFile]

/-- The place of the artifact can be told from where its path leads before. -/
theorem resolve_of_create :
    ∃ place, fs.resolve .make p = .ok place ∧
      (place = .found artifact ∨
        ∃ dir n, place = .vacant dir n ∧ artifact = dir ++ [n] ∧ fs.node? artifact = none) := by
  cases creates_of_create hcreate with
  | @makes dir n _ _ hplace hdir hfree =>
      refine ⟨_, hplace, .inr ⟨dir, n, rfl, rfl, ?_⟩⟩
      rw [node?_entry hdir, hfree]
  | empties hplace _ _ => exact ⟨_, hplace, .inl rfl⟩
  | opens hplace => exact ⟨_, hplace, .inl rfl⟩

/-- What is there before, and is not what the path of the artifact leads to, is not the artifact. -/
theorem artifact_ne_of_create {f : Location} {node : Node} (hnode : fs.node? f = some node)
    (hp : fs.locate .use p ≠ .ok f) :
    artifact ≠ f := by
  rintro rfl
  obtain ⟨place, hplace, rfl | ⟨dir, n, rfl, _, hnone⟩⟩ := resolve_of_create hcreate
  · exact hp (locate_use_of_make hplace)
  · rw [hnode] at hnone
    contradiction

end Opening

section DifferInFile

variable {f : Location} {fs other made made' : FileSystem} {p : Path}
  {artifact artifact' : Location} (hdiffer : DifferInFile f fs other)

include hdiffer

theorem DifferInFile.same_artifact (hcreate : fs.create p = .ok (made, artifact))
    (hcreate' : other.create p = .ok (made', artifact')) :
    artifact' = artifact := by
  obtain ⟨place, hplace, hwhere⟩ := resolve_of_create hcreate
  obtain ⟨place', hplace', hwhere'⟩ := resolve_of_create hcreate'
  rw [resolve_congr hdiffer.sight_eq hdiffer.workingDir, hplace] at hplace'
  cases hplace'
  rcases hwhere with rfl | ⟨dir, n, rfl, hartifact, _⟩
  · rcases hwhere' with hfound | ⟨dir, n, hvacant, _⟩
    · cases hfound
      rfl
    · contradiction
  · rcases hwhere' with hfound | ⟨dir', n', hvacant, hartifact', _⟩
    · contradiction
    · cases hvacant
      rw [hartifact, hartifact']

theorem DifferInFile.artifact_ne (hp : fs.locate .use p ≠ .ok f)
    (hcreate : fs.create p = .ok (made, artifact)) :
    artifact ≠ f := by
  obtain ⟨mode, data, hfile⟩ := hdiffer.file
  exact artifact_ne_of_create hcreate hfile hp

/-- Trees that differ in one file still do once another one has been opened in both. -/
theorem DifferInFile.opened (hp : fs.locate .use p ≠ .ok f)
    (hcreate : fs.create p = .ok (made, artifact))
    (hcreate' : other.create p = .ok (made', artifact)) :
    DifferInFile f made made' := by
  have hmade := madeAt_of_create hcreate
  have hmade' := madeAt_of_create hcreate'
  have hne : f ≠ artifact := (hdiffer.artifact_ne hp hcreate).symm
  obtain ⟨mode, data, hfile⟩ := hdiffer.file
  obtain ⟨mode', data', hfile'⟩ := hdiffer.otherFile
  have hkept : made.node? f = some (.file mode data) := by
    rw [← hfile]
    exact node?_eq_of_surface (hmade.elsewhere f hne) (by simp [hfile, Node.isDir])
  have hkept' : made'.node? f = some (.file mode' data') := by
    rw [← hfile']
    exact node?_eq_of_surface (hmade'.elsewhere f hne) (by simp [hfile', Node.isDir])
  refine ⟨?_, ⟨mode, data, hkept⟩, ⟨mode', data', hkept'⟩, ?_⟩
  · rw [hmade.workingDir, hmade'.workingDir, hdiffer.workingDir]
  · intro location hf
    by_cases hartifact : location = artifact
    · subst location
      rw [node?_of_create hcreate, node?_of_create hcreate', Option.map_some, Option.map_some,
        surface_openedNode_congr (hdiffer.elsewhere artifact hf)]
    · rw [hmade.elsewhere location hartifact, hmade'.elsewhere location hartifact]
      exact hdiffer.elsewhere location hf

end DifferInFile

end FileSystem

/-! ## Two runs -/

namespace FileSystem

/-- What a candidate adds to the artifact: its record, or nothing. -/
def contribution (fs : FileSystem) (c : Candidate) : Bytes :=
  match fs.readCandidate c with
  | .ok file => Bytes.ofText file.record
  | .error _ => []

theorem artifactBytes_split (fs : FileSystem) (before after : List Candidate) (c : Candidate) :
    artifactBytes (fs.filesRead (before ++ c :: after)) =
      artifactBytes (fs.filesRead before) ++ fs.contribution c ++
        recordBytes (fs.filesRead after) := by
  unfold artifactBytes contribution
  rw [filesRead_append, recordBytes_append]
  cases hread : fs.readCandidate c with
  | error reason =>
      rw [filesRead_cons_of_error hread, List.append_nil, List.append_assoc]
  | ok file =>
      rw [filesRead_cons_of_ok hread, recordBytes_cons]
      simp only [List.append_assoc]

section DifferInFile

variable {f : Location} {fs other : FileSystem} (hdiffer : DifferInFile f fs other)
  {candidates : List Candidate} (hclear : ∀ c ∈ candidates, fs.locate .use c.path ≠ .ok f)

include hdiffer hclear

theorem DifferInFile.filesRead_eq : other.filesRead candidates = fs.filesRead candidates := by
  unfold filesRead
  apply List.filterMap_congr
  intro c hc
  rw [hdiffer.readCandidate_eq (hclear c hc)]

theorem DifferInFile.told_eq : other.told candidates = fs.told candidates := by
  unfold told
  congr 1
  apply List.map_congr_left
  intro c hc
  unfold progress
  rw [hdiffer.readCandidate_eq (hclear c hc)]

end DifferInFile

end FileSystem

namespace Job

variable {job : Job} {fs made : FileSystem} {artifact : Location} {summary : Summary}

/-- A run that completes and never reads its artifact reads every candidate as it was when the
artifact was opened. -/
theorem Completes.entries_eq (hrun : job.Completes fs made artifact summary)
    (hclear : ∀ c ∈ made.candidates job.rules job.root, made.locate .use c.path ≠ .ok artifact) :
    job.entries made artifact = made.outcomes (made.candidates job.rules job.root) := by
  have houtcomes : ∀ entry ∈ job.entries made artifact,
      entry.outcome = made.readCandidate entry.candidate :=
    FileSystem.packEach_outcomes .unchanged rfl hclear
  have hself : ∀ entry ∈ job.entries made artifact,
      (⟨entry.candidate, made.readCandidate entry.candidate⟩ : Entry) = entry := by
    intro entry hentry
    rw [← houtcomes entry hentry]
  rw [← hrun.candidates]
  unfold FileSystem.outcomes
  rw [List.map_map, Function.comp_def, List.map_congr_left hself, List.map_id']

theorem Completes.output_eq (hrun : job.Completes fs made artifact summary)
    (hclear : ∀ c ∈ made.candidates job.rules job.root, made.locate .use c.path ≠ .ok artifact) :
    (job.run fs).output = made.told (made.candidates job.rules job.root) := by
  apply FileSystem.output_of_outcomes
  rw [hrun.lines, hrun.entries_eq hclear]

theorem Completes.artifact_eq (hrun : job.Completes fs made artifact summary)
    (hclear : ∀ c ∈ made.candidates job.rules job.root, made.locate .use c.path ≠ .ok artifact)
    {mode : Mode} {data : Bytes} (hfile : made.node? artifact = some (.file mode data)) :
    (job.run fs).files.node? artifact =
      some (.file mode (artifactBytes (made.filesRead (made.candidates job.rules job.root)))) := by
  rw [run_eq_completed hrun.create hfile]
  simp only [completed, hrun.entries_eq hclear, FileSystem.filterMap_packed?_outcomes]
  exact FileSystem.node?_setData_self hfile _

/-- Whether one file can be read, and what is in it, changes nothing about what is found, and
changes what becomes of no candidate but those that lead to the file.  If only one does, the two
artifacts have the same text before and after what this candidate adds to them, and the same is
printed before and after its line. -/
theorem run_isolates_file {f : Location} {fs other : FileSystem}
    (hdiffer : FileSystem.DifferInFile f fs other) :
    (∀ rules root, other.candidates rules root = fs.candidates rules root ∧
        other.surveyEvents rules root = fs.surveyEvents rules root) ∧
      ∀ (job : Job) (summary summary' : Summary), fs.locate .use job.outputPath ≠ .ok f →
        (job.run fs).result = .ok summary → (job.run other).result = .ok summary' →
        (∀ made artifact, fs.create job.outputPath = .ok (made, artifact) →
          ∀ c ∈ made.candidates job.rules job.root, made.locate .use c.path ≠ .ok artifact) →
        ∃ made made' artifact, job.Completes fs made artifact summary ∧
          job.Completes other made' artifact summary' ∧
          List.Forall₂ (fun entry entry' => entry'.candidate = entry.candidate ∧
              (made.locate .use entry.candidate.path ≠ .ok f → entry'.outcome = entry.outcome))
            (job.entries made artifact) (job.entries made' artifact) ∧
          ∀ before c after, made.candidates job.rules job.root = before ++ c :: after →
            (∀ d ∈ before ++ after, made.locate .use d.path ≠ .ok f) →
            (job.run fs).output = made.told before ++ made.told [c] ++ made.told after ∧
            (job.run other).output = made.told before ++ made'.told [c] ++ made.told after ∧
            ∀ mode data, made.node? artifact = some (.file mode data) →
              (job.run fs).files.node? artifact =
                some (.file mode (artifactBytes (made.filesRead before) ++ made.contribution c ++
                  recordBytes (made.filesRead after))) ∧
              (job.run other).files.node? artifact =
                some (.file mode (artifactBytes (made.filesRead before) ++ made'.contribution c ++
                  recordBytes (made.filesRead after))) := by
  constructor
  · intro rules root
    have hsurvey := hdiffer.survey_eq rules root
    exact ⟨FileSystem.candidates_of_survey_eq hsurvey,
      FileSystem.surveyEvents_of_survey_eq hsurvey⟩
  · intro job summary summary' houtput hresult hresult' hreads
    obtain ⟨made, artifact, hrun⟩ := exists_completes hresult
    obtain ⟨made', artifact', hrun'⟩ := exists_completes hresult'
    obtain rfl := hdiffer.same_artifact hrun.create hrun'.create
    have hopened := hdiffer.opened houtput hrun.create hrun'.create
    have hcandidates := FileSystem.candidates_of_survey_eq (hopened.survey_eq job.rules job.root)
    have hclear := hreads made artifact' hrun.create
    have hclear' : ∀ c ∈ made'.candidates job.rules job.root,
        made'.locate .use c.path ≠ .ok artifact' := by
      intro c hc
      rw [hcandidates] at hc
      rw [FileSystem.locate_congr hopened.sight_eq hopened.workingDir]
      exact hclear c hc
    refine ⟨made, made', artifact', hrun, hrun', ?_, ?_⟩
    · rw [hrun.entries_eq hclear, hrun'.entries_eq hclear', hcandidates]
      unfold FileSystem.outcomes
      rw [List.forall₂_map_left_iff, List.forall₂_map_right_iff, List.forall₂_same]
      intro c _
      exact ⟨rfl, hopened.readCandidate_eq⟩
    · intro before c after hsplit hothers
      have hbefore : ∀ d ∈ before, made.locate .use d.path ≠ .ok f := by
        intro d hd
        exact hothers d (List.mem_append_left after hd)
      have hafter : ∀ d ∈ after, made.locate .use d.path ≠ .ok f := by
        intro d hd
        exact hothers d (List.mem_append_right before hd)
      refine ⟨?_, ?_, ?_⟩
      · rw [hrun.output_eq hclear, hsplit, List.append_cons, FileSystem.told_append,
          FileSystem.told_append]
      · rw [hrun'.output_eq hclear', hcandidates, hsplit, List.append_cons,
          FileSystem.told_append, FileSystem.told_append, hopened.told_eq hbefore,
          hopened.told_eq hafter]
      · intro mode data hfile
        have hfile' : made'.node? artifact' = some (.file mode data) := by
          have hne := hdiffer.artifact_ne houtput hrun.create
          rw [← hfile]
          exact FileSystem.node?_eq_of_surface (hopened.elsewhere artifact' hne)
            (by simp [hfile, Node.isDir])
        rw [hrun.artifact_eq hclear hfile, hrun'.artifact_eq hclear' hfile', hcandidates, hsplit,
          made.artifactBytes_split, made'.artifactBytes_split, hopened.filesRead_eq hbefore,
          hopened.filesRead_eq hafter]
        exact ⟨rfl, rfl⟩

/-- A project with a private file among files that can be packed and files that cannot. -/
def guardedProject : FileSystem :=
  FileSystem.built
    [(·.putFile (Path.ofText "/proj/a.c") (Bytes.ofText "int a;")),
      (·.putFile (Path.ofText "/proj/key.c") (Bytes.ofText "int key;")),
      (·.putFile (Path.ofText "/proj/src/bad.c") [0x6f, 0xff]),
      (·.putLink (Path.ofText "/proj/src/same.c") (Path.ofText "../a.c"))]

/-- Where the private file of this project lies. -/
def guardedFile : Location :=
  [FileSystem.projName, ⟨Bytes.ofText "key.c", by decide +kernel⟩]

def shutProject : FileSystem := guardedProject.setMode guardedFile ⟨0⟩

theorem differInFile_guardedProject :
    FileSystem.DifferInFile guardedFile guardedProject shutProject := by
  have hfile : guardedProject.node? guardedFile =
      some (.file .ordinaryFile (Bytes.ofText "int key;")) := by rfl
  exact FileSystem.differInFile_update (fun _ => Node.WellFormed.setMode ⟨0⟩) hfile rfl

theorem run_isolates_file_of_guardedProject :
    let job := Job.standard (Path.ofText "/proj")
    FileSystem.DifferInFile guardedFile guardedProject shutProject ∧
      guardedProject.locate .use job.outputPath ≠ .ok guardedFile ∧
      (∃ summary, (job.run guardedProject).result = .ok summary) ∧
      (∃ summary, (job.run shutProject).result = .ok summary) ∧
      (∀ made artifact, guardedProject.create job.outputPath = .ok (made, artifact) →
        ∀ c ∈ made.candidates job.rules job.root, made.locate .use c.path ≠ .ok artifact) ∧
      (job.run guardedProject).output =
        "Packed: ./a.c\n" ++ "Packed: ./key.c\n" ++
          ("Skipped ./src/bad.c due to error: 'utf-8' codec can't decode byte at position 1\n" ++
            "Packed: ./src/same.c\n") ∧
      (job.run shutProject).output =
        "Packed: ./a.c\n" ++ "Skipped ./key.c due to error: Permission denied (os error 13)\n" ++
          ("Skipped ./src/bad.c due to error: 'utf-8' codec can't decode byte at position 1\n" ++
            "Packed: ./src/same.c\n") := by
  intro job
  let before : List Candidate := [⟨Path.ofText "/proj/a.c", "./a.c"⟩]
  let c : Candidate := ⟨Path.ofText "/proj/key.c", "./key.c"⟩
  let after : List Candidate :=
    [⟨Path.ofText "/proj/src/bad.c", "./src/bad.c"⟩,
      ⟨Path.ofText "/proj/src/same.c", "./src/same.c"⟩]
  have hopens : guardedProject.opensFile job.outputPath = true := by
    decide +kernel
  have hopens' : shutProject.opensFile job.outputPath = true := by
    decide +kernel
  have houtput : guardedProject.locate .use job.outputPath ≠ .ok guardedFile := by
    decide +kernel
  have hmade : ((guardedProject.create job.outputPath).toOption.all fun opened =>
      decide (opened.1.candidates job.rules job.root = before ++ c :: after ∧
        (∀ d ∈ before ++ c :: after, opened.1.locate .use d.path ≠ .ok opened.2) ∧
        (∀ d ∈ before ++ after, opened.1.locate .use d.path ≠ .ok guardedFile) ∧
        opened.1.told before = "Packed: ./a.c\n" ∧ opened.1.told [c] = "Packed: ./key.c\n" ∧
        opened.1.told after =
          "Skipped ./src/bad.c due to error: 'utf-8' codec can't decode byte at position 1\n" ++
          "Packed: ./src/same.c\n")) = true := by
    decide +kernel
  have hmade' : ((shutProject.create job.outputPath).toOption.all fun opened =>
      decide (opened.1.told [c] =
        "Skipped ./key.c due to error: Permission denied (os error 13)\n")) = true := by
    decide +kernel
  obtain ⟨summary, hresult⟩ := (job.dependsOnOpening_run guardedProject).completes hopens
  obtain ⟨summary', hresult'⟩ := (job.dependsOnOpening_run shutProject).completes hopens'
  have hclear : ∀ made artifact, guardedProject.create job.outputPath = .ok (made, artifact) →
      ∀ c ∈ made.candidates job.rules job.root, made.locate .use c.path ≠ .ok artifact := by
    intro made artifact hcreate
    simp only [hcreate, Except.toOption, Option.all_some, decide_eq_true_eq] at hmade
    rw [hmade.1]
    exact hmade.2.1
  obtain ⟨made, made', artifact, hrun, hrun', _, hparts⟩ :=
    (run_isolates_file differInFile_guardedProject).2 job summary summary' houtput hresult hresult'
      hclear
  simp only [hrun.create, Except.toOption, Option.all_some, decide_eq_true_eq] at hmade
  simp only [hrun'.create, Except.toOption, Option.all_some, decide_eq_true_eq] at hmade'
  obtain ⟨hsplit, _, hothers, hbefore, hc, hafter⟩ := hmade
  obtain ⟨hout, hout', _⟩ := hparts before c after hsplit hothers
  rw [hbefore, hc, hafter] at hout
  rw [hbefore, hmade', hafter] at hout'
  exact ⟨differInFile_guardedProject, houtput, ⟨summary, hresult⟩, ⟨summary', hresult'⟩, hclear,
    hout, hout'⟩

end Job

end TreePack
