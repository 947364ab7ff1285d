import Mathlib.Tactic
import TreePack.Proofs.CanonicalPath
import TreePack.Proofs.Completion
import TreePack.Proofs.Correspondence
import TreePack.Proofs.Likeness

/-!
# Surveys and runs of trees that are alike

Two trees that are alike outside some directories have the same survey if these directories are
pruned and if every link met leads to a directory in both of them or in neither.  Two runs on such
trees keep in step if, besides, no candidate and no path of the artifact is resolved through these
directories.

With no directories at all, these are trees that hold the same entries.
-/

namespace TreePack.FileSystem

/-! ## Surveys -/

section Surveys

variable (dirs : Set Location) (fs other : FileSystem) (rules : Rules) (root : Path)
  (here : Location) (top : Node)

/-- A survey of the first tree meets the first node, and the second lies at the same place of the
other tree, outside. -/
inductive MetAlike : Path → Node → Path → Node → Prop
  | intro {trail : List Name} {node node' : Node} :
      fs.Meets rules root top trail node → (node.isDir = true → rules.Enters trail) →
      other.node? (here ++ trail) = some node' → Outside dirs (here ++ trail) →
      MetAlike (root.descend trail) node (root.descend trail) node'

variable {dirs fs other rules root here top} (halike : AlikeOutside dirs fs other)
  (hroot : fs.locate .use root = .ok here) (hstays : fs.StaysOutside dirs root)
  (htop : fs.node? here = some top)
  (hpruned : ∀ dir ∈ dirs, ∃ n, dir.getLast? = some n ∧ rules.prunes n.display = true)
  (hlinks : ∀ trail target, fs.Meets rules root top trail (.link target) →
    other.isDir (root.descend trail) = fs.isDir (root.descend trail))

include halike hroot hstays htop

theorem AlikeOutside.exists_top (hdir : top.isDir = true) :
    Outside dirs here ∧ ∃ top', other.node? here = some top' ∧ top'.isDir = true := by
  have hhere : Outside dirs here := by
    rw [locate_eq_ok_iff] at hroot
    exact hstays.stop (by simp) hroot
  have hsurface := halike.surface here hhere
  rw [htop] at hsurface
  obtain ⟨top', htop', hsame⟩ := Option.map_eq_some_iff.1 hsurface
  refine ⟨hhere, top', htop', ?_⟩
  rw [Node.isDir_eq_of_outline_eq (Node.outline_eq_of_surface_eq hsame), hdir]

omit hroot hstays in
include hpruned in
/-- Entries of directories that have been entered match: those outside are alike, and the others are
pruned. -/
theorem AlikeOutside.entries_match {trail : List Name} {mode mode' : Mode}
    {entries entries' : List (Name × Node)}
    (hmeets : fs.Meets rules root top trail (.dir mode entries)) (henters : rules.Enters trail)
    (hlist : fs.Listable (root.descend trail))
    (hnode' : other.node? (here ++ trail) = some (.dir mode' entries'))
    (houtside : Outside dirs (here ++ trail)) (n : Name) :
    Option.Rel (EntryMatches rules (MetAlike dirs fs other rules root here top)
      (root.descend trail) (root.descend trail) n) (entries.lookup n) (entries'.lookup n) := by
  have hnode : fs.node? (here ++ trail) = some (.dir mode entries) := hmeets.node?_eq htop
  have hchild := node?_entry hnode n
  have hchild' := node?_entry hnode' n
  by_cases hentry : Outside dirs (here ++ trail ++ [n])
  · have hsame := halike.surface _ hentry
    rw [hchild, hchild'] at hsame
    cases hlookup : entries.lookup n <;> cases hlookup' : entries'.lookup n <;>
      rw [hlookup, hlookup'] at hsame <;> simp only [Option.map_some, Option.map_none,
        reduceCtorEq, Option.some.injEq] at hsame
    case none.none => exact .none
    case some.some child child' =>
      have hisDir : child.isDir = child'.isDir :=
        Node.isDir_eq_of_outline_eq (Node.outline_eq_of_surface_eq hsame.symm)
      apply Option.Rel.some
      apply entryMatches_of_kept hisDir
      intro hkept
      have hdown := hmeets.entry henters hlist hlookup
      rw [← Path.descend_concat]
      apply MetAlike.intro hdown (rules.enters_of_kept hkept trail)
      · rw [← List.append_assoc, hchild', hlookup']
      · rw [← List.append_assoc]
        exact hentry
  · -- A step out of the common part leads to one of the directories themselves.
    have hmem := mem_of_not_outside_concat houtside hentry
    obtain ⟨m, hm, hprune⟩ := hpruned _ hmem
    obtain ⟨hdir, hdir'⟩ := halike.isDir _ hmem
    obtain rfl : n = m := by simpa using hm
    rw [hchild] at hdir
    rw [hchild'] at hdir'
    obtain ⟨child, hlookup, hisDir⟩ := (Option.any_eq_true _ _).1 hdir
    obtain ⟨child', hlookup', hisDir'⟩ := (Option.any_eq_true _ _).1 hdir'
    rw [hlookup, hlookup']
    exact .some (.inl ⟨hisDir, hisDir', hprune⟩)

include hpruned hlinks

theorem AlikeOutside.correspondence :
    Correspondence fs other rules (MetAlike dirs fs other rules root here top) := by
  intro p node q node' hmet
  obtain @⟨trail, node, node', hmeets, henters, hnode', houtside⟩ := hmet
  have hnode : fs.node? (here ++ trail) = some node := hmeets.node?_eq htop
  have hsurface := halike.surface _ houtside
  rw [hnode, hnode'] at hsurface
  simp only [Option.map_some, Option.some.injEq] at hsurface
  cases node <;> cases node' <;> simp only [Node.surface, reduceCtorEq] at hsurface
  case file.file => exact .file
  case link.link => exact .link (hlinks trail _ hmeets)
  case fifo.fifo => exact .fifo
  case device.device => exact .device
  case dir.dir =>
    have hbelow := hstays.descend hroot htop hmeets.get? (by simp) houtside
    apply Node.Matches.dir (halike.list hbelow)
    intro listed hlist n
    exact halike.entries_match htop hpruned hmeets (henters rfl) ⟨listed, hlist⟩ hnode' houtside n

/-- The surveys agree, visit by visit. -/
theorem AlikeOutside.survey_eq (hdir : top.isDir = true) :
    other.survey rules root = fs.survey rules root := by
  obtain ⟨hhere, top', htop', hdir'⟩ :=
    halike.exists_top hroot hstays htop hdir
  cases hinput : root.isStandardInput with
  | true => simp [survey, hinput]
  | false =>
      have hlocate := (halike.locate_eq hstays .use).trans hroot
      have hstat := (stat_eq_ok_iff fs root top).2 ⟨here, hroot, htop⟩
      have hstat' := (stat_eq_ok_iff other root top').2 ⟨here, hlocate, htop'⟩
      have hstart : MetAlike dirs fs other rules root here top root top root top' :=
        @MetAlike.intro dirs fs other rules root here top [] top top' .start
          (fun _ => rules.enters_nil) (by simpa using htop') (by simpa using hhere)
      have hvisits := (halike.correspondence hroot hstays htop hpruned hlinks).visits_eq
        (fs.wellFormed.get htop) (other.wellFormed.get htop') hstart (rootName root)
      rw [survey_eq_visits hinput hstat' hdir', survey_eq_visits hinput hstat hdir, hvisits]

end Surveys

theorem candidates_of_survey_eq {fs other : FileSystem} {rules : Rules} {root : Path}
    (hsurvey : other.survey rules root = fs.survey rules root) :
    other.candidates rules root = fs.candidates rules root := by
  unfold candidates
  rw [hsurvey]

theorem surveyEvents_of_survey_eq {fs other : FileSystem} {rules : Rules} {root : Path}
    (hsurvey : other.survey rules root = fs.survey rules root) :
    other.surveyEvents rules root = fs.surveyEvents rules root := by
  unfold surveyEvents
  rw [hsurvey]

/-! ## Runs -/

/-- Both trees are alike outside, and paths are resolved in the first as in `base`. -/
structure AlikeSince (dirs : Set Location) (base fs other : FileSystem) : Prop where
  alike : AlikeOutside dirs fs other
  sight : fs.sight = base.sight
  workingDir : fs.workingDir = base.workingDir

theorem writesAgree_alikeSince {dirs : Set Location} {artifact : Location}
    (houtside : Outside dirs artifact) (base : FileSystem) :
    WritesAgree (AlikeSince dirs base) artifact := by
  intro fs other hrel bytes
  obtain ⟨e, hx, hy⟩ | ⟨written, written', hx, hy, halike⟩ :=
    hrel.alike.write_agree houtside bytes
  · rw [hx, hy]
    exact .error e
  · obtain ⟨hsight, hdir⟩ := sight_of_write hx
    rw [hx, hy]
    exact .ok ⟨halike, hsight.trans hrel.sight, hdir.trans hrel.workingDir⟩

theorem AlikeSince.staysOutside {dirs : Set Location} {base fs other : FileSystem}
    (hrel : AlikeSince dirs base fs other) {p : Path} (hstays : base.StaysOutside dirs p) :
    fs.StaysOutside dirs p :=
  hstays.congr hrel.sight hrel.workingDir

theorem counterpart_of_staysOutside {dirs : Set Location} {base : FileSystem} {c : Candidate}
    (hstays : base.StaysOutside dirs c.path) :
    c.Counterpart (AlikeSince dirs base) c :=
  ⟨rfl, fun _ _ hrel => hrel.alike.read_eq (hrel.staysOutside hstays)⟩

end FileSystem

/-- The job tells the same of both trees and leaves the same artifact in the same place. -/
structure Job.RunsAlike (job : Job) (dirs : Set Location) (fs other : FileSystem) : Prop where
  result : (job.run other).result = (job.run fs).result
  lines : (job.run other).lines = (job.run fs).lines
  output : (job.run other).output = (job.run fs).output
  events : (job.run other).events = (job.run fs).events
  files : FileSystem.AlikeOutside dirs (job.run fs).files (job.run other).files
  artifact : ∀ made artifact, fs.create job.outputPath = .ok (made, artifact) →
    (∃ made', other.create job.outputPath = .ok (made', artifact)) ∧
      (job.run other).files.node? artifact = (job.run fs).files.node? artifact

namespace FileSystem

theorem node?_eq_of_surface {fs other : FileSystem} {location : Location}
    (hsurface : (other.node? location).map Node.surface = (fs.node? location).map Node.surface)
    (hnotDir : (fs.node? location).any Node.isDir = false) :
    other.node? location = fs.node? location := by
  cases hnode : fs.node? location <;> cases hnode' : other.node? location <;>
    rw [hnode, hnode'] at hsurface <;> simp only [Option.map_some, Option.map_none,
      reduceCtorEq, Option.some.injEq] at hsurface
  case some.some node node' =>
    rw [hnode] at hnotDir
    cases node <;> cases node' <;> simp_all [Node.surface, Node.isDir]

theorem MadeAt.not_dir_of_sight {fs made written : FileSystem} {artifact : Location}
    (hmade : fs.MadeAt made artifact) (hsight : written.sight = made.sight) :
    (written.node? artifact).any Node.isDir = false := by
  obtain ⟨node, hnode, hnotDir, _⟩ := hmade.deadEnd
  rw [any_isDir_of_sight (congrFun hsight artifact), hnode, Option.any_some, hnotDir]

/-- Runs on trees that are alike outside keep in step if the path of the artifact stays outside and
if, once the artifact is open, so does every candidate and the surveys agree. -/
theorem AlikeOutside.runsAlike {dirs : Set Location} {fs other : FileSystem} {job : Job}
    (halike : AlikeOutside dirs fs other) (hstays : fs.StaysOutside dirs job.outputPath)
    (hsurvey : ∀ made made' artifact, fs.create job.outputPath = .ok (made, artifact) →
      other.create job.outputPath = .ok (made', artifact) →
      AlikeOutside dirs made made' → Outside dirs artifact →
      made'.survey job.rules job.root = made.survey job.rules job.root)
    (hcandidates : ∀ made artifact, fs.create job.outputPath = .ok (made, artifact) →
      Outside dirs artifact →
      ∀ c ∈ made.candidates job.rules job.root, made.StaysOutside dirs c.path) :
    job.RunsAlike dirs fs other := by
  obtain ⟨e, hx, hy⟩ | ⟨⟨made, _⟩, ⟨made', artifact⟩, hx, hy, hmadeAlike, rfl, houtside⟩ :=
    halike.create_agree hstays
  · have hrun : job.run fs = _ := Job.run_of_create_error hx
    have hrun' : job.run other = _ := Job.run_of_create_error hy
    refine ⟨?_, ?_, ?_, ?_, ?_, ?_⟩
    · rw [hrun, hrun']
    · rw [hrun, hrun']
    · rw [hrun, hrun']
      rfl
    · rw [hrun, hrun']
    · rw [hrun, hrun']
      exact halike
    · intro made artifact hcreate
      rw [hx] at hcreate
      contradiction
  · simp only at hmadeAlike houtside
    have hmade := madeAt_of_create hx
    have hsame := hsurvey made made' _ hx hy hmadeAlike houtside
    have hpairs : List.Forall₂ (Candidate.Counterpart (AlikeSince dirs made))
        (made.candidates job.rules job.root) (made'.candidates job.rules job.root) := by
      rw [candidates_of_survey_eq hsame, List.forall₂_same]
      intro c hc
      exact counterpart_of_staysOutside (hcandidates made _ hx houtside c hc)
    have hparallel := Job.fill_parallel (writesAgree_alikeSince houtside made) hpairs
      ⟨hmadeAlike, rfl, rfl⟩
    have hrun : job.run fs = job.fill made artifact := Job.run_of_create hx
    have hrun' : job.run other = job.fill made' artifact := Job.run_of_create hy
    rw [← hrun, ← hrun'] at hparallel
    have hfiles := hparallel.files
    have hreported : job.reported (job.run other).files = job.reported (job.run fs).files := by
      have hleads := (locate_congr hfiles.sight hfiles.workingDir .use _).trans (locate_of_create hx)
      have houtputStays := hfiles.staysOutside (hmade.staysOutside houtside hstays)
      unfold Job.reported
      rw [hfiles.alike.canonical_eq hleads houtputStays]
    obtain ⟨later, hevents, hevents'⟩ := hparallel.events
    have hopening : job.openingEvents made' = job.openingEvents made := by
      unfold Job.openingEvents
      rw [surveyEvents_of_survey_eq hsame]
    refine ⟨hparallel.ends.eq hreported, hparallel.lines, ?_, ?_, hfiles.alike, ?_⟩
    · unfold Report.output
      rw [hparallel.lines]
    · rw [hevents, hevents', hopening]
    · intro made₂ artifact₂ hcreate
      rw [hx] at hcreate
      cases hcreate
      have hnotDir := hmade.not_dir_of_sight hfiles.sight
      exact ⟨⟨made', hy⟩, node?_eq_of_surface (hfiles.alike.surface _ houtside) hnotDir⟩

end TreePack.FileSystem
