import Mathlib.Tactic
import TreePack.FileSystem.Edit
import TreePack.Proofs.Unaffected

/-!
# What lies in pruned directories

A survey reports a pruned directory once and says nothing of what is in it, not even that it cannot
be listed.  So two trees that differ only in the permissions and the contents of pruned directories
have the same survey, unless a link leads into one of them and is a link to a directory in one tree
only.  A run tells them apart only if it reads a candidate or opens its artifact by a path that is
resolved through a pruned directory.
-/

namespace TreePack

/-- The path that an event of a survey is about. -/
def Event.subject? : Event → Option Path
  | .prunedDir path => some path
  | .notPackable path => some path
  | .walkProblem _ path _ => some path
  | .packing _ _ | .skipping _ _ | .packed _ _ => none

theorem Visit.subject_of_event? {root : Path} {visit : Visit} {event : Event}
    (hevent : visit.event? root = some event) :
    event.subject? = some (root.descend visit.trail) := by
  unfold Visit.event? at hevent
  cases hverdict : visit.verdict <;> simp only [hverdict, Option.some.injEq, reduceCtorEq] at hevent
  all_goals
    subst event
    rfl

theorem Visit.eq_of_event? {root : Path} (hroot : root.bytes ≠ []) {visit other : Visit}
    {event : Event} (hevent : visit.event? root = some event)
    (hother : other.event? root = some event) :
    visit = other := by
  have hsubject := (Visit.subject_of_event? hevent).symm.trans (Visit.subject_of_event? hother)
  have htrail : visit.trail = other.trail :=
    Path.descend_injective hroot (Option.some.inj hsubject)
  cases visit with
  | mk trail verdict =>
      cases other with
      | mk trail' verdict' =>
          simp only at htrail
          subst trail'
          cases verdict <;> cases verdict' <;>
            simp only [Visit.event?, Option.some.injEq, reduceCtorEq] at hevent hother <;>
            subst event <;> simp_all

namespace FileSystem

/-- The survey of `root` meets a directory at this trail, and its name is ignored. -/
def PrunedAt (fs : FileSystem) (rules : Rules) (root : Path) (top : Node) (trail : List Name) :
    Prop :=
  ∃ init n mode entries, trail = init ++ [n] ∧ rules.prunes n.display = true ∧
    fs.Meets rules root top trail (.dir mode entries)

/-- The locations of the directories that a survey meets and prunes. -/
def prunedDirs (fs : FileSystem) (rules : Rules) (root : Path) (here : Location) (top : Node) :
    Set Location :=
  {dir | ∃ trail, fs.PrunedAt rules root top trail ∧ dir = here ++ trail}

variable {fs other : FileSystem} {rules : Rules} {root : Path} {here : Location} {top : Node}

theorem PrunedAt.not_enters {trail : List Name} (hpruned : fs.PrunedAt rules root top trail) :
    ¬ rules.Enters trail := by
  obtain ⟨init, n, _, _, rfl, hname, _⟩ := hpruned
  simp [rules.enters_concat, hname]

theorem prunes_of_mem_prunedDirs {dir : Location}
    (hmem : dir ∈ fs.prunedDirs rules root here top) :
    ∃ n, dir.getLast? = some n ∧ rules.prunes n.display = true := by
  obtain ⟨_, ⟨init, n, _, _, rfl, hname, _⟩, rfl⟩ := hmem
  exact ⟨n, by simp [← List.append_assoc], hname⟩

/-! ## What a survey reports -/

section Report

variable (hinput : root.isStandardInput = false) (htop : fs.stat root = .ok top)
  (hdir : top.isDir = true)

include hinput htop hdir

theorem mem_surveyEvents_iff (event : Event) :
    event ∈ fs.surveyEvents rules root ↔
      ∃ visit ∈ top.visits fs rules root (rootName root), visit.event? root = some event := by
  unfold surveyEvents
  rw [survey_eq_visits hinput htop hdir]
  exact List.mem_filterMap

theorem nodup_surveyEvents : (fs.surveyEvents rules root).Nodup := by
  obtain ⟨here, hlocate, hnode⟩ := (stat_eq_ok_iff fs root top).1 htop
  have hnodup : (top.visits fs rules root (rootName root)).Nodup :=
    Node.visits_nodup (fs.wellFormed.get hnode) root (rootName root)
  unfold surveyEvents
  rw [survey_eq_visits hinput htop hdir]
  apply hnodup.filterMap
  intro visit other event hevent hother
  exact Visit.eq_of_event? (usable_of_locate hlocate).notEmpty hevent hother

theorem PrunedAt.mem_surveyEvents {trail : List Name}
    (hpruned : fs.PrunedAt rules root top trail) :
    .prunedDir (root.descend trail) ∈ fs.surveyEvents rules root := by
  obtain ⟨here, _, hnode⟩ := (stat_eq_ok_iff fs root top).1 htop
  obtain ⟨init, n, mode, entries, rfl, hname, hmeets⟩ := hpruned
  rw [mem_surveyEvents_iff hinput htop hdir]
  refine ⟨⟨init ++ [n], .pruned⟩, ?_, rfl⟩
  rw [mem_visits_concat_iff (fs.wellFormed.get hnode)]
  exact ⟨_, hmeets, by simp [Node.verdict, hname]⟩

/-- Of a pruned directory and what is in it a survey reports that the directory is pruned, and
nothing else. -/
theorem PrunedAt.event_eq {trail more : List Name} (hpruned : fs.PrunedAt rules root top trail)
    {event : Event} (hmem : event ∈ fs.surveyEvents rules root)
    (hsubject : event.subject? = some (root.descend (trail ++ more))) :
    event = .prunedDir (root.descend trail) := by
  obtain ⟨here, hlocate, hnode⟩ := (stat_eq_ok_iff fs root top).1 htop
  have hwf : top.WellFormed := fs.wellFormed.get hnode
  obtain ⟨⟨trail', verdict⟩, hvisit, hevent⟩ := (mem_surveyEvents_iff hinput htop hdir event).1 hmem
  rw [Visit.subject_of_event? hevent, Option.some.injEq] at hsubject
  obtain rfl : trail' = trail ++ more := 
    Path.descend_injective (usable_of_locate hlocate).notEmpty hsubject
  by_cases hmore : more = []
  · subst more
    rw [List.append_nil] at hvisit hevent
    obtain ⟨init, n, mode, entries, rfl, hname, hmeets⟩ := hpruned
    obtain ⟨node, hother, rfl⟩ := (mem_visits_concat_iff hwf _ init n verdict).1 hvisit
    obtain rfl := hmeets.unique hother
    simpa [Visit.event?, Node.verdict, hname] using hevent.symm
  · obtain ⟨_, _, henters⟩ := meets_of_mem_visits hwf _ hmore hvisit
    exact absurd henters hpruned.not_enters

theorem exists_prunedAt_of_mem {p : Path} (hmem : .prunedDir p ∈ fs.surveyEvents rules root) :
    ∃ trail, fs.PrunedAt rules root top trail ∧ p = root.descend trail := by
  obtain ⟨here, _, hnode⟩ := (stat_eq_ok_iff fs root top).1 htop
  have hwf : top.WellFormed := fs.wellFormed.get hnode
  obtain ⟨⟨trail, verdict⟩, hvisit, hevent⟩ := (mem_surveyEvents_iff hinput htop hdir _).1 hmem
  have hverdict : verdict = .pruned ∧ root.descend trail = p := by
    cases verdict <;> simp_all [Visit.event?]
  obtain ⟨rfl, rfl⟩ := hverdict
  rcases List.eq_nil_or_concat trail with rfl | ⟨init, n, rfl⟩
  · cases top <;> simp only [Node.isDir, Bool.false_eq_true] at hdir
    case dir mode entries =>
      rw [Node.visits_dir] at hvisit
      cases hlist : fs.list root <;> simp [hlist, mem_inNameOrder, Visit.under] at hvisit
  · rw [List.concat_eq_append] at hvisit ⊢
    obtain ⟨node, hmeets, hverdict⟩ := (mem_visits_concat_iff hwf _ init n _).1 hvisit
    refine ⟨init ++ [n], ?_, rfl⟩
    obtain ⟨hnodeDir, hname⟩ := Node.verdict_eq_pruned_iff.1 hverdict.symm
    cases node <;> simp only [Node.isDir, Bool.false_eq_true] at hnodeDir
    case dir mode entries => exact ⟨init, n, mode, entries, rfl, hname, hmeets⟩

end Report

/-! ## What a run tells -/

section Runs

variable (hroot : fs.locate .use root = .ok here) (htop : fs.node? here = some top)
  (hdir : top.isDir = true) (hstays : fs.StaysOutside (fs.prunedDirs rules root here top) root)

include hroot htop hdir hstays

/-- The surveys still agree when an artifact has been opened in both trees. -/
theorem survey_eq_of_opened
    (hlinks : ∀ trail target, fs.Meets rules root top trail (.link target) →
      other.isDir (root.descend trail) = fs.isDir (root.descend trail))
    {output : Path} {made made' : FileSystem} {artifact : Location}
    (hcreate : fs.create output = .ok (made, artifact))
    (hcreate' : other.create output = .ok (made', artifact))
    (halike : AlikeOutside (fs.prunedDirs rules root here top) made made')
    (houtside : Outside (fs.prunedDirs rules root here top) artifact) :
    made'.survey rules root = made.survey rules root := by
  have hmade := madeAt_of_create hcreate
  have hmade' := madeAt_of_create hcreate'
  obtain ⟨top', htop', hdir'⟩ := hmade.exists_top htop hdir
  apply halike.survey_eq (hmade.locate_made hroot) (hmade.staysOutside houtside hstays) htop'
    (fun _ => prunes_of_mem_prunedDirs) _ hdir'
  intro trail target hmeets
  have hlink : made.node? (here ++ trail) = some (.link target) := hmeets.node?_eq htop'
  obtain ⟨old, hold, hsurface⟩ := hmade.meets_before htop htop' hmeets (hmade.ne_of_link hlink)
  have holdLink : old = .link target :=
    Node.eq_link_of_outline_eq (Node.outline_eq_of_surface_eq hsurface)
  rw [hmade.isDir_eq, hmade'.isDir_eq]
  exact hlinks trail target (holdLink ▸ hold)

theorem candidates_stayOutside_of_opened (hinput : root.isStandardInput = false)
    (hcandidates : ∀ c ∈ fs.candidates rules root,
      fs.StaysOutside (fs.prunedDirs rules root here top) c.path)
    {output : Path} {made : FileSystem} {artifact : Location}
    (hcreate : fs.create output = .ok (made, artifact))
    (houtside : Outside (fs.prunedDirs rules root here top) artifact) {c : Candidate}
    (hmem : c ∈ made.candidates rules root) :
    made.StaysOutside (fs.prunedDirs rules root here top) c.path := by
  have hmade := madeAt_of_create hcreate
  obtain ⟨top', htop', _⟩ := hmade.exists_top htop hdir
  obtain hbefore | ⟨trail, rfl, hartifact⟩ :=
    hmade.candidate_before htop htop' hinput hroot hdir hmem
  · exact hmade.staysOutside houtside (hcandidates c hbefore)
  · obtain ⟨node, hnode, _, hnotLink⟩ := hmade.deadEnd
    rw [← hartifact, node?_append, htop', Option.bind_some] at hnode
    exact (hmade.staysOutside houtside hstays).descend (hmade.locate_made hroot) htop' hnode hnotLink
      (hartifact ▸ houtside)

end Runs

/-- Two trees that differ only beneath the directories that a survey prunes, and in the permissions
of these directories, have the same candidates and the same survey events, if every link met leads
to a directory in both or in neither.  The events are one for each pruned directory, and none for
anything in it.  A job on this root has the same run on both trees, if neither a candidate nor the
artifact is resolved through a pruned directory. -/
theorem unaffected_by_pruned_dirs {rules : Rules} (hinput : root.isStandardInput = false)
    (hroot : fs.locate .use root = .ok here) (htop : fs.node? here = some top)
    (hdir : top.isDir = true)
    (halike : AlikeOutside (fs.prunedDirs rules root here top) fs other)
    (hstays : fs.StaysOutside (fs.prunedDirs rules root here top) root)
    (hlinks : ∀ trail target, fs.Meets rules root top trail (.link target) →
      other.isDir (root.descend trail) = fs.isDir (root.descend trail)) :
    other.candidates rules root = fs.candidates rules root ∧
      other.surveyEvents rules root = fs.surveyEvents rules root ∧
      (∀ p, .prunedDir p ∈ fs.surveyEvents rules root ↔
        ∃ trail, fs.PrunedAt rules root top trail ∧ p = root.descend trail) ∧
      (∀ trail, fs.PrunedAt rules root top trail →
        (fs.surveyEvents rules root).count (.prunedDir (root.descend trail)) = 1 ∧
          ∀ more, ∀ event ∈ fs.surveyEvents rules root,
            event.subject? = some (root.descend (trail ++ more)) →
              event = .prunedDir (root.descend trail)) ∧
      ∀ outputName, let job : Job := ⟨root, outputName, rules⟩
        (∀ c ∈ fs.candidates rules root,
          fs.StaysOutside (fs.prunedDirs rules root here top) c.path) →
        fs.StaysOutside (fs.prunedDirs rules root here top) job.outputPath →
        job.RunsAlike (fs.prunedDirs rules root here top) fs other := by
  have hstat : fs.stat root = .ok top := (stat_eq_ok_iff fs root top).2 ⟨here, hroot, htop⟩
  have hsurvey := halike.survey_eq hroot hstays htop (fun _ => prunes_of_mem_prunedDirs) hlinks hdir
  refine ⟨candidates_of_survey_eq hsurvey, surveyEvents_of_survey_eq hsurvey, ?_, ?_, ?_⟩
  · intro p
    constructor
    · exact exists_prunedAt_of_mem hinput hstat hdir
    · rintro ⟨trail, hpruned, rfl⟩
      exact hpruned.mem_surveyEvents hinput hstat hdir
  · intro trail hpruned
    have hmem := hpruned.mem_surveyEvents hinput hstat hdir
    refine ⟨List.count_eq_one_of_mem (nodup_surveyEvents hinput hstat hdir) hmem, ?_⟩
    intro more event hevent hsubject
    exact hpruned.event_eq hinput hstat hdir hevent hsubject
  · intro outputName job hcandidates houtput
    apply halike.runsAlike houtput
    · intro made made' artifact hcreate hcreate' hmadeAlike houtside
      exact survey_eq_of_opened hroot htop hdir hstays hlinks hcreate hcreate' hmadeAlike houtside
    · intro made artifact hcreate houtside c hmem
      exact candidates_stayOutside_of_opened hroot htop hdir hstays hinput hcandidates hcreate
        houtside hmem

/-! ## Changing a pruned directory -/

/-- A pruned directory may be replaced by any other. -/
theorem alikeOutside_of_replaced (htop : fs.node? here = some top) {trail : List Name}
    (hpruned : fs.PrunedAt rules root top trail) {replace : Node → Node}
    (hwf : ∀ node, node.WellFormed → (replace node).WellFormed)
    (hdir : ∀ node, (replace node).isDir = true) :
    AlikeOutside (fs.prunedDirs rules root here top) fs
      (fs.update (here ++ trail) replace hwf) := by
  have hmem : here ++ trail ∈ fs.prunedDirs rules root here top := ⟨trail, hpruned, rfl⟩
  have helsewhere : ∀ location, ¬ here ++ trail <+: location →
      ((fs.update (here ++ trail) replace hwf).node? location).map Node.surface =
        (fs.node? location).map Node.surface :=
    fun location houtside => Node.surface_get?_update_elsewhere replace houtside fs.root
  refine ⟨rfl, fun location houtside => helsewhere location (houtside _ hmem), ?_⟩
  rintro _ ⟨other, hother, rfl⟩
  have hfound : ∀ {trail : List Name}, fs.PrunedAt rules root top trail →
      ∃ mode entries, fs.node? (here ++ trail) = some (.dir mode entries) := by
    rintro trail ⟨init, n, mode, entries, rfl, _, hmeets⟩
    exact ⟨mode, entries, hmeets.node?_eq htop⟩
  obtain ⟨mode, entries, hnode⟩ := hfound hother
  refine ⟨by simp [hnode, Node.isDir], ?_⟩
  by_cases hbelow : trail <+: other
  · obtain ⟨more, rfl⟩ := hbelow
    have hmore : more = [] := by
      by_contra hmore
      obtain ⟨_, _, _, _, _, _, hmeets⟩ := hother
      exact hpruned.not_enters (hmeets.enters rfl hmore)
    subst more
    obtain ⟨mode', entries', hreplaced⟩ := hfound hpruned
    have hself := Node.get?_update_self replace (here ++ trail) fs.root
    rw [show fs.root.get? (here ++ trail) = _ from hreplaced] at hself
    rw [List.append_nil, show (fs.update (here ++ trail) replace hwf).node? (here ++ trail) = _
      from hself]
    simp [hdir]
  · have hsame := helsewhere (here ++ other) (by simpa using hbelow)
    rw [hnode] at hsame
    obtain ⟨node, hnode', hsurface⟩ := Option.map_eq_some_iff.1 hsame
    rw [hnode', Option.any_some,
      Node.isDir_eq_of_outline_eq (Node.outline_eq_of_surface_eq hsurface)]
    rfl

theorem Meets.outside {trail : List Name} {node : Node}
    (hmeets : fs.Meets rules root top trail node)
    (hkept : node.isDir = false ∨ rules.Enters trail) :
    Outside (fs.prunedDirs rules root here top) (here ++ trail) := by
  rintro _ ⟨other, hother, rfl⟩ hbelow
  obtain ⟨more, rfl⟩ := (List.prefix_append_right_inj here).1 hbelow
  by_cases hmore : more = []
  · subst more
    rw [List.append_nil] at hmeets hkept
    rcases hkept with hnotDir | henters
    · obtain ⟨_, _, _, _, _, _, hdir⟩ := hother
      obtain rfl := hmeets.unique hdir
      simp [Node.isDir] at hnotDir
    · exact hother.not_enters henters
  · exact hother.not_enters (hmeets.enters rfl hmore)

/-- A project with build products, a link to a file and an artifact from before. -/
def builtProject : FileSystem :=
  built
    [(·.putFile (Path.ofText "/a.c") (Bytes.ofText "int a;")),
      (·.putFile (Path.ofText "/build/gen.c") (Bytes.ofText "int g;")),
      (·.putFile (Path.ofText "/build/deep/x.c") []),
      (·.putLink (Path.ofText "/latest") (Path.ofText "a.c")),
      (·.putFile (Path.ofText "/project_context.txt") (Bytes.ofText "old"))]

def buildName : Name := ⟨Bytes.ofText "build", by decide +kernel⟩

/-- The same project without build products, and the directory for them cannot be listed. -/
def sealedProject : FileSystem :=
  builtProject.update [buildName] (fun _ => .dir ⟨0⟩ []) fun _ _ => .of_empty_dir _

theorem meets_of_builtProject {n : Name} {node : Node}
    (hentry : builtProject.root.entry? n = some node) :
    builtProject.Meets Rules.standard (Path.ofText "/") builtProject.root [n] node := by
  have hfound : ∃ mode entries, builtProject.root = .dir mode entries := ⟨_, _, rfl⟩
  obtain ⟨mode, entries, hroot⟩ := hfound
  have hlist : builtProject.Listable (Path.ofText "/") := ⟨_, rfl⟩
  rw [hroot] at hentry ⊢
  exact Meets.start.entry Rules.standard.enters_nil hlist hentry

theorem staysOutside_of_builtProject {n : Name} {mode : Mode} {data : Bytes}
    (hentry : builtProject.root.entry? n = some (.file mode data)) :
    let dirs := builtProject.prunedDirs Rules.standard (Path.ofText "/") [] builtProject.root
    builtProject.StaysOutside dirs (Path.ofText "/") ∧
      builtProject.StaysOutside dirs ((Path.ofText "/").descend [n]) := by
  intro dirs
  have hstays : builtProject.StaysOutside dirs (Path.ofText "/") := by
    intro _ location hcrosses
    have hsteps : (Route.ofPath (Path.ofText "/")).steps = [] := by decide +kernel
    rw [hsteps] at hcrosses
    cases hcrosses
    exact Meets.start.outside (.inr Rules.standard.enters_nil)
  have hmeets := meets_of_builtProject hentry
  have hfile : builtProject.root.get? [n] = some (.file mode data) := hmeets.get?
  exact ⟨hstays, hstays.descend rfl rfl hfile (by simp) (hmeets.outside (.inl rfl))⟩

theorem unaffected_by_pruned_dirs_of_builtProject :
    let root := Path.ofText "/"
    let job := Job.standard root
    root.isStandardInput = false ∧
      builtProject.locate .use root = .ok [] ∧
      builtProject.PrunedAt Rules.standard root builtProject.root [buildName] ∧
      sealedProject.candidates Rules.standard root = builtProject.candidates Rules.standard root ∧
      sealedProject.surveyEvents Rules.standard root =
        builtProject.surveyEvents Rules.standard root ∧
      (builtProject.surveyEvents Rules.standard root).count
        (.prunedDir (root.descend [buildName])) = 1 ∧
      (job.run sealedProject).result = (job.run builtProject).result ∧
      (job.run sealedProject).output = "Packed: ./a.c\n" := by
  intro root job
  have hroot : builtProject.locate .use root = .ok [] := rfl
  have htop : builtProject.node? [] = some builtProject.root := rfl
  have hinput : root.isStandardInput = false := by decide +kernel
  have hdir : builtProject.root.isDir = true := by decide +kernel
  have hstat := (stat_eq_ok_iff builtProject root _).2 ⟨[], hroot, htop⟩
  have hbuild : ∃ mode entries, builtProject.root.entry? buildName = some (.dir mode entries) :=
    ⟨_, _, rfl⟩
  have hpruned : builtProject.PrunedAt Rules.standard root builtProject.root [buildName] := by
    obtain ⟨mode, entries, hentry⟩ := hbuild
    have hprunes : Rules.standard.prunes buildName.display = true := by decide +kernel
    exact ⟨[], buildName, mode, entries, rfl, hprunes, meets_of_builtProject hentry⟩
  have halike : AlikeOutside (builtProject.prunedDirs Rules.standard root [] builtProject.root)
      builtProject sealedProject :=
    alikeOutside_of_replaced htop hpruned _ fun _ => rfl
  have hlinks : ∀ trail target,
      builtProject.Meets Rules.standard root builtProject.root trail (.link target) →
        sealedProject.isDir (root.descend trail) = builtProject.isDir (root.descend trail) := by
    intro trail target hmeets
    obtain ⟨visits, hsurvey, visit, hvisit, rfl⟩ := hmeets.visited hinput hstat hdir
    have hcheck : ((builtProject.survey Rules.standard root).toOption.all fun visits =>
        visits.all fun visit => sealedProject.isDir (root.descend visit.trail) ==
          builtProject.isDir (root.descend visit.trail)) = true := by
      decide +kernel
    simp only [hsurvey, Except.toOption, Option.all_some, List.all_eq_true] at hcheck
    simpa using hcheck visit hvisit
  let aName : Name := ⟨Bytes.ofText "a.c", by decide +kernel⟩
  let artifact : Name := ⟨Bytes.ofText "project_context.txt", by decide +kernel⟩
  have hfiles : ∃ mode data mode' data',
      builtProject.root.entry? aName = some (.file mode data) ∧
        builtProject.root.entry? artifact = some (.file mode' data') :=
    ⟨_, _, _, _, rfl, rfl⟩
  obtain ⟨_, _, _, _, ha, hartifact⟩ := hfiles
  have hchosen : builtProject.candidates Rules.standard root =
      [Candidate.below root [aName]] := by
    decide +kernel
  have houtputPath : job.outputPath = root.descend [artifact] := by decide +kernel
  have hall := unaffected_by_pruned_dirs hinput hroot htop hdir halike
    (staysOutside_of_builtProject ha).1 hlinks
  obtain ⟨hcandidates, hevents, _, hreport, hruns⟩ := hall
  have hrun := hruns artifactName
    (by
      intro c hc
      rw [hchosen, List.mem_singleton] at hc
      subst c
      exact (staysOutside_of_builtProject ha).2)
    (houtputPath ▸ (staysOutside_of_builtProject hartifact).2)
  have hprinted : (job.run builtProject).output = "Packed: ./a.c\n" := by decide +kernel
  exact ⟨hinput, hroot, hpruned, hcandidates, hevents, (hreport _ hpruned).1, hrun.result,
    hrun.output.trans hprinted⟩

end FileSystem

end TreePack
