import Mathlib.Tactic
import TreePack.FileSystem.Edit
import TreePack.Proofs.CanonicalPath
import TreePack.Proofs.Completion
import TreePack.Proofs.Correspondence
import TreePack.Proofs.Creation
import TreePack.Proofs.Lockstep
import TreePack.Proofs.Rendering
import TreePack.Proofs.Retracing

/-!
# The spelling of the root

A directory has many paths: absolute and relative ones, with slashes repeated or at the end, with
segments `.` and `..`, through links.  A survey under any of them meets the same entries and shows
them alike, and a run under any of them writes the same artifact and tells the same.  The reason is
that the steps behind the root are taken from where the root leads, by whatever steps this place was
reached.

The steps of the root use up part of the links that one resolution may follow, and its text part of
the length that a path may have.  So two spellings can be told apart when one of these limits is hit.
Otherwise they show only in the path that a run reports of its artifact, and only if this path could
not be spelled out from the root of the tree.
-/

namespace TreePack

theorem Path.contains_zero_join {base p : Path} (hbase : base.bytes ≠ [])
    (hnul : base.bytes.contains 0 = false) (hrelative : p.isAbsolute = false) :
    (base.join p).bytes.contains 0 = p.bytes.contains 0 := by
  obtain ⟨stem, hjoin, hstem⟩ := exists_stem_join hbase hrelative
  have hstemNul : (0 : UInt8) ∉ stem := by
    rcases hstem with heq | heq
    · simpa [heq] using hnul
    · simp only [heq, List.contains_eq_mem, List.mem_append, decide_eq_false_iff_not, not_or] at hnul
      exact hnul.1
  have hslash : (0 : UInt8) ≠ Bytes.slash := by decide
  simp [hjoin, hstemNul, hslash]

namespace FileSystem

theorem stat_eq_of_locate_eq {fs : FileSystem} {p q : Path}
    (hlocate : fs.locate .use q = fs.locate .use p) :
    fs.stat q = fs.stat p := by
  unfold stat lookUp
  rw [hlocate]

/-- No limit shows when the path is resolved: its text is short enough, and if more links might be
followed the result would be the same. -/
structure Unlimited (fs : FileSystem) (p : Path) : Prop where
  short : p.bytes.length ≤ pathLimit
  settled : ∀ purpose links, linkLimit ≤ links →
    fs.travel purpose links (Route.ofPath p).intoDir (fs.start p) (Route.ofPath p).steps =
      fs.travel purpose linkLimit (Route.ofPath p).intoDir (fs.start p) (Route.ofPath p).steps

/-! ## Paths behind a root -/

section Behind

variable {fs : FileSystem} {root other : Path} {here : Location}
  (hroot : fs.locate .use root = .ok here) (hother : fs.locate .use other = .ok here)

include hroot

/-- The steps behind the root are taken from where it leads, with as many links as one likes. -/
theorem resolve_join {p : Path} (hrelative : p.isAbsolute = false) (hp : p.bytes ≠ [])
    (hnul : p.bytes.contains 0 = false) (hlimits : fs.Unlimited (root.join p))
    (purpose : Purpose) :
    ∃ spare, ∀ extra, fs.resolve purpose (root.join p) =
      fs.travel purpose (spare + extra) (Route.ofPath p).intoDir here (Route.ofPath p).steps := by
  rw [locate_eq_ok_iff, resolve_eq_ok_iff] at hroot
  obtain ⟨hrootUsable, htravels⟩ := hroot
  have hne := hrootUsable.notEmpty
  have husable : Usable (root.join p) :=
    ⟨(Path.contains_zero_join hne hrootUsable.noNul hrelative).trans hnul,
      Path.join_ne_nil hne hrelative, hlimits.short⟩
  have hroute := Route.ofPath_join_of_ne_nil hne hrelative hp
  have hstart : fs.start (root.join p) = fs.start root := by
    unfold start
    rw [hroute]
  obtain ⟨spare, hspare⟩ := htravels.travel_append
  refine ⟨spare, fun extra => ?_⟩
  rw [resolve_eq_travel fs purpose husable,
    ← hlimits.settled purpose (linkLimit + extra) (Nat.le_add_right _ _), hstart, hroute]
  exact hspare purpose extra _ _ (Route.steps_ne_nil hrelative hp)

include hother

theorem resolve_join_eq {p : Path} (hrelative : p.isAbsolute = false) (hp : p.bytes ≠ [])
    (hlimits : fs.Unlimited (root.join p)) (hlimits' : fs.Unlimited (other.join p))
    (purpose : Purpose) :
    fs.resolve purpose (other.join p) = fs.resolve purpose (root.join p) := by
  cases hnul : p.bytes.contains 0 with
  | true =>
      have hrefused : ∀ {base : Path}, fs.locate .use base = .ok here →
          fs.resolve purpose (base.join p) = .error .nulInPath := by
        intro base hbase
        have husable := usable_of_locate hbase
        have hcontains := Path.contains_zero_join husable.notEmpty husable.noNul hrelative
        unfold resolve
        rw [if_pos (hcontains.trans hnul)]
      rw [hrefused hroot, hrefused hother]
  | false =>
      obtain ⟨spare, hspare⟩ := resolve_join hroot hrelative hp hnul hlimits purpose
      obtain ⟨spare', hspare'⟩ := resolve_join hother hrelative hp hnul hlimits' purpose
      -- Each resolution may use the links that the other has to spare.
      rw [hspare spare', hspare' spare, Nat.add_comm]

theorem resolve_descend_eq {trail : List Name} (htrail : trail ≠ [])
    (hlimits : fs.Unlimited (root.descend trail)) (hlimits' : fs.Unlimited (other.descend trail))
    (purpose : Purpose) :
    fs.resolve purpose (other.descend trail) = fs.resolve purpose (root.descend trail) := by
  rw [Path.descend_eq_join _ htrail] at hlimits hlimits' ⊢
  rw [Path.descend_eq_join _ htrail]
  exact resolve_join_eq hroot hother (Path.isAbsolute_ofTrail htrail)
    (Path.bytes_ofTrail_ne_nil htrail) hlimits hlimits' purpose

theorem locate_descend_eq {trail : List Name} (hlimits : fs.Unlimited (root.descend trail))
    (hlimits' : fs.Unlimited (other.descend trail)) :
    fs.locate .use (other.descend trail) = fs.locate .use (root.descend trail) := by
  by_cases htrail : trail = []
  · subst trail
    exact hother.trans hroot.symm
  · unfold locate
    rw [resolve_descend_eq hroot hother htrail hlimits hlimits']

end Behind

/-! ## Opening an artifact behind a root -/

/-- To make something of the name that a directory has is refused, if the path says that it is a
directory. -/
theorem Travels.make_into {fs : FileSystem} {links : ℕ} {intoDir : Bool} {here location : Location}
    {steps : List Step}
    (htravels : Travels fs .use links intoDir here steps (.found location)) :
    fs.travel .make links true here steps = .error .isADirectory ∨
      fs.travel .make links true here steps = .ok (.found location) := by
  generalize hplace : Place.found location = place at htravels
  induction htravels with
  | arrive =>
      cases hplace
      right
      rw [travel_eq_advance]
      rfl
  | stay hdir _ ih =>
      rw [travel_stay hdir]
      exact ih hplace
  | up hdir _ ih =>
      rw [travel_up hdir]
      exact ih hplace
  | miss => contradiction
  | keep hpurpose => contradiction
  | @follow links intoDir here n target rest place _ hmay hlink _ ih =>
      by_cases hrest : rest = []
      · left
        rw [travel_eq_advance, advance_down hmay.searchable, if_pos ⟨hrest, rfl, rfl⟩]
      · rw [travel_follow hmay.searchable hmay.nameFits hlink _ _ _ hrest]
        exact ih hplace
  | @enter links intoDir here n node rest place hmay hnode hnotLink _ _ ih =>
      by_cases hrest : rest = []
      · left
        rw [travel_eq_advance, advance_down hmay.searchable, if_pos ⟨hrest, rfl, rfl⟩]
      · rw [travel_enter hmay.searchable hmay.nameFits hnode hnotLink _ _ _ hrest]
        exact ih hplace

section Opening

variable {fs : FileSystem} {root other : Path} {here : Location} {top : Node}
  (hroot : fs.locate .use root = .ok here) (htop : fs.node? here = some top)
  (hdir : top.isDir = true)

include hroot htop hdir in
theorem create_join_nil (hlimits : fs.Unlimited (root.join ⟨[]⟩)) :
    fs.create (root.join ⟨[]⟩) = .error .isADirectory := by
  rw [locate_eq_ok_iff, resolve_eq_ok_iff] at hroot
  obtain ⟨hrootUsable, htravels⟩ := hroot
  have hne := hrootUsable.notEmpty
  have husable : Usable (root.join ⟨[]⟩) :=
    ⟨(Path.contains_zero_join hne hrootUsable.noNul rfl).trans rfl, Path.join_ne_nil hne rfl,
      hlimits.short⟩
  have hstart : fs.start (root.join ⟨[]⟩) = fs.start root := by
    unfold start
    rw [Route.ofPath_join_nil hne]
  have hresolve := resolve_eq_travel fs .make husable
  rw [hstart, Route.ofPath_join_nil hne] at hresolve
  unfold create
  rw [hresolve]
  rcases htravels.make_into with herror | hfound
  · simp only [herror]
  · cases top <;> simp only [Node.isDir, Bool.false_eq_true] at hdir
    simp only [hfound, htop]

include hroot htop hdir in
theorem create_join_eq (hother : fs.locate .use other = .ok here) {p : Path}
    (hlimits : fs.Unlimited (root.join p)) (hlimits' : fs.Unlimited (other.join p)) :
    fs.create (other.join p) = fs.create (root.join p) := by
  cases hrelative : p.isAbsolute with
  | true => simp [Path.join, hrelative]
  | false =>
      by_cases hp : p.bytes = []
      · obtain rfl : p = ⟨[]⟩ := by rw [← hp]
        rw [create_join_nil hroot htop hdir hlimits, create_join_nil hother htop hdir hlimits']
      · unfold create
        rw [resolve_join_eq hroot hother hrelative hp hlimits hlimits' .make]

end Opening

/-! ## Surveys under two spellings -/

/-- No limit shows when a survey of the directory `top` meets its entries, whichever of the two
spellings of the root it uses. -/
def Unhindered (fs : FileSystem) (rules : Rules) (root other : Path) (top : Node) : Prop :=
  ∀ trail node, fs.Meets rules root top trail node →
    fs.Unlimited (root.descend trail) ∧ fs.Unlimited (other.descend trail)

/-- A survey meets the node, which has these two paths. -/
inductive MetUnder (fs : FileSystem) (rules : Rules) (root other : Path) (top : Node) :
    Path → Node → Path → Node → Prop
  | intro {trail : List Name} {node : Node} :
      fs.Meets rules root top trail node → (node.isDir = true → rules.Enters trail) →
      MetUnder fs rules root other top (root.descend trail) node (other.descend trail) node

section Surveys

variable {fs : FileSystem} {rules : Rules} {root other : Path} {here : Location} {top : Node}
  (hroot : fs.locate .use root = .ok here) (hother : fs.locate .use other = .ok here)
  (htop : fs.node? here = some top) (hdir : top.isDir = true)
  (hinput : root.isStandardInput = false) (hinput' : other.isStandardInput = false)
  (hlimits : fs.Unhindered rules root other top)

include hroot hother hlimits

theorem correspondence_metUnder :
    Correspondence fs fs rules (MetUnder fs rules root other top) := by
  intro p node q node' hmet
  obtain @⟨trail, node, hmeets, henters⟩ := hmet
  obtain ⟨hunlimited, hunlimited'⟩ := hlimits trail node hmeets
  have hstat := stat_eq_of_locate_eq (locate_descend_eq hroot hother hunlimited hunlimited')
  cases node with
  | file mode data => exact .file
  | link target =>
      apply Node.Matches.link
      unfold isDir
      rw [hstat]
  | fifo mode => exact .fifo
  | device kind => exact .device
  | dir mode entries =>
      have hlist : fs.list (other.descend trail) = fs.list (root.descend trail) := by
        unfold list
        rw [hstat]
      apply Node.Matches.dir (by rw [hlist])
      intro listed hlisted n
      cases hlookup : entries.lookup n with
      | none => exact .none
      | some child =>
          apply Option.Rel.some
          apply entryMatches_of_kept rfl
          intro hkept
          have hchild := hmeets.entry (henters rfl) ⟨listed, hlisted⟩ hlookup
          rw [← Path.descend_concat, ← Path.descend_concat]
          exact .intro hchild (rules.enters_of_kept hkept trail)

include htop hdir

theorem visits_spelling_eq :
    top.visits fs rules other (rootName other) = top.visits fs rules root (rootName root) := by
  have hstart : MetUnder fs rules root other top root top other top :=
    @MetUnder.intro fs rules root other top [] top .start fun _ => rules.enters_nil
  have hwf : top.WellFormed := fs.wellFormed.get htop
  have hvisits := (correspondence_metUnder hroot hother hlimits).visits_eq hwf hwf hstart
    (rootName other)
  rw [hvisits]
  cases top <;> simp only [Node.isDir, Bool.false_eq_true] at hdir
  rw [Node.visits_dir, Node.visits_dir]

include hinput hinput'

/-- Both surveys choose the same entries. -/
theorem exists_trails_spelling :
    ∃ trails : List (List Name),
      fs.candidates rules root = trails.map (Candidate.below root) ∧
      fs.candidates rules other = trails.map (Candidate.below other) ∧
      ∀ trail ∈ trails, trail ≠ [] ∧ ∃ node, fs.Meets rules root top trail node := by
  have hstat := (stat_eq_ok_iff fs root top).2 ⟨here, hroot, htop⟩
  have hstat' := (stat_eq_ok_iff fs other top).2 ⟨here, hother, htop⟩
  refine ⟨packedTrails (top.visits fs rules root (rootName root)),
    candidates_eq_map hinput hstat hdir, ?_, ?_⟩
  · rw [candidates_eq_map hinput' hstat' hdir,
      visits_spelling_eq hroot hother htop hdir hlimits]
  · intro trail hmem
    rw [mem_packedTrails] at hmem
    rcases List.eq_nil_or_concat trail with rfl | ⟨init, n, rfl⟩
    · exact absurd hmem (candidate_not_mem_visits_of_isDir hdir _ _)
    · rw [List.concat_eq_append] at hmem ⊢
      obtain ⟨node, hmeets, _⟩ := (mem_visits_concat_iff (fs.wellFormed.get htop) _ init n _).1 hmem
      exact ⟨by simp, node, hmeets⟩

end Surveys

/-! ## Runs under two spellings -/

/-- The two trees are one, and paths are resolved in it as in `base`. -/
structure SameSince (base fs other : FileSystem) : Prop where
  eq : other = fs
  sight : fs.sight = base.sight
  workingDir : fs.workingDir = base.workingDir

theorem writesAgree_sameSince (base : FileSystem) (artifact : Location) :
    WritesAgree (SameSince base) artifact := by
  intro fs other hrel bytes
  rw [hrel.eq]
  cases hwrite : fs.write artifact bytes with
  | error e => exact .error e
  | ok written =>
      obtain ⟨hsight, hdir⟩ := sight_of_write hwrite
      exact .ok ⟨rfl, hsight.trans hrel.sight, hdir.trans hrel.workingDir⟩

theorem SameSince.locate_eq {base fs other : FileSystem} (hrel : SameSince base fs other)
    (purpose : Purpose) (p : Path) :
    fs.locate purpose p = base.locate purpose p :=
  locate_congr hrel.sight hrel.workingDir purpose p

theorem display_below_eq {root other : Path} {trail : List Name} (hroot : root.bytes ≠ [])
    (hother : other.bytes ≠ []) (htrail : trail ≠ []) :
    (Candidate.below other trail).display = (Candidate.below root trail).display := by
  unfold Candidate.below
  rw [Path.displayBelow_descend hroot htrail, Path.displayBelow_descend hother htrail]

theorem counterpart_of_locate_eq {base : FileSystem} {root other : Path} {trail : List Name}
    (hroot : root.bytes ≠ []) (hother : other.bytes ≠ []) (htrail : trail ≠ [])
    (hlocate : base.locate .use (other.descend trail) = base.locate .use (root.descend trail)) :
    (Candidate.below root trail).Counterpart (SameSince base) (Candidate.below other trail) := by
  constructor
  · exact display_below_eq hroot hother htrail
  · intro fs other' hrel
    have hsame : fs.stat (other.descend trail) = fs.stat (root.descend trail) := by
      apply stat_eq_of_locate_eq
      rw [hrel.locate_eq, hrel.locate_eq, hlocate]
    simp only [hrel.eq, Candidate.below, FileSystem.read, hsame]

/-- Both the output path of the job and the path that it reports lead to this place. -/
structure HoldsArtifact (fs : FileSystem) (job : Job) (artifact : Location) : Prop where
  output : fs.locate .use job.outputPath = .ok artifact
  reported : fs.locate .use (job.reported fs) = .ok artifact

theorem holdsArtifact_of_create {fs made files : FileSystem} {job : Job} {artifact : Location}
    (hcreate : fs.create job.outputPath = .ok (made, artifact)) (hsight : files.sight = made.sight)
    (hdir : files.workingDir = made.workingDir) :
    files.HoldsArtifact job artifact := by
  have hlocate := locate_of_create hcreate
  obtain ⟨node, hnode, hnotDir, hnotLink⟩ := (madeAt_of_create hcreate).deadEnd
  constructor
  · rw [locate_congr hsight hdir, hlocate]
  · rw [locate_congr hsight hdir, Job.reported_congr hsight hdir]
    exact Job.locate_reported hlocate hnode hnotDir hnotLink

/-- What two runs have in common whose jobs spell one root in two ways. -/
structure SpelledAlike (job job' : Job) (report report' : Report) : Prop where
  ends : EndsAlike job job' report.files report'.files report.result report'.result
  lines : report'.lines = report.lines
  files : report'.files = report.files
  artifact : ∀ summary, report.result = .ok summary → ∃ artifact,
    report.files.HoldsArtifact job artifact ∧ report.files.HoldsArtifact job' artifact

section Runs

variable {fs : FileSystem} {rules : Rules} {root other : Path} {here : Location} {top : Node}
  (hroot : fs.locate .use root = .ok here) (hother : fs.locate .use other = .ok here)
  (htop : fs.node? here = some top) (hdir : top.isDir = true)
  (hinput : root.isStandardInput = false) (hinput' : other.isStandardInput = false)

include hroot hother htop hdir hinput hinput'

/-- Once the artifact is open the two runs keep in step. -/
theorem fill_spelling_parallel {outputName : String} {made : FileSystem} {artifact : Location}
    (hcreate : fs.create (Job.outputPath ⟨root, outputName, rules⟩) = .ok (made, artifact))
    (hlimits : ∀ top', made.node? here = some top' → made.Unhindered rules root other top') :
    Report.Parallel (SameSince made) ⟨root, outputName, rules⟩ ⟨other, outputName, rules⟩ made made
      (Job.fill ⟨root, outputName, rules⟩ made artifact)
      (Job.fill ⟨other, outputName, rules⟩ made artifact) := by
  have hmade := madeAt_of_create hcreate
  obtain ⟨top', htop', hdir'⟩ := hmade.exists_top htop hdir
  have hmadeRoot := hmade.locate_made hroot
  have hmadeOther := hmade.locate_made hother
  have hne := (usable_of_locate hroot).notEmpty
  have hne' := (usable_of_locate hother).notEmpty
  obtain ⟨trails, hcandidates, hcandidates', hmet⟩ :=
    exists_trails_spelling hmadeRoot hmadeOther htop' hdir' hinput hinput' (hlimits top' htop')
  apply Job.fill_parallel (writesAgree_sameSince made artifact) _ ⟨rfl, rfl, rfl⟩
  simp only [hcandidates, hcandidates', List.forall₂_map_left_iff, List.forall₂_map_right_iff,
    List.forall₂_same]
  intro trail hmem
  obtain ⟨htrail, node, hmeets⟩ := hmet trail hmem
  obtain ⟨hunlimited, hunlimited'⟩ := hlimits top' htop' trail node hmeets
  exact counterpart_of_locate_eq hne hne' htrail
    (locate_descend_eq hmadeRoot hmadeOther hunlimited hunlimited')

theorem run_spelling_alike {outputName : String}
    (houtput : fs.Unlimited (Job.outputPath ⟨root, outputName, rules⟩))
    (houtput' : fs.Unlimited (Job.outputPath ⟨other, outputName, rules⟩))
    (hlimits : ∀ made artifact top',
      fs.create (Job.outputPath ⟨root, outputName, rules⟩) = .ok (made, artifact) →
      made.node? here = some top' → made.Unhindered rules root other top') :
    SpelledAlike ⟨root, outputName, rules⟩ ⟨other, outputName, rules⟩
      (Job.run ⟨root, outputName, rules⟩ fs) (Job.run ⟨other, outputName, rules⟩ fs) := by
  have hcreateEq : fs.create (Job.outputPath ⟨other, outputName, rules⟩) =
      fs.create (Job.outputPath ⟨root, outputName, rules⟩) :=
    create_join_eq hroot htop hdir hother houtput houtput'
  cases hcreate : fs.create (Job.outputPath ⟨root, outputName, rules⟩) with
  | error e =>
      rw [Job.run_of_create_error hcreate, Job.run_of_create_error (hcreateEq.trans hcreate)]
      exact ⟨.creating e, rfl, rfl, by simp⟩
  | ok opened =>
      obtain ⟨made, artifact⟩ := opened
      have hcreate' := hcreateEq.trans hcreate
      have hparallel := fill_spelling_parallel hroot hother htop hdir hinput hinput' hcreate
        (fun top' => hlimits made artifact top' hcreate)
      rw [Job.run_of_create hcreate, Job.run_of_create hcreate']
      obtain ⟨hsame, hsight, hworking⟩ := hparallel.files
      exact ⟨hparallel.ends, hparallel.lines, hsame, fun _ _ =>
        ⟨artifact, holdsArtifact_of_create hcreate hsight hworking,
          holdsArtifact_of_create hcreate' hsight hworking⟩⟩

end Runs

/-- Two spellings of a root that lead to one directory give the same candidates with the same
display paths.  The runs leave the same tree and print the same lines, and they complete alike, with
the same packed and skipped files.  The paths which they report lead to the same file, and they are
one path if both output paths can be retraced.  The limits on links and on the length of paths must
not show. -/
theorem unaffected_by_spelling {fs : FileSystem} {rules : Rules} {root other : Path}
    {here : Location} {top : Node} (hroot : fs.locate .use root = .ok here)
    (hother : fs.locate .use other = .ok here) (htop : fs.node? here = some top)
    (hdir : top.isDir = true) (hinput : root.isStandardInput = false)
    (hinput' : other.isStandardInput = false) (hlimits : fs.Unhindered rules root other top) :
    (∃ trails : List (List Name),
        fs.candidates rules root = trails.map (Candidate.below root) ∧
        fs.candidates rules other = trails.map (Candidate.below other) ∧
        ∀ trail ∈ trails,
          (Candidate.below other trail).display = (Candidate.below root trail).display ∧
            ∀ purpose, fs.locate purpose (other.descend trail) =
              fs.locate purpose (root.descend trail)) ∧
      ∀ outputName,
        let job : Job := ⟨root, outputName, rules⟩
        let job' : Job := ⟨other, outputName, rules⟩
        let files := (job.run fs).files
        fs.Unlimited job.outputPath → fs.Unlimited job'.outputPath →
        (∀ made artifact top', fs.create job.outputPath = .ok (made, artifact) →
          made.node? here = some top' → made.Unhindered rules root other top') →
        (job'.run fs).lines = (job.run fs).lines ∧
          (job'.run fs).output = (job.run fs).output ∧
          (job'.run fs).files = files ∧
          ((∃ summary', (job'.run fs).result = .ok summary') ↔
            ∃ summary, (job.run fs).result = .ok summary) ∧
          ∀ summary summary', (job.run fs).result = .ok summary →
            (job'.run fs).result = .ok summary' →
            summary'.packed = summary.packed ∧ summary'.skipped = summary.skipped ∧
              (∃ artifact, files.locate .use summary.output = .ok artifact ∧
                files.locate .use summary'.output = .ok artifact) ∧
              (files.Retraceable job.outputPath → files.Retraceable job'.outputPath →
                summary'.output = summary.output) := by
  constructor
  · have hne := (usable_of_locate hroot).notEmpty
    have hne' := (usable_of_locate hother).notEmpty
    obtain ⟨trails, hcandidates, hcandidates', hmet⟩ :=
      exists_trails_spelling hroot hother htop hdir hinput hinput' hlimits
    refine ⟨trails, hcandidates, hcandidates', ?_⟩
    intro trail hmem
    obtain ⟨htrail, node, hmeets⟩ := hmet trail hmem
    obtain ⟨hunlimited, hunlimited'⟩ := hlimits trail node hmeets
    constructor
    · exact display_below_eq hne hne' htrail
    · intro purpose
      unfold locate
      rw [resolve_descend_eq hroot hother htrail hunlimited hunlimited']
  · intro outputName job job' files houtput houtput' hmadeLimits
    have halike : SpelledAlike job job' (job.run fs) (job'.run fs) :=
      run_spelling_alike hroot hother htop hdir hinput hinput' houtput houtput' hmadeLimits
    refine ⟨halike.lines, ?_, halike.files, halike.ends.completes_iff, ?_⟩
    · unfold Report.output
      rw [halike.lines]
    · intro summary summary' hresult hresult'
      obtain ⟨artifact, hholds, hholds'⟩ := halike.artifact summary hresult
      have hends := halike.ends
      rw [hresult, hresult', halike.files] at hends
      obtain ⟨hreported, hreported'⟩ := hends.outputs_eq
      refine ⟨hends.packed_eq, hends.skipped_eq, ⟨artifact, ?_, ?_⟩, ?_⟩
      · rw [hreported]
        exact hholds.reported
      · rw [hreported']
        exact hholds'.reported
      · intro hretraced hretraced'
        rw [hreported, hreported', Job.reported_of_retraceable hholds.output hretraced,
          Job.reported_of_retraceable hholds'.output hretraced']

/-! ## Seeing that no limit shows -/

def showsNoLimit (fs : FileSystem) (p : Path) : Bool :=
  decide (p.bytes.length ≤ pathLimit) &&
    [Purpose.use, .make, .entry].all fun purpose =>
      decide (fs.travel purpose linkLimit (Route.ofPath p).intoDir (fs.start p)
        (Route.ofPath p).steps ≠ .error .tooManyLinks)

theorem unlimited_of_showsNoLimit {fs : FileSystem} {p : Path} (hcheck : fs.showsNoLimit p = true) :
    fs.Unlimited p := by
  simp only [showsNoLimit, Bool.and_eq_true, decide_eq_true_eq, List.all_eq_true] at hcheck
  refine ⟨hcheck.1, ?_⟩
  intro purpose links hlinks
  have hfew := hcheck.2 purpose (by cases purpose <;> simp)
  obtain ⟨extra, rfl⟩ := Nat.exists_eq_add_of_le hlinks
  exact travel_add_links hfew extra

/-- Whether no limit shows at what a survey visits, under either spelling of the root. -/
def showsNoLimitBelow (fs : FileSystem) (rules : Rules) (root other : Path) : Bool :=
  (fs.survey rules root).toOption.all fun visits => visits.all fun visit =>
    fs.showsNoLimit (root.descend visit.trail) && fs.showsNoLimit (other.descend visit.trail)

theorem unhindered_of_showsNoLimit {fs : FileSystem} {rules : Rules} {root other : Path}
    {top : Node} (hinput : root.isStandardInput = false) (htop : fs.stat root = .ok top)
    (hdir : top.isDir = true) (hcheck : fs.showsNoLimitBelow rules root other = true) :
    fs.Unhindered rules root other top := by
  intro trail node hmeets
  obtain ⟨visits, hsurvey, visit, hvisit, rfl⟩ := hmeets.visited hinput htop hdir
  simp only [showsNoLimitBelow, hsurvey, Except.toOption, Option.all_some, List.all_eq_true,
    Bool.and_eq_true] at hcheck
  obtain ⟨hroot, hother⟩ := hcheck visit hvisit
  exact ⟨unlimited_of_showsNoLimit hroot, unlimited_of_showsNoLimit hother⟩

theorem unhindered_of_create {fs made : FileSystem} {rules : Rules} {root other p : Path}
    {here artifact : Location} {top top' : Node} (hinput : root.isStandardInput = false)
    (hroot : fs.locate .use root = .ok here) (htop : fs.node? here = some top)
    (hdir : top.isDir = true) (hcreate : fs.create p = .ok (made, artifact))
    (htop' : made.node? here = some top')
    (hcheck : ((fs.create p).toOption.all fun opened =>
      opened.1.showsNoLimitBelow rules root other) = true) :
    made.Unhindered rules root other top' := by
  rw [hcreate] at hcheck
  have hmade := madeAt_of_create hcreate
  obtain ⟨top₂, htop₂, hdir₂⟩ := hmade.exists_top htop hdir
  obtain rfl : top₂ = top' := Option.some.inj (htop₂.symm.trans htop')
  have hstat := (stat_eq_ok_iff made root _).2 ⟨here, hmade.locate_made hroot, htop'⟩
  exact unhindered_of_showsNoLimit hinput hstat hdir₂ hcheck

/-- A project with a link to it from outside, and links inside it that lead out of it and
nowhere. -/
def linkedFromOutside : FileSystem :=
  built
    [(·.putFile (Path.ofText "/proj/a.c") (Bytes.ofText "int a;")),
      (·.putFile (Path.ofText "/proj/sub/b.c") (Bytes.ofText "int b;")),
      (·.putLink (Path.ofText "/proj/up.c") (Path.ofText "../shared.c")),
      (·.putLink (Path.ofText "/proj/gone.h") (Path.ofText "missing")),
      (·.putFile (Path.ofText "/shared.c") (Bytes.ofText "int s;")),
      (·.putLink (Path.ofText "/there") (Path.ofText "proj"))]

theorem unaffected_by_spelling_of_linkedFromOutside :
    let root := Path.ofText "/proj"
    let other := Path.ofText "proj/..//there/."
    let job := Job.standard root
    let job' := Job.standard other
    let files := (job.run linkedFromOutside).files
    root.isStandardInput = false ∧ other.isStandardInput = false ∧
      linkedFromOutside.locate .use other = linkedFromOutside.locate .use root ∧
      (∃ top, linkedFromOutside.stat root = .ok top ∧ top.isDir = true ∧
        linkedFromOutside.Unhindered Rules.standard root other top) ∧
      linkedFromOutside.Unlimited job.outputPath ∧ linkedFromOutside.Unlimited job'.outputPath ∧
      (linkedFromOutside.candidates Rules.standard root).map Candidate.display =
        ["./a.c", "./gone.h", "./sub/b.c", "./up.c"] ∧
      (∃ trails : List (List Name),
        linkedFromOutside.candidates Rules.standard root = trails.map (Candidate.below root) ∧
        linkedFromOutside.candidates Rules.standard other = trails.map (Candidate.below other)) ∧
      files.Retraceable job.outputPath ∧ files.Retraceable job'.outputPath ∧
      (∃ summary summary', (job.run linkedFromOutside).result = .ok summary ∧
        (job'.run linkedFromOutside).result = .ok summary' ∧
        summary.packed = ["./a.c", "./sub/b.c", "./up.c"] ∧
        summary'.packed = summary.packed ∧ summary'.skipped = summary.skipped ∧
        summary'.output = summary.output) ∧
      (job'.run linkedFromOutside).output = (job.run linkedFromOutside).output ∧
      (job'.run linkedFromOutside).files = files := by
  intro root other job job' files
  have hinput : root.isStandardInput = false := by decide +kernel
  have hinput' : other.isStandardInput = false := by decide +kernel
  have hsame : linkedFromOutside.locate .use other = linkedFromOutside.locate .use root := by
    decide +kernel
  have hisDir : linkedFromOutside.isDir root = true := by decide +kernel
  obtain ⟨mode, entries, hstat⟩ := (isDir_eq_true_iff _ root).1 hisDir
  obtain ⟨here, hroot, htop⟩ := (stat_eq_ok_iff _ root _).1 hstat
  have hunhindered : linkedFromOutside.Unhindered Rules.standard root other _ :=
    unhindered_of_showsNoLimit hinput hstat rfl (by decide +kernel)
  have houtput : linkedFromOutside.Unlimited job.outputPath :=
    unlimited_of_showsNoLimit (by decide +kernel)
  have houtput' : linkedFromOutside.Unlimited job'.outputPath :=
    unlimited_of_showsNoLimit (by decide +kernel)
  have hall := unaffected_by_spelling hroot (hsame.trans hroot) htop rfl hinput hinput' hunhindered
  obtain ⟨⟨trails, hcandidates, hcandidates', _⟩, hruns⟩ := hall
  obtain ⟨-, hprinted, hfiles, hcompletes, htells⟩ := hruns artifactName houtput houtput'
    fun made artifact top' hcreate htop' =>
      unhindered_of_create hinput hroot htop rfl hcreate htop' (by decide +kernel)
  have hdisplays : (linkedFromOutside.candidates Rules.standard root).map Candidate.display =
      ["./a.c", "./gone.h", "./sub/b.c", "./up.c"] := by
    decide +kernel
  have hpacked : ∃ summary, (job.run linkedFromOutside).result = .ok summary ∧
      summary.packed = ["./a.c", "./sub/b.c", "./up.c"] := by
    decide +kernel
  have hretraced : files.Retraceable job.outputPath :=
    retraceable_of_showsCanonical (by decide +kernel)
  have hretraced' : files.Retraceable job'.outputPath :=
    retraceable_of_showsCanonical (by decide +kernel)
  obtain ⟨summary, hresult, hsummary⟩ := hpacked
  obtain ⟨summary', hresult'⟩ := hcompletes.2 ⟨summary, hresult⟩
  obtain ⟨hsamePacked, hsameSkipped, -, hsameOutput⟩ := htells summary summary' hresult hresult'
  exact ⟨hinput, hinput', hsame, ⟨_, hstat, rfl, hunhindered⟩, houtput, houtput', hdisplays,
    ⟨trails, hcandidates, hcandidates'⟩, hretraced, hretraced',
    ⟨summary, summary', hresult, hresult', hsummary, hsamePacked, hsameSkipped,
      hsameOutput hretraced hretraced'⟩, hprinted, hfiles⟩

def homeName : Name := ⟨Bytes.ofText "home", by decide +kernel⟩

/-- A project, entered as the working directory, below a directory that may not be searched. -/
def shutProject : FileSystem :=
  (built
    [(·.putFile (Path.ofText "/home/proj/a.c") (Bytes.ofText "int a;")),
      (·.changeMode (Path.ofText "/home") ⟨0o600⟩)]).enter [homeName, projName]

/-- Both spellings of the working directory lead to it, and no limit shows.  But the artifact cannot
be looked up from the root of the tree, so either run reports its own output path. -/
theorem spelling_shows_of_shutProject :
    let root := Path.ofText "."
    let other := Path.ofText "./."
    let job := Job.standard root
    let job' := Job.standard other
    root.isStandardInput = false ∧ other.isStandardInput = false ∧
      shutProject.locate .use other = shutProject.locate .use root ∧
      (∃ here top, shutProject.locate .use root = .ok here ∧ shutProject.node? here = some top ∧
        top.isDir = true ∧ shutProject.Unhindered Rules.standard root other top ∧
        ∀ made artifact top', shutProject.create job.outputPath = .ok (made, artifact) →
          made.node? here = some top' → made.Unhindered Rules.standard root other top') ∧
      shutProject.Unlimited job.outputPath ∧ shutProject.Unlimited job'.outputPath ∧
      (∃ summary, (job.run shutProject).result = .ok summary ∧ summary.packed = ["./a.c"] ∧
        summary.output = Path.ofText "./project_context.txt") ∧
      ∃ summary', (job'.run shutProject).result = .ok summary' ∧ summary'.packed = ["./a.c"] ∧
        summary'.output = Path.ofText "././project_context.txt" := by
  intro root other job job'
  have hinput : root.isStandardInput = false := by decide +kernel
  have hisDir : shutProject.isDir root = true := by decide +kernel
  obtain ⟨mode, entries, hstat⟩ := (isDir_eq_true_iff _ root).1 hisDir
  obtain ⟨here, hroot, htop⟩ := (stat_eq_ok_iff _ root _).1 hstat
  have hunhindered : shutProject.Unhindered Rules.standard root other _ :=
    unhindered_of_showsNoLimit hinput hstat rfl (by decide +kernel)
  refine ⟨hinput, by decide +kernel, by decide +kernel,
    ⟨here, _, hroot, htop, rfl, hunhindered, fun made artifact top' hcreate htop' =>
      unhindered_of_create hinput hroot htop rfl hcreate htop' (by decide +kernel)⟩,
    unlimited_of_showsNoLimit (by decide +kernel), unlimited_of_showsNoLimit (by decide +kernel),
    ?_, ?_⟩
  · decide +kernel
  · decide +kernel

end FileSystem

end TreePack
