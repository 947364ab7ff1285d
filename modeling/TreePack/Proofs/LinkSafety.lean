import Mathlib.Tactic
import TreePack.FileSystem.Edit
import TreePack.Proofs.Covering
import TreePack.Proofs.Endless
import TreePack.Proofs.Isolation
import TreePack.Proofs.Outcome
import TreePack.Proofs.OwnPath
import TreePack.Proofs.Subdirectory
import TreePack.Proofs.VisitedLink

/-!
# Links are safe

A survey takes a link for what it leads to only to see whether this is a directory.  If so, the link
is passed over, so the directories that are listed are all real ones, each of them listed by its own
names and only once.  Any other link counts as a file, and it is read by following it.  If that runs
into a cycle, the candidate is skipped; if it ends at a file, the candidate has the contents of this
file, as if it had been read by its own path.
-/

namespace TreePack

/-- The verdict on a directory that has been opened to list its entries, with or without success. -/
def Verdict.isListing : Verdict → Bool
  | entered | unlistable _ => true
  | _ => false

theorem Rules.isListing_judge (rules : Rules) (name : Bytes) :
    (rules.judge name).isListing = false := by
  unfold judge
  split <;> rfl

/-- The directory that is listed at this visit. -/
def Visit.listed? (fs : FileSystem) (root : Path) (visit : Visit) : Option Location :=
  if visit.verdict.isListing then (fs.locate .use (root.descend visit.trail)).toOption else none

namespace FileSystem

variable {fs made : FileSystem} {rules : Rules} {root target : Path} {here : Location}
  {top node : Node} {visits : List Visit} {visit : Visit}

/-! ## Directories are listed once -/

theorem isDir_of_isListing {p : Path} {n : Name}
    (hlisting : (node.verdict fs rules p n).isListing = true) : node.isDir = true := by
  cases node with
  | dir mode entries => rfl
  | file mode data =>
      rw [Node.verdict, rules.isListing_judge] at hlisting
      contradiction
  | link target =>
      rw [Node.verdict] at hlisting
      split at hlisting
      · contradiction
      · rw [rules.isListing_judge] at hlisting
        contradiction
  | fifo mode => contradiction
  | device kind => contradiction

theorem eq_of_listed? (hroot : fs.locate .use root = .ok here) (htop : fs.node? here = some top)
    (htopDir : top.isDir = true) {name : Bytes} (hvisit : visit ∈ top.visits fs rules root name)
    {location : Location} (hlisted : visit.listed? fs root = some location) :
    location = here ++ visit.trail := by
  unfold Visit.listed? at hlisted
  split at hlisted
  next hlisting =>
    have hdir : ∃ node, top.get? visit.trail = some node ∧ node.isDir = true := by
      obtain ⟨trail, verdict⟩ := visit
      rcases List.eq_nil_or_concat trail with rfl | ⟨init, n, rfl⟩
      · exact ⟨top, rfl, htopDir⟩
      · rw [List.concat_eq_append] at *
        obtain ⟨node, hmeets, rfl⟩ :=
          (mem_visits_concat_iff (fs.wellFormed.get htop) name init n verdict).1 hvisit
        exact ⟨node, hmeets.get?, isDir_of_isListing hlisting⟩
    obtain ⟨node, hnode, hnodeDir⟩ := hdir
    have hnotLink : ∀ target, node ≠ .link target := by
      rintro target rfl
      simp [Node.isDir] at hnodeDir
    cases hlocate : fs.locate .use (root.descend visit.trail) with
    | error e => simp [hlocate, Except.toOption] at hlisted
    | ok found =>
        rw [hlocate] at hlisted
        cases hlisted
        exact locate_descend hroot htop hnode hnotLink hlocate
  next => contradiction

theorem nodup_listed (hsurvey : fs.survey rules root = .ok visits) :
    (visits.filterMap (Visit.listed? fs root)).Nodup := by
  cases visits with
  | nil => exact List.nodup_nil
  | cons first rest =>
      cases hdir : fs.isDir root with
      | false =>
          obtain ⟨halone, -⟩ := survey_of_not_isDir hdir hsurvey List.mem_cons_self
          rw [halone]
          cases hlisted : first.listed? fs root <;> simp [hlisted]
      | true =>
          obtain ⟨-, here, top, hroot, htop, htopDir, hvisits⟩ :=
            survey_of_isDir hdir hsurvey List.mem_cons_self
          have horder : InOrder (top.visits fs rules root (rootName root)) :=
            Node.inOrder_visits (fs.wellFormed.get htop) root (rootName root)
          rw [hvisits, List.Nodup, List.pairwise_filterMap]
          apply horder.imp_of_mem
          rintro visit later hvisit hlater hbefore location hlisted _ hlisted' rfl
          have hsame := eq_of_listed? hroot htop htopDir hvisit hlisted
          rw [eq_of_listed? hroot htop htopDir hlater hlisted'] at hsame
          exact hbefore.ne (List.append_cancel_left hsame).symm

/-! ## Links to directories -/

theorem not_covered_of_link (hsurvey : fs.survey rules root = .ok visits) {trail : List Name}
    (hpassed : ∀ visit ∈ visits, trail <+: visit.trail → visit = ⟨trail, .passedOver⟩)
    {c : Candidate} (hc : c ∈ fs.candidates rules root) :
    (root.descend trail).covers c.path = false := by
  unfold candidates at hc
  rw [hsurvey] at hc
  obtain ⟨visit, hvisit, hcandidate⟩ := List.mem_filterMap.1 hc
  have hroot := ne_nil_of_survey hsurvey hvisit
  rw [Visit.path_of_candidate? hcandidate, Bool.eq_false_iff, ne_eq, Path.covers_descend_iff hroot]
  intro hwithin
  rw [hpassed visit hvisit hwithin] at hcandidate
  contradiction

/-! ## Links that count as files -/

theorem mem_candidates_of_visit (hsurvey : fs.survey rules root = .ok visits)
    (hvisit : visit ∈ visits) (hverdict : visit.verdict = .candidate) :
    Candidate.below root visit.trail ∈ fs.candidates rules root := by
  unfold candidates
  simp only [hsurvey]
  rw [filterMap_candidate?]
  obtain ⟨trail, verdict⟩ := visit
  cases hverdict
  exact List.mem_map_of_mem ((mem_packedTrails visits trail).2 hvisit)

section Accepted

variable (hsurvey : fs.survey rules root = .ok visits) (hvisit : visit ∈ visits)
  (hlink : fs.linkStat (root.descend visit.trail) = .ok (.link target))
  (haccepts : rules.accepts (Utf8.lossy (entryName root visit.trail)) = true)

include hsurvey hvisit hlink haccepts

theorem candidate_of_accepted_link (hdir : fs.isDir (root.descend visit.trail) = false) :
    Candidate.below root visit.trail ∈ fs.candidates rules root ∧
      ∀ made artifact, fs.MadeAt made artifact →
        Candidate.below root visit.trail ∈ made.candidates rules root := by
  have hverdict : visit.verdict = .candidate := by
    rw [verdict_of_link hsurvey hvisit hlink hdir, Rules.judge, if_pos haccepts]
  refine ⟨mem_candidates_of_visit hsurvey hvisit hverdict, ?_⟩
  intro made artifact hmade
  obtain ⟨visits', hsurvey', hvisit'⟩ := hmade.exists_visit hsurvey hvisit hlink hdir
  exact mem_candidates_of_visit hsurvey' hvisit' hverdict

theorem cyclic_link_is_skipped (hcycle : fs.RunsIntoCycle (root.descend visit.trail)) :
    Candidate.below root visit.trail ∈ fs.candidates rules root ∧
      ∀ outputName, Job.Yields ⟨root, outputName, rules⟩ fs (Candidate.below root visit.trail)
        (.error (.io .tooManyLinks)) := by
  obtain ⟨hmem, hmemMade⟩ :=
    candidate_of_accepted_link hsurvey hvisit hlink haccepts hcycle.isDir_eq
  refine ⟨hmem, ?_⟩
  intro outputName
  apply Job.yields_of_create
  intro made artifact hcreate
  have hmade := madeAt_of_create hcreate
  have hcycleMade : made.RunsIntoCycle (Candidate.below root visit.trail).path :=
    hmade.runsIntoCycle hcycle
  refine ⟨hmemMade made artifact hmade, ?_, ?_⟩
  · rw [hcycleMade.locate_eq]
    simp
  · unfold readCandidate
    rw [hcycleMade.read_eq]

theorem link_to_file_is_read {f : Location} {mode : Mode} {data : Bytes}
    (hlocate : fs.locate .use (root.descend visit.trail) = .ok f)
    (hfile : fs.node? f = some (.file mode data)) (hread : mode.mayRead = true) :
    Candidate.below root visit.trail ∈ fs.candidates rules root ∧
      ∀ outputName, fs.locate .use (root.join (Path.ofText outputName)) ≠ .ok f →
        Job.Yields ⟨root, outputName, rules⟩ fs (Candidate.below root visit.trail)
          (PackedFile.ofBytes (Candidate.below root visit.trail).display data) := by
  have hdir : fs.isDir (root.descend visit.trail) = false := by
    have hstat : fs.stat (root.descend visit.trail) = .ok (.file mode data) :=
      (stat_eq_ok_iff fs _ _).2 ⟨f, hlocate, hfile⟩
    unfold isDir
    rw [hstat]
    rfl
  obtain ⟨hmem, hmemMade⟩ := candidate_of_accepted_link hsurvey hvisit hlink haccepts hdir
  refine ⟨hmem, ?_⟩
  intro outputName houtput
  apply Job.yields_of_create
  intro made artifact hcreate
  have hmade := madeAt_of_create hcreate
  have hne : artifact ≠ f := artifact_ne_of_create hcreate hfile houtput
  have hlocateMade : made.locate .use (Candidate.below root visit.trail).path = .ok f :=
    hmade.locate_made hlocate
  have hfileMade : made.node? f = some (.file mode data) := by
    rw [← hfile]
    exact node?_eq_of_surface (hmade.elsewhere f hne.symm) (by simp [hfile, Node.isDir])
  refine ⟨hmemMade made artifact hmade, ?_, readCandidate_of_file hlocateMade hfileMade hread⟩
  rw [hlocateMade]
  intro hsame
  exact hne (Except.ok.inj hsame).symm

end Accepted

/-- A link to a directory is neither entered nor a candidate, and no directory is listed twice.  A
link with an accepted name that runs into a cycle, which no number of links is enough to get out of,
is a candidate and is skipped.  One that ends at a file is a candidate and becomes what this file
becomes when it is read by its own path. -/
theorem links_are_safe (hsurvey : fs.survey rules root = .ok visits) :
    (∀ trail target, trail ≠ [] → fs.linkStat (root.descend trail) = .ok (.link target) →
        fs.isDir (root.descend trail) = true →
        (∀ visit ∈ visits, trail <+: visit.trail → visit = ⟨trail, .passedOver⟩) ∧
          ∀ c ∈ fs.candidates rules root, (root.descend trail).covers c.path = false) ∧
      (visits.filterMap (Visit.listed? fs root)).Nodup ∧
      (∀ p, Usable p → (fs.RunsIntoCycle p ↔ ∀ links, fs.travel .use links
        (Route.ofPath p).intoDir (fs.start p) (Route.ofPath p).steps = .error .tooManyLinks)) ∧
      ∀ visit ∈ visits, ∀ target,
        fs.linkStat (root.descend visit.trail) = .ok (.link target) →
        rules.accepts (Utf8.lossy (entryName root visit.trail)) = true →
        let c := Candidate.below root visit.trail
        (fs.RunsIntoCycle c.path →
          c ∈ fs.candidates rules root ∧
            (∀ outputName, Job.Yields ⟨root, outputName, rules⟩ fs c
              (.error (.io .tooManyLinks))) ∧
            SkipReason.message (.io .tooManyLinks) =
              "Too many levels of symbolic links (os error 40)") ∧
          ∀ f mode data, fs.locate .use c.path = .ok f → fs.node? f = some (.file mode data) →
            mode.mayRead = true → fs.OpenWay f →
            c ∈ fs.candidates rules root ∧
              fs.readCandidate ⟨Path.ofLocation f, c.display⟩ =
                PackedFile.ofBytes c.display data ∧
              ∀ outputName, fs.locate .use (root.join (Path.ofText outputName)) ≠ .ok f →
                Job.Yields ⟨root, outputName, rules⟩ fs c
                  (fs.readCandidate ⟨Path.ofLocation f, c.display⟩) := by
  refine ⟨?_, nodup_listed hsurvey, fun p => runsIntoCycle_iff, ?_⟩
  · intro trail target htrail hlink hdir
    obtain ⟨init, n, rfl⟩ := (List.eq_nil_or_concat trail).resolve_left htrail
    rw [List.concat_eq_append] at *
    have hpassed : ∀ visit ∈ visits, init ++ [n] <+: visit.trail →
        visit = ⟨init ++ [n], .passedOver⟩ := by
      intro visit hvisit hwithin
      rw [visit_of_link hsurvey hvisit hlink hwithin]
      simp [Node.verdict, hdir]
    exact ⟨hpassed, fun c => not_covered_of_link hsurvey hpassed⟩
  · intro visit hvisit target hlink haccepts c
    constructor
    · intro hcycle
      obtain ⟨hmem, hskipped⟩ := cyclic_link_is_skipped hsurvey hvisit hlink haccepts hcycle
      exact ⟨hmem, hskipped, by decide +kernel⟩
    · intro f mode data hlocate hfile hread hway
      obtain ⟨hmem, hyields⟩ :=
        link_to_file_is_read hsurvey hvisit hlink haccepts hlocate hfile hread
      have hown : fs.locate .use (Path.ofLocation f) = .ok f := hway.locate_eq hfile (by simp)
      have hownRead : fs.readCandidate ⟨Path.ofLocation f, c.display⟩ =
          PackedFile.ofBytes c.display data :=
        readCandidate_of_file hown hfile hread
      rw [hownRead]
      exact ⟨hmem, rfl, hyields⟩

/-! ## A project full of links -/

/-- The node at this location is a link to the target. -/
def hasLinkTo (fs : FileSystem) (location : Location) (target : Path) : Bool :=
  match fs.node? location with
  | some (.link other) => other = target
  | _ => false

theorem link_of_hasLinkTo {location : Location} (hcheck : fs.hasLinkTo location target = true) :
    fs.node? location = some (.link target) := by
  unfold hasLinkTo at hcheck
  split at hcheck
  next other hlink => rw [hlink, of_decide_eq_true hcheck]
  next => exact absurd hcheck Bool.false_ne_true

/-- The node at this location is a file with these contents, and they may be read. -/
def hasFileWith (fs : FileSystem) (location : Location) (data : Bytes) : Bool :=
  match fs.node? location with
  | some (.file mode other) => mode.mayRead && other = data
  | _ => false

theorem file_of_hasFileWith {location : Location} {data : Bytes}
    (hcheck : fs.hasFileWith location data = true) :
    ∃ mode, fs.node? location = some (.file mode data) ∧ mode.mayRead = true := by
  unfold hasFileWith at hcheck
  split at hcheck
  next mode other hfile =>
    rw [Bool.and_eq_true, decide_eq_true_iff] at hcheck
    obtain ⟨hread, rfl⟩ := hcheck
    exact ⟨mode, hfile, hread⟩
  next => exact absurd hcheck Bool.false_ne_true

def deepName : Name := ⟨Bytes.ofText "deep.c", by decide +kernel⟩

def farName : Name := ⟨Bytes.ofText "far.c", by decide +kernel⟩

def upName : Name := ⟨Bytes.ofText "up.c", by decide +kernel⟩

def subName : Name := ⟨Bytes.ofText "sub", by decide +kernel⟩

def backName : Name := ⟨Bytes.ofText "back", by decide +kernel⟩

def srcName : Name := ⟨Bytes.ofText "src", by decide +kernel⟩

def realName : Name := ⟨Bytes.ofText "real.c", by decide +kernel⟩

/-- A project with links to the directories above them, one of them with an accepted name, a link to
itself, a link whose cycle leads through a directory and up again, and a link to a link to a file. -/
def tangledProject : FileSystem :=
  built
    [(·.putFile (Path.ofText "/proj/src/real.c") (Bytes.ofText "int r;")),
      (·.putLink (Path.ofText "/proj/sub/back") (Path.ofText "..")),
      (·.putLink (Path.ofText "/proj/up.c") (Path.ofText "..")),
      (·.putLink (Path.ofText "/proj/loop.c") (Path.ofText "loop.c")),
      (·.putLink (Path.ofText "/proj/deep.c") (Path.ofText "sub/back/deep.c")),
      (·.putLink (Path.ofText "/proj/near.c") (Path.ofText "src/real.c")),
      (·.putLink (Path.ofText "/proj/far.c") (Path.ofText "near.c"))]

theorem searchable_of_tangledProject :
    ∀ location ∈ [[], [projName], [projName, srcName], [projName, subName]],
      tangledProject.Searchable location := by
  decide +kernel

theorem links_of_tangledProject :
    tangledProject.node? [projName, upName] = some (.link (Path.ofText "..")) ∧
      tangledProject.node? [projName, deepName] =
        some (.link (Path.ofText "sub/back/deep.c")) ∧
      tangledProject.node? [projName, farName] = some (.link (Path.ofText "near.c")) ∧
      tangledProject.node? [projName, subName, backName] = some (.link (Path.ofText "..")) := by
  have hcheck : tangledProject.hasLinkTo [projName, upName] (Path.ofText "..") = true ∧
      tangledProject.hasLinkTo [projName, deepName] (Path.ofText "sub/back/deep.c") = true ∧
      tangledProject.hasLinkTo [projName, farName] (Path.ofText "near.c") = true ∧
      tangledProject.hasLinkTo [projName, subName, backName] (Path.ofText "..") = true := by
    decide +kernel
  obtain ⟨hup, hdeep, hfar, hback⟩ := hcheck
  exact ⟨link_of_hasLinkTo hup, link_of_hasLinkTo hdeep, link_of_hasLinkTo hfar,
    link_of_hasLinkTo hback⟩

/-- The link leads down into a directory, by a link up again and so back to itself. -/
theorem cyclicLink_of_tangledProject : tangledProject.CyclicLink [projName] deepName := by
  obtain ⟨-, hdeep, -, hback⟩ := links_of_tangledProject
  have hproj : tangledProject.Searchable [projName] := searchable_of_tangledProject _ (by simp)
  have hsub : tangledProject.Searchable [projName, subName] :=
    searchable_of_tangledProject _ (by simp)
  obtain ⟨mode, entries, hsubDir, -⟩ := id hsub
  have hdeepSteps : (Route.ofPath (Path.ofText "sub/back/deep.c")).steps =
      [.down subName, .down backName, .down deepName] := by
    decide +kernel
  have hdeepFrom : (Route.ofPath (Path.ofText "sub/back/deep.c")).fromRoot = false := by
    decide +kernel
  have hbackSteps : (Route.ofPath (Path.ofText "..")).steps = [.up] := by decide +kernel
  have hbackFrom : (Route.ofPath (Path.ofText "..")).fromRoot = false := by decide +kernel
  have hdown : tangledProject.Moves 1 [projName] [.down deepName] [projName]
      [.down subName, .down backName, .down deepName] := by
    have hmove : tangledProject.Moves 1 [projName] [.down deepName] _ _ :=
      .follow hproj (by decide +kernel) hdeep
    rw [hdeepFrom, hdeepSteps] at hmove
    exact hmove
  have hagain : tangledProject.Moves 1 [projName, subName] [.down backName, .down deepName]
      [projName, subName] [.up, .down deepName] := by
    have hmove : tangledProject.Moves 1 [projName, subName] [.down backName, .down deepName] _ _ :=
      .follow hsub (by decide +kernel) hback
    rw [hbackFrom, hbackSteps] at hmove
    exact hmove
  have hinto : tangledProject.Moves 0 [projName] [.down subName, .down backName, .down deepName]
      [projName, subName] [.down backName, .down deepName] :=
    .enter hproj (by decide +kernel) hsubDir (by simp)
  exact ⟨_, [], by decide, .move hdown (.move hinto (.move hagain (.move (.up hsub) .here)))⟩

theorem runsIntoCycle_of_tangledProject :
    tangledProject.RunsIntoCycle ((Path.ofText "/proj").descend [deepName]) := by
  have hsteps : (Route.ofPath ((Path.ofText "/proj").descend [deepName])).steps =
      [.down projName, .down deepName] := by
    decide +kernel
  have hstart : tangledProject.start ((Path.ofText "/proj").descend [deepName]) = [] :=
    if_pos (by decide +kernel)
  obtain ⟨mode, entries, hproj, -⟩ : tangledProject.Searchable [projName] :=
    searchable_of_tangledProject _ (by simp)
  refine ⟨⟨by decide +kernel, by decide +kernel, by decide +kernel⟩, 0, [projName], deepName, [], ?_,
    cyclicLink_of_tangledProject⟩
  rw [hsteps, hstart]
  exact .move (.enter (searchable_of_tangledProject _ (by simp)) (by decide +kernel) hproj (by simp))
    .here

theorem openWay_of_tangledProject : tangledProject.OpenWay [projName, srcName, realName] := by
  refine ⟨⟨by decide +kernel, by decide +kernel, by decide +kernel⟩, ?_, by decide +kernel⟩
  intro before after hsplit hafter
  obtain ⟨init, n, rfl⟩ := (List.eq_nil_or_concat after).resolve_left hafter
  have hwhole : [projName, srcName] ++ [realName] = before ++ init ++ [n] := by
    rw [List.append_assoc]
    simpa using hsplit
  have hbefore : before ∈ [projName, srcName].inits :=
    (List.mem_inits _ _).2 ⟨init, (List.append_inj' hwhole rfl).1.symm⟩
  have hplaces : before = [] ∨ before = [projName] ∨ before = [projName, srcName] := by
    simpa using hbefore
  apply searchable_of_tangledProject
  rcases hplaces with rfl | rfl | rfl <;> simp

theorem links_are_safe_of_tangledProject :
    let root := Path.ofText "/proj"
    let deep := Candidate.below root [deepName]
    let far := Candidate.below root [farName]
    ∃ visits, tangledProject.survey Rules.standard root = .ok visits ∧
      tangledProject.linkStat (root.descend [upName]) = .ok (.link (Path.ofText "..")) ∧
      tangledProject.isDir (root.descend [upName]) = true ∧
      ⟨[upName], .passedOver⟩ ∈ visits ∧
      (∀ visit ∈ visits, [upName] <+: visit.trail → visit = ⟨[upName], .passedOver⟩) ∧
      visits.filterMap (Visit.listed? tangledProject root) =
        [[projName], [projName, srcName], [projName, subName]] ∧
      tangledProject.RunsIntoCycle deep.path ∧
      (Job.standard root).Yields tangledProject deep (.error (.io .tooManyLinks)) ∧
      tangledProject.OpenWay [projName, srcName, realName] ∧
      (Job.standard root).Yields tangledProject far (.ok ⟨"./far.c", "int r;"⟩) ∧
      ∃ summary, ((Job.standard root).run tangledProject).result = .ok summary ∧
        summary.packed = ["./far.c", "./near.c", "./src/real.c"] ∧
        summary.skipped =
          [("./deep.c", .io .tooManyLinks), ("./loop.c", .io .tooManyLinks)] := by
  intro root deep far
  have hvisits : ∃ visits, tangledProject.survey Rules.standard root = .ok visits ∧
      ⟨[upName], .passedOver⟩ ∈ visits ∧ ⟨[deepName], .candidate⟩ ∈ visits ∧
      ⟨[farName], .candidate⟩ ∈ visits ∧
      visits.filterMap (Visit.listed? tangledProject root) =
        [[projName], [projName, srcName], [projName, subName]] := by
    decide +kernel
  obtain ⟨visits, hsurvey, hup, hdeep, hfar, hlisted⟩ := hvisits
  have hplaces : tangledProject.locate .entry (root.descend [upName]) = .ok [projName, upName] ∧
      tangledProject.locate .entry (root.descend [deepName]) = .ok [projName, deepName] ∧
      tangledProject.locate .entry (root.descend [farName]) = .ok [projName, farName] ∧
      tangledProject.locate .use (root.descend [farName]) = .ok [projName, srcName, realName] ∧
      tangledProject.locate .use (root.join (Path.ofText artifactName)) ≠
        .ok [projName, srcName, realName] ∧
      tangledProject.isDir (root.descend [upName]) = true := by
    decide +kernel
  obtain ⟨hupPlace, hdeepPlace, hfarPlace, hreal, houtput, hupDir⟩ := hplaces
  obtain ⟨hupNode, hdeepNode, hfarNode, -⟩ := links_of_tangledProject
  have hupLink := (linkStat_eq_ok_iff _ _ _).2 ⟨_, hupPlace, hupNode⟩
  have hdeepLink := (linkStat_eq_ok_iff _ _ _).2 ⟨_, hdeepPlace, hdeepNode⟩
  have hfarLink := (linkStat_eq_ok_iff _ _ _).2 ⟨_, hfarPlace, hfarNode⟩
  have hrealFile : tangledProject.hasFileWith [projName, srcName, realName]
      (Bytes.ofText "int r;") = true := by
    decide +kernel
  obtain ⟨mode, hfile, hread⟩ := file_of_hasFileWith hrealFile
  obtain ⟨hpassed, -, -, haccepted⟩ := links_are_safe hsurvey
  have hskipped := ((haccepted _ hdeep _ hdeepLink (by decide +kernel)).1
    runsIntoCycle_of_tangledProject).2.1 artifactName
  obtain ⟨-, hown, hyields⟩ := (haccepted _ hfar _ hfarLink (by decide +kernel)).2 _ mode _
    hreal hfile hread openWay_of_tangledProject
  have hpacked := hyields artifactName houtput
  have hdecoded : PackedFile.ofBytes far.display (Bytes.ofText "int r;") =
      .ok ⟨"./far.c", "int r;"⟩ := by
    decide +kernel
  rw [hown, hdecoded] at hpacked
  have hsummary : ∃ summary, ((Job.standard root).run tangledProject).result = .ok summary ∧
      summary.packed = ["./far.c", "./near.c", "./src/real.c"] ∧
      summary.skipped =
        [("./deep.c", .io .tooManyLinks), ("./loop.c", .io .tooManyLinks)] := by
    decide +kernel
  exact ⟨visits, hsurvey, hupLink, hupDir, hup, (hpassed [upName] _ (by simp) hupLink hupDir).1,
    hlisted, runsIntoCycle_of_tangledProject, hskipped, openWay_of_tangledProject, hpacked, hsummary⟩

end FileSystem

end TreePack
