import Mathlib.Tactic
import TreePack.FileSystem.Edit
import TreePack.Event
import TreePack.Proofs.Meeting

/-!
# What each entry adds to a survey

A survey tells of the entries that it visits in two lists, that of its candidates and that of the
events which it reports.  The relation `Contributes` says by the kind of an entry, its name and its
permissions what this entry adds to them: a candidate, one event or nothing.  It holds of exactly
one contribution for every entry.

Written down in the order of the visits, the contributions of all visited entries are the two lists.
Only a root that cannot be listed adds something more, one event at the beginning.
-/

namespace TreePack

inductive Contribution where
  | event (level : Level) (message : String)
  | candidate (c : Candidate)
  | nothing
  deriving DecidableEq

namespace Contribution

def event? : Contribution → Option (Level × String)
  | event level message => some (level, message)
  | _ => none

def candidate? : Contribution → Option Candidate
  | candidate c => some c
  | _ => none

end Contribution

/-- What the entry `n` at this path adds to a survey of `root`, if it is this node. -/
inductive Contributes (fs : FileSystem) (rules : Rules) (root path : Path) (n : Name) :
    Node → Contribution → Prop
  | prunedDir {mode : Mode} {entries : List (Name × Node)} :
      rules.prunes n.display = true →
      Contributes fs rules root path n (.dir mode entries)
        (.event .debug ("pruned directory: " ++ path.display))
  | unlistableDir {mode : Mode} {entries : List (Name × Node)} {e : IoError} :
      rules.prunes n.display = false → fs.list path = .error e →
      Contributes fs rules root path n (.dir mode entries)
        (.event .warn (Event.walkProblem root path e).message)
  | enteredDir {mode : Mode} {entries : List (Name × Node)} :
      rules.prunes n.display = false → fs.Listable path →
      Contributes fs rules root path n (.dir mode entries) .nothing
  | candidate {node : Node} :
      fs.FileLike path node → rules.accepts n.display = true →
      Contributes fs rules root path n node (.candidate ⟨path, Path.displayBelow root path⟩)
  | notPackable {node : Node} :
      fs.FileLike path node → rules.accepts n.display = false →
      Contributes fs rules root path n node
        (.event .debug ("not packable: " ++ path.display))
  | linkToDir {target : Path} :
      fs.isDir path = true → Contributes fs rules root path n (.link target) .nothing
  | fifo {mode : Mode} : Contributes fs rules root path n (.fifo mode) .nothing
  | device {kind : Device} : Contributes fs rules root path n (.device kind) .nothing

/-- What a verdict on the entry at this path puts into the two lists. -/
def Verdict.contribution (root path : Path) : Verdict → Contribution
  | pruned => .event .debug ("pruned directory: " ++ path.display)
  | rejected => .event .debug ("not packable: " ++ path.display)
  | unlistable e => .event .warn (Event.walkProblem root path e).message
  | candidate => .candidate ⟨path, Path.displayBelow root path⟩
  | entered | passedOver => .nothing

def Visit.contribution (root : Path) (visit : Visit) : Contribution :=
  visit.verdict.contribution root (root.descend visit.trail)

namespace FileSystem

variable {fs : FileSystem} {rules : Rules} {root path : Path} {n : Name}

theorem contributes_of_fileLike {node : Node} (hlike : fs.FileLike path node) :
    Contributes fs rules root path n node ((rules.judge n.bytes).contribution root path) := by
  unfold Rules.judge
  split
  next haccepts => exact .candidate hlike haccepts
  next hrejects =>
    have hrejects : rules.accepts n.display = false := Bool.eq_false_iff.2 hrejects
    exact .notPackable hlike hrejects

theorem contributes_verdict (node : Node) :
    Contributes fs rules root path n node
      ((node.verdict fs rules path n).contribution root path) := by
  cases node with
  | file mode data => exact contributes_of_fileLike (.inl rfl)
  | link target =>
      simp only [Node.verdict]
      split
      next hdir => exact .linkToDir hdir
      next hdir => exact contributes_of_fileLike (.inr ⟨⟨target, rfl⟩, by simpa using hdir⟩)
  | fifo mode => exact .fifo
  | device kind => exact .device
  | dir mode entries =>
      simp only [Node.verdict]
      split
      next hprune => exact .prunedDir hprune
      next hkept =>
        have hkept : rules.prunes n.display = false := by simpa using hkept
        split
        next e hlist => exact .unlistableDir hkept hlist
        next listed hlist => exact .enteredDir hkept ⟨listed, hlist⟩

theorem verdict_of_fileLike {node : Node} (hlike : fs.FileLike path node) :
    node.verdict fs rules path n = rules.judge n.bytes := by
  rcases hlike with hfile | ⟨⟨target, rfl⟩, hdir⟩
  · cases node <;> simp only [Node.isFile, Bool.false_eq_true] at hfile
    rfl
  · simp [Node.verdict, hdir]

theorem contribution_eq {node : Node} {contribution : Contribution}
    (hcontributes : Contributes fs rules root path n node contribution) :
    contribution = (node.verdict fs rules path n).contribution root path := by
  cases hcontributes with
  | prunedDir hprune => simp [Node.verdict, hprune, Verdict.contribution]
  | unlistableDir hkept hlist => simp [Node.verdict, hkept, hlist, Verdict.contribution]
  | enteredDir hkept hlist =>
      obtain ⟨listed, hlist⟩ := hlist
      simp [Node.verdict, hkept, hlist, Verdict.contribution]
  | candidate hlike haccepts =>
      have haccepts : rules.accepts (Utf8.lossy n.bytes) = true := haccepts
      simp [verdict_of_fileLike hlike, Rules.judge, haccepts, Verdict.contribution]
  | notPackable hlike hrejects =>
      have hrejects : rules.accepts (Utf8.lossy n.bytes) = false := hrejects
      simp [verdict_of_fileLike hlike, Rules.judge, hrejects, Verdict.contribution]
  | linkToDir hdir => simp [Node.verdict, hdir, Verdict.contribution]
  | fifo => rfl
  | device => rfl

/-- Every entry makes one of the contributions, and only one. -/
theorem existsUnique_contributes (fs : FileSystem) (rules : Rules) (root path : Path) (n : Name)
    (node : Node) :
    ∃! contribution, Contributes fs rules root path n node contribution :=
  ⟨_, contributes_verdict node, fun _ hother => contribution_eq hother⟩

/-! ## The two lists -/

theorem events_eq_contributions (root : Path) (visits : List Visit) :
    (visits.filterMap (Visit.event? root)).map (fun event => (event.level, event.message)) =
      (visits.map (Visit.contribution root)).filterMap Contribution.event? := by
  rw [List.map_filterMap, List.filterMap_map]
  apply List.filterMap_congr
  rintro ⟨trail, verdict⟩ _
  cases verdict <;> rfl

theorem candidates_eq_contributions (root : Path) (visits : List Visit) :
    visits.filterMap (Visit.candidate? root) =
      (visits.map (Visit.contribution root)).filterMap Contribution.candidate? := by
  rw [List.filterMap_map]
  apply List.filterMap_congr
  rintro ⟨trail, verdict⟩ _
  cases verdict <;> rfl

/-- The visits of a directory that is surveyed are that of the directory itself, which says whether
it can be listed, and those below it. -/
theorem exists_visits_below (fs : FileSystem) (rules : Rules) (path : Path) (name : Bytes)
    (mode : Mode) (entries : List (Name × Node)) :
    ∃ below, (Node.dir mode entries).visits fs rules path name =
        ⟨[], match fs.list path with
          | .error e => .unlistable e
          | .ok _ => .entered⟩ :: below ∧
      ∀ visit ∈ below, visit.trail ≠ [] := by
  rw [Node.visits_dir]
  cases fs.list path with
  | error e => exact ⟨[], rfl, by simp⟩
  | ok listed =>
      refine ⟨_, rfl, ?_⟩
      intro visit hvisit
      obtain ⟨group, _, inner, _, rfl⟩ := (mem_inNameOrder _ visit).1 hvisit
      simp [Visit.under]

/-- The visits below a directory are those of the entries that are met there. -/
theorem mem_below_iff {top : Node} (hwf : top.WellFormed) {name : Bytes} {verdict : Verdict}
    {below : List Visit} (hvisits : top.visits fs rules root name = ⟨[], verdict⟩ :: below)
    (hbelow : ∀ visit ∈ below, visit.trail ≠ []) (visit : Visit) :
    visit ∈ below ↔ ∃ init n node, fs.Meets rules root top (init ++ [n]) node ∧
      visit = ⟨init ++ [n], node.verdict fs rules (root.descend (init ++ [n])) n⟩ := by
  have hmem : ∀ init n verdict, ⟨init ++ [n], verdict⟩ ∈ below ↔
      ∃ node, fs.Meets rules root top (init ++ [n]) node ∧
        verdict = node.verdict fs rules (root.descend (init ++ [n])) n := by
    intro init n verdict
    rw [← mem_visits_concat_iff hwf name, hvisits]
    simp
  constructor
  · intro hvisit
    obtain ⟨trail, verdict⟩ := visit
    obtain ⟨init, n, rfl⟩ := (List.eq_nil_or_concat trail).resolve_left (hbelow _ hvisit)
    rw [List.concat_eq_append] at hvisit ⊢
    obtain ⟨node, hmeets, rfl⟩ := (hmem init n verdict).1 hvisit
    exact ⟨init, n, node, hmeets, rfl⟩
  · rintro ⟨init, n, node, hmeets, rfl⟩
    exact (hmem init n _).2 ⟨node, hmeets, rfl⟩

/-- What is reported of a root that cannot be listed. -/
def rootEvents (fs : FileSystem) (root : Path) : List (Level × String) :=
  match fs.list root with
  | .error e => [(.warn, (Event.walkProblem root root e).message)]
  | .ok _ => []

/-- Every entry that a survey of a directory visits makes exactly one contribution, and these
contributions, in the order of the visits, are the events and the candidates of the survey.  There
are no others, apart from one warning if the root cannot be listed. -/
theorem survey_accounts_for_visited (rules : Rules) (hinput : root.isStandardInput = false)
    (hdir : fs.isDir root = true) :
    (∀ path n node, ∃! contribution, Contributes fs rules root path n node contribution) ∧
      ∃ top, fs.stat root = .ok top ∧
        ∃ (trails : List (List Name)) (contributions : List Contribution),
          trails.Pairwise TrailBefore ∧
          (∀ trail, trail ∈ trails ↔ trail ≠ [] ∧ ∃ node, fs.Meets rules root top trail node) ∧
          List.Forall₂ (fun trail contribution => ∃ init n node, trail = init ++ [n] ∧
              fs.Meets rules root top trail node ∧
              Contributes fs rules root (root.descend trail) n node contribution)
            trails contributions ∧
          (fs.surveyEvents rules root).map (fun event => (event.level, event.message)) =
            fs.rootEvents root ++ contributions.filterMap Contribution.event? ∧
          fs.candidates rules root = contributions.filterMap Contribution.candidate? := by
  refine ⟨existsUnique_contributes fs rules root, ?_⟩
  obtain ⟨mode, entries, htop⟩ := (isDir_eq_true_iff fs root).1 hdir
  obtain ⟨here, _, hnode⟩ := (stat_eq_ok_iff fs root _).1 htop
  have hwf : (Node.dir mode entries).WellFormed := fs.wellFormed.get hnode
  have hsurvey : fs.survey rules root =
      .ok ((Node.dir mode entries).visits fs rules root (rootName root)) :=
    survey_eq_visits hinput htop rfl
  obtain ⟨below, hvisits, hbelow⟩ :=
    exists_visits_below fs rules root (rootName root) mode entries
  have hmem := mem_below_iff hwf hvisits hbelow
  have hsorted : (below.map Visit.trail).Pairwise TrailBefore := by
    have hall : (((Node.dir mode entries).visits fs rules root (rootName root)).map
        Visit.trail).Pairwise TrailBefore :=
      Node.visits_pairwise hwf root (rootName root)
    rw [hvisits] at hall
    exact (List.pairwise_cons.1 hall).2
  refine ⟨_, htop, below.map Visit.trail, below.map (Visit.contribution root), hsorted, ?_, ?_, ?_,
    ?_⟩
  · intro trail
    rw [List.mem_map]
    constructor
    · rintro ⟨visit, hvisit, rfl⟩
      obtain ⟨init, n, node, hmeets, rfl⟩ := (hmem visit).1 hvisit
      exact ⟨by simp, node, hmeets⟩
    · rintro ⟨htrail, node, hmeets⟩
      obtain ⟨init, n, rfl⟩ := (List.eq_nil_or_concat trail).resolve_left htrail
      rw [List.concat_eq_append] at hmeets ⊢
      exact ⟨_, (hmem _).2 ⟨init, n, node, hmeets, rfl⟩, rfl⟩
  · rw [List.forall₂_map_left_iff, List.forall₂_map_right_iff, List.forall₂_same]
    intro visit hvisit
    obtain ⟨init, n, node, hmeets, rfl⟩ := (hmem visit).1 hvisit
    exact ⟨init, n, node, rfl, hmeets, contributes_verdict node⟩
  · simp only [surveyEvents, hsurvey, hvisits, events_eq_contributions, rootEvents]
    cases fs.list root <;> rfl
  · simp only [candidates, hsurvey, hvisits, candidates_eq_contributions]
    cases fs.list root <;> rfl

/-- In this survey six of the nine visited entries contribute something, among them a warning that
the directory `locked` cannot be listed. -/
theorem survey_accounts_for_visited_of_linkedProject :
    (Path.ofText "/there/.").isStandardInput = false ∧
      linkedProject.isDir (Path.ofText "/there/.") = true ∧
      (linkedProject.surveyEvents Rules.standard (Path.ofText "/there/.")).map
          (fun event => (event.level, event.message)) =
        [(.debug, "not packable: /there/./.hidden/.gitignore"),
          (.debug, "pruned directory: /there/./build"),
          (.warn, "Could not process entry in \"/there/.\": /there/./locked: IO error for operation "
            ++ "on /there/./locked: Permission denied (os error 13)")] ∧
      (linkedProject.candidates Rules.standard (Path.ofText "/there/.")).map Candidate.display =
        ["./.hidden/x.md", "./a.c", "./gone.h"] ∧
      ∃ contributions : List Contribution,
        (linkedProject.surveyEvents Rules.standard (Path.ofText "/there/.")).map
            (fun event => (event.level, event.message)) =
          linkedProject.rootEvents (Path.ofText "/there/.") ++
            contributions.filterMap Contribution.event? ∧
        linkedProject.candidates Rules.standard (Path.ofText "/there/.") =
          contributions.filterMap Contribution.candidate? := by
  have hinput : (Path.ofText "/there/.").isStandardInput = false := by decide +kernel
  have hdir : linkedProject.isDir (Path.ofText "/there/.") = true := by decide +kernel
  obtain ⟨_, _, _, _, contributions, _, _, _, hevents, hcandidates⟩ :=
    survey_accounts_for_visited Rules.standard hinput hdir
  exact ⟨hinput, hdir, by decide +kernel, by decide +kernel, contributions, hevents, hcandidates⟩

end FileSystem

end TreePack
