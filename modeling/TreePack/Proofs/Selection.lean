import Mathlib.Tactic
import TreePack.FileSystem.Edit
import TreePack.Proofs.Descent
import TreePack.Proofs.Visits

/-!
# Which files are packed

The condition `Packs` says of an entry below a directory, without mention of a walk, that it is
packed: every directory on the way to it can be listed, none of them below the root is left out by
name, the entry is a file or a link that leads to no directory, and its name is accepted.  The main
result is that the candidates of a survey are exactly these entries, each of them once.
-/

namespace TreePack

def Candidate.below (root : Path) (trail : List Name) : Candidate :=
  ⟨root.descend trail, Path.displayBelow root (root.descend trail)⟩

namespace FileSystem

def Listable (fs : FileSystem) (p : Path) : Prop :=
  ∃ entries, fs.list p = .ok entries

instance (fs : FileSystem) (p : Path) : Decidable (fs.Listable p) :=
  decidableExistsOk (fs.list p)

/-- The node at a path counts as a file: it is one, or a link that leads to no directory. -/
def FileLike (fs : FileSystem) (p : Path) (node : Node) : Prop :=
  node.isFile = true ∨ (∃ target, node = .link target) ∧ fs.isDir p = false

/-- The trail leads from the directory `top` at `root` to an entry that is packed. -/
structure Packs (fs : FileSystem) (rules : Rules) (root : Path) (top : Node)
    (trail : List Name) : Prop where
  below : trail ≠ []
  listed : ∀ before after, trail = before ++ after → after ≠ [] →
    fs.Listable (root.descend before)
  unpruned : ∀ before n after, trail = before ++ n :: after → after ≠ [] →
    rules.prunes n.display = false
  fileLike : ∃ node, top.get? trail = some node ∧ fs.FileLike (root.descend trail) node
  accepted : ∃ n, trail.getLast? = some n ∧ rules.accepts n.display = true

variable {fs : FileSystem} {rules : Rules}

theorem packs_singleton_iff (root : Path) (top : Node) (n : Name) :
    fs.Packs rules root top [n] ↔
      fs.Listable root ∧ ∃ child, top.entry? n = some child ∧
        fs.FileLike (root.join (Path.ofName n)) child ∧ rules.accepts n.display = true := by
  constructor
  · intro hpacks
    rcases hpacks.fileLike with ⟨child, hchild, hlike⟩
    rcases hpacks.accepted with ⟨m, hm, haccepts⟩
    have hmn : n = m := by simpa using hm
    subst m
    rw [Node.get?_singleton] at hchild
    exact ⟨hpacks.listed [] [n] rfl (by simp), child, hchild, hlike, haccepts⟩
  · rintro ⟨hlist, child, hchild, hlike, haccepts⟩
    refine ⟨by simp, ?_, ?_, ⟨child, ?_, hlike⟩, ⟨n, rfl, haccepts⟩⟩
    · intro before after hsplit hafter
      have hbefore : before = [] := by
        cases before with
        | nil => rfl
        | cons m before => simp_all
      subst before
      exact hlist
    · intro before m after hsplit hafter
      cases before <;> simp_all
    · rw [Node.get?_singleton]
      exact hchild

theorem packs_cons_iff (root : Path) (top : Node) (n : Name) {trail : List Name}
    (htrail : trail ≠ []) :
    fs.Packs rules root top (n :: trail) ↔
      fs.Listable root ∧ rules.prunes n.display = false ∧
        ∃ child, top.entry? n = some child ∧
          fs.Packs rules (root.join (Path.ofName n)) child trail := by
  constructor
  · intro hpacks
    rcases hpacks.fileLike with ⟨node, hnode, hlike⟩
    obtain ⟨child, hchild, hrest⟩ := Option.bind_eq_some_iff.1 hnode
    refine ⟨hpacks.listed [] (n :: trail) rfl (by simp),
      hpacks.unpruned [] n trail rfl htrail, child, hchild, htrail, ?_, ?_,
      ⟨node, hrest, hlike⟩, ?_⟩
    · intro before after hsplit hafter
      exact hpacks.listed (n :: before) after (by simp [hsplit]) hafter
    · intro before m after hsplit hafter
      exact hpacks.unpruned (n :: before) m after (by simp [hsplit]) hafter
    · rcases hpacks.accepted with ⟨m, hm, haccepts⟩
      rw [List.getLast?_cons_of_ne_nil htrail] at hm
      exact ⟨m, hm, haccepts⟩
  · rintro ⟨hlist, hprune, child, hchild, hpacks⟩
    rcases hpacks.fileLike with ⟨node, hrest, hlike⟩
    rcases hpacks.accepted with ⟨m, hm, haccepts⟩
    refine ⟨by simp, ?_, ?_, ⟨node, ?_, hlike⟩, ⟨m, ?_, haccepts⟩⟩
    · intro before after hsplit hafter
      cases before with
      | nil => exact hlist
      | cons k before =>
          simp only [List.cons_append, List.cons.injEq] at hsplit
          rcases hsplit with ⟨rfl, hsplit⟩
          exact hpacks.listed before after hsplit hafter
    · intro before k after hsplit hafter
      cases before with
      | nil =>
          simp only [List.nil_append, List.cons.injEq] at hsplit
          rcases hsplit with ⟨rfl, _⟩
          exact hprune
      | cons l before =>
          simp only [List.cons_append, List.cons.injEq] at hsplit
          exact hpacks.unpruned before k after hsplit.2 hafter
    · simp [Node.get?, hchild, hrest]
    · rw [List.getLast?_cons_of_ne_nil htrail]
      exact hm

theorem candidate_not_mem_visits_of_isDir {node : Node} (hdir : node.isDir = true) (path : Path)
    (name : Bytes) :
    ⟨[], .candidate⟩ ∉ node.visits fs rules path name := by
  cases node with
  | dir mode entries =>
      rw [Node.visits_dir]
      cases fs.list path with
      | error e => simp
      | ok listed => simp [mem_inNameOrder, Visit.under]
  | file mode data => simp [Node.isDir] at hdir
  | link target => simp [Node.isDir] at hdir
  | fifo mode => simp [Node.isDir] at hdir
  | device kind => simp [Node.isDir] at hdir

theorem candidate_mem_visitsOfEntry_iff (path : Path) (n : Name) (child : Node) :
    ⟨[], .candidate⟩ ∈ visitsOfEntry fs rules path n child ↔
      fs.FileLike (path.join (Path.ofName n)) child ∧ rules.accepts n.display = true := by
  cases child with
  | file mode data =>
      cases haccepts : rules.accepts n.display <;>
        simp_all [visitsOfEntry, Node.visits, Node.isDir, Rules.judge, FileLike, Node.isFile,
          Name.display]
  | link target =>
      cases haccepts : rules.accepts n.display <;>
        cases hdir : fs.isDir (path.join (Path.ofName n)) <;>
          simp_all [visitsOfEntry, Node.visits, Node.isDir, Rules.judge, FileLike, Node.isFile,
            Name.display]
  | dir mode entries =>
      have hbelow : ⟨[], .candidate⟩ ∉
          (Node.dir mode entries).visits fs rules (path.join (Path.ofName n)) n.bytes :=
        candidate_not_mem_visits_of_isDir rfl _ _
      simp only [visitsOfEntry, FileLike, Node.isFile]
      split
      next => simp
      next => simp [hbelow]
  | fifo mode => simp [visitsOfEntry, Node.visits, Node.isDir, FileLike, Node.isFile]
  | device kind => simp [visitsOfEntry, Node.visits, Node.isDir, FileLike, Node.isFile]

theorem mem_visitsOfEntry_iff {path : Path} {n : Name} {child : Node} (hwf : child.WellFormed)
    {trail : List Name} (htrail : trail ≠ []) (verdict : Verdict) :
    ⟨trail, verdict⟩ ∈ visitsOfEntry fs rules path n child ↔
      rules.prunes n.display = false ∧
        ⟨trail, verdict⟩ ∈ child.visits fs rules (path.join (Path.ofName n)) n.bytes := by
  obtain ⟨m, rest, rfl⟩ := List.exists_cons_of_ne_nil htrail
  unfold visitsOfEntry
  constructor
  · intro hmem
    split at hmem
    next => simp at hmem
    next hkept =>
      have hbelow := (Node.mem_visits_cons hwf _ _ m rest verdict).1 hmem
      rcases hbelow with ⟨_, grandchild, hgrandchild, _⟩
      have hdir : child.isDir = true := by
        cases child <;> simp_all [Node.entry?, Node.isDir]
      have hprune : rules.prunes n.display = false := by
        simpa [hdir] using hkept
      exact ⟨hprune, hmem⟩
  · rintro ⟨hprune, hmem⟩
    rw [if_neg (by simp [hprune])]
    exact hmem

theorem candidate_mem_visits_iff {node : Node} (hwf : node.WellFormed) (path : Path)
    (name : Bytes) {trail : List Name} (htrail : trail ≠ []) :
    ⟨trail, .candidate⟩ ∈ node.visits fs rules path name ↔ fs.Packs rules path node trail := by
  induction trail generalizing node path name with
  | nil => contradiction
  | cons n trail ih =>
      rw [Node.mem_visits_cons hwf]
      by_cases hlast : trail = []
      · subst trail
        simp only [packs_singleton_iff, candidate_mem_visitsOfEntry_iff]
        rfl
      · rw [packs_cons_iff path node n hlast]
        constructor
        · rintro ⟨hlist, child, hchild, hmem⟩
          have hchildWf : child.WellFormed := hwf.entry hchild
          rw [mem_visitsOfEntry_iff hchildWf hlast, ih hchildWf _ _ hlast] at hmem
          exact ⟨hlist, hmem.1, child, hchild, hmem.2⟩
        · rintro ⟨hlist, hprune, child, hchild, hpacks⟩
          have hchildWf : child.WellFormed := hwf.entry hchild
          have hmem := (ih hchildWf (path.join (Path.ofName n)) n.bytes hlast).2 hpacks
          exact ⟨hlist, child, hchild,
            (mem_visitsOfEntry_iff hchildWf hlast .candidate).2 ⟨hprune, hmem⟩⟩

/-! ## The survey of a directory -/

theorem survey_eq_visits {root : Path} {top : Node} (hinput : root.isStandardInput = false)
    (htop : fs.stat root = .ok top) (hdir : top.isDir = true) :
    fs.survey rules root = .ok (top.visits fs rules root (rootName root)) := by
  unfold survey
  rw [if_neg (by simp [hinput])]
  cases top with
  | dir mode entries =>
      rcases linkStat_of_stat htop with hentry | ⟨target, hlink⟩
      · rw [hentry]
      · rw [hlink, htop]
  | file mode data => simp [Node.isDir] at hdir
  | link target => simp [Node.isDir] at hdir
  | fifo mode => simp [Node.isDir] at hdir
  | device kind => simp [Node.isDir] at hdir

def packedTrails (visits : List Visit) : List (List Name) :=
  (visits.filter fun visit => visit.verdict = .candidate).map Visit.trail

theorem mem_packedTrails (visits : List Visit) (trail : List Name) :
    trail ∈ packedTrails visits ↔ ⟨trail, .candidate⟩ ∈ visits := by
  unfold packedTrails
  simp only [List.mem_map, List.mem_filter, decide_eq_true_eq]
  constructor
  · intro h
    rcases h with ⟨visit, ⟨hvisit, hverdict⟩, htrail⟩
    cases visit
    simp_all
  · intro hmem
    exact ⟨_, ⟨hmem, rfl⟩, rfl⟩

theorem filterMap_candidate? (root : Path) (visits : List Visit) :
    visits.filterMap (Visit.candidate? root) =
      (packedTrails visits).map (Candidate.below root) := by
  induction visits with
  | nil => rfl
  | cons visit visits ih =>
      rcases visit with ⟨trail, verdict⟩
      rw [List.filterMap_cons, ih]
      cases verdict <;> simp [packedTrails, Visit.candidate?, Candidate.below]

theorem candidates_eq_map {root : Path} {top : Node} (hinput : root.isStandardInput = false)
    (htop : fs.stat root = .ok top) (hdir : top.isDir = true) :
    fs.candidates rules root =
      (packedTrails (top.visits fs rules root (rootName root))).map (Candidate.below root) := by
  unfold candidates
  rw [survey_eq_visits hinput htop hdir]
  exact filterMap_candidate? root _

theorem candidates_setData {root : Path} {top : Node} (hinput : root.isStandardInput = false)
    (htop : fs.stat root = .ok top) (hdir : top.isDir = true)
    (location : Location) (data : Bytes) :
    (fs.setData location data).candidates rules root = fs.candidates rules root := by
  obtain ⟨here, hlocate, hnode⟩ := (stat_eq_ok_iff fs root top).1 htop
  have hfiles := Node.rewritesFiles_setData data
  have hfound : ∃ rest, (fs.setData location data).node? here =
      some (top.update (Node.setData data) rest) :=
    Node.exists_get?_update hfiles hnode
  rcases hfound with ⟨rest, hrest⟩
  have hnewTop : (fs.setData location data).stat root =
      .ok (top.update (Node.setData data) rest) := by
    rw [stat_eq_ok_iff]
    exact ⟨here, (locate_setData fs location data .use root).trans hlocate, hrest⟩
  have hnewDir : (top.update (Node.setData data) rest).isDir = true := by
    rw [Node.isDir_update hfiles]
    exact hdir
  rw [candidates_eq_map hinput hnewTop hnewDir, candidates_eq_map hinput htop hdir,
    Node.visits_update hfiles,
    Node.visits_congr (isDir_setData fs location data)
      (fun p => list_congr (outline_stat_setData fs location data p)) (fs.wellFormed.get hnode)]

/-- The candidates below a directory are the entries that `Packs` describes, each of them once, with
the path that its names lead to from the root.  A directory on the way is listed for what it is in
the tree, and no contents of a file, whatever its name, change the choice. -/
theorem candidates_eq_packed {root : Path} (hinput : root.isStandardInput = false)
    (hdir : fs.isDir root = true) :
    ∃ top, fs.stat root = .ok top ∧
      (∃ trails : List (List Name),
        trails.Nodup ∧ (∀ trail, trail ∈ trails ↔ fs.Packs rules root top trail) ∧
          fs.candidates rules root = trails.map (Candidate.below root)) ∧
      ((fs.candidates rules root).map Candidate.path).Nodup ∧
      (∀ trail mode entries listed, top.get? trail = some (.dir mode entries) →
        fs.list (root.descend trail) = .ok listed → listed = entries) ∧
      ∀ location data,
        (fs.setData location data).candidates rules root = fs.candidates rules root := by
  obtain ⟨mode, entries, htop⟩ := (isDir_eq_true_iff fs root).1 hdir
  obtain ⟨here, hlocate, hnode⟩ := (stat_eq_ok_iff fs root _).1 htop
  have hwf : (Node.dir mode entries).WellFormed := fs.wellFormed.get hnode
  have hroot : root.bytes ≠ [] := by
    rw [locate_eq_ok_iff, resolve_eq_ok_iff] at hlocate
    exact hlocate.1.notEmpty
  let visits := (Node.dir mode entries).visits fs rules root (rootName root)
  have hcandidates : fs.candidates rules root =
      (packedTrails visits).map (Candidate.below root) :=
    candidates_eq_map hinput htop rfl
  have hnodup : (packedTrails visits).Nodup := by
    have hsorted : (visits.map Visit.trail).Pairwise TrailBefore :=
      Node.visits_pairwise hwf root (rootName root)
    have hsome : (packedTrails visits).Pairwise TrailBefore :=
      hsorted.sublist (List.filter_sublist.map Visit.trail)
    apply hsome.imp
    intro trail other hbefore heq
    exact trailBefore_irrefl trail (heq ▸ hbefore)
  refine ⟨.dir mode entries, htop, ⟨packedTrails visits, hnodup, ?_, hcandidates⟩, ?_, ?_, ?_⟩
  · intro trail
    rw [mem_packedTrails]
    by_cases htrail : trail = []
    · subst trail
      constructor
      · intro hmem
        exact absurd hmem (candidate_not_mem_visits_of_isDir rfl root (rootName root))
      · intro hpacks
        exact absurd rfl hpacks.below
    · exact candidate_mem_visits_iff hwf root (rootName root) htrail
  · rw [hcandidates, List.map_map]
    exact hnodup.map (Path.descend_injective hroot)
  · intro trail mode' entries' listed hentries hlisted
    exact list_descend hlocate hnode hentries hlisted
  · intro location data
    exact candidates_setData hinput htop rfl location data

/-- A project with a pruned and an unlistable directory, a hidden one, a named pipe, a link to its
own parent and a link that leads nowhere, reached through another link. -/
def linkedProject : FileSystem :=
  built
    [(·.putFile (Path.ofText "/proj/a.c") (Bytes.ofText "int a;")),
      (·.putFile (Path.ofText "/proj/build/gen.c") []),
      (·.putFile (Path.ofText "/proj/locked/in.c") []),
      (·.putFile (Path.ofText "/proj/.hidden/.gitignore") (Bytes.ofText "*")),
      (·.putFile (Path.ofText "/proj/.hidden/x.md") []),
      (·.putFifo (Path.ofText "/proj/pipe.c")),
      (·.putLink (Path.ofText "/proj/up.c") (Path.ofText "..")),
      (·.putLink (Path.ofText "/proj/gone.h") (Path.ofText "missing")),
      (·.putLink (Path.ofText "/there") (Path.ofText "proj")),
      (·.changeMode (Path.ofText "/proj/locked") ⟨0⟩)]

theorem candidates_of_linkedProject :
    (Path.ofText "/there/.").isStandardInput = false ∧
      linkedProject.isDir (Path.ofText "/there/.") = true ∧
      (linkedProject.candidates Rules.standard (Path.ofText "/there/.")).map Candidate.display =
        ["./.hidden/x.md", "./a.c", "./gone.h"] ∧
      ∃ top, linkedProject.stat (Path.ofText "/there/.") = .ok top ∧
        ∃ trails : List (List Name), trails.Nodup ∧
          (∀ trail, trail ∈ trails ↔
            linkedProject.Packs Rules.standard (Path.ofText "/there/.") top trail) ∧
          linkedProject.candidates Rules.standard (Path.ofText "/there/.") =
            trails.map (Candidate.below (Path.ofText "/there/.")) := by
  have hinput : (Path.ofText "/there/.").isStandardInput = false := by decide +kernel
  have hdir : linkedProject.isDir (Path.ofText "/there/.") = true := by decide +kernel
  have hchosen := @candidates_eq_packed linkedProject Rules.standard _ hinput hdir
  rcases hchosen with ⟨top, htop, hpacked, _⟩
  exact ⟨hinput, hdir, by decide +kernel, top, htop, hpacked⟩

end FileSystem

end TreePack
