import Mathlib.Tactic
import TreePack.FileSystem.Edit
import TreePack.Proofs.Covering
import TreePack.Proofs.Meeting
import TreePack.Proofs.TrailDisplay
import TreePack.Proofs.TrailOrder

/-!
# Surveying a subdirectory

A directory below the root can be surveyed by itself.  What is said of an entry depends on the entry
and on nothing above it, as long as the directories on the way are entered.  So the survey of the
subdirectory visits what the survey of the root visits within it, with the same verdicts and in the
same order; only the trails are shorter.

The candidates have the same paths, since joining a path with names one by one does not care where
the root was said to end.  They are shown with fewer names.
-/

namespace TreePack

/-- A visit within the directory to which the trail leads, seen from where this trail begins. -/
def Visit.behind (trail : List Name) (visit : Visit) : Visit :=
  { visit with trail := trail ++ visit.trail }

theorem Path.descend_append (root : Path) (trail more : List Name) :
    root.descend (trail ++ more) = (root.descend trail).descend more := by
  simp [descend, List.foldl_append]

theorem InOrder.map_behind {visits : List Visit} (horder : InOrder visits) (trail : List Name) :
    InOrder (visits.map (Visit.behind trail)) := by
  unfold InOrder
  rw [List.pairwise_map]
  apply horder.imp
  intro visit later hbefore
  exact hbefore.append_left trail

namespace FileSystem

variable {fs : FileSystem} {rules : Rules} {root : Path} {top base : Node} {below : List Name}

theorem meets_of_listable {node : Node} (hnode : top.get? below = some node)
    (hlisted : ∀ before after, below = before ++ after → after ≠ [] →
      fs.Listable (root.descend before))
    (hkept : ∀ n ∈ below, rules.prunes n.display = false) :
    fs.Meets rules root top below node := by
  induction below using List.reverseRecOn generalizing node with
  | nil =>
      cases hnode
      exact .start
  | append_singleton trail n ih =>
      rw [Node.get?_append] at hnode
      obtain ⟨parent, hparent, hchild⟩ := Option.bind_eq_some_iff.1 hnode
      rw [Node.get?_singleton] at hchild
      obtain ⟨mode, entries, rfl, hlookup⟩ := Node.exists_eq_dir_of_entry hchild
      have henters : rules.Enters trail := by
        intro m hm
        exact hkept m (List.mem_append_left _ (List.mem_of_getLast? hm))
      have hmeets := ih hparent
        (fun before after hsplit _ => hlisted before (after ++ [n]) (by simp [hsplit]) (by simp))
        (fun m hm => hkept m (List.mem_append_left _ hm))
      exact hmeets.entry henters (hlisted trail [n] rfl (by simp)) hlookup

theorem stat_descend {mode : Mode} {entries : List (Name × Node)}
    (htop : fs.stat root = .ok top) (hbase : top.get? below = some (.dir mode entries))
    (hlist : fs.Listable (root.descend below)) :
    fs.stat (root.descend below) = .ok (.dir mode entries) := by
  obtain ⟨here, hlocate, hnode⟩ := (stat_eq_ok_iff fs root top).1 htop
  obtain ⟨listed, hlisted⟩ := hlist
  obtain ⟨_, hstat, _⟩ := (list_eq_ok_iff fs _ listed).1 hlisted
  obtain ⟨location, hlocateBelow, _⟩ := (stat_eq_ok_iff fs _ _).1 hstat
  have hwhere := locate_descend hlocate hnode hbase (by simp) hlocateBelow
  rw [stat_eq_ok_iff]
  exact ⟨location, hlocateBelow, by rw [hwhere, node?_append, hnode]; exact hbase⟩

/-- What is visited from a directory that is met and entered is what its own survey visits. -/
theorem mem_visits_append_iff {mode : Mode} {entries : List (Name × Node)}
    (hwf : top.WellFormed) (hmeets : fs.Meets rules root top below (.dir mode entries))
    (henters : rules.Enters below) (hlist : fs.Listable (root.descend below))
    (hbelow : below ≠ []) (name baseName : Bytes) (more : List Name) (verdict : Verdict) :
    ⟨below ++ more, verdict⟩ ∈ top.visits fs rules root name ↔
      ⟨more, verdict⟩ ∈
        (Node.dir mode entries).visits fs rules (root.descend below) baseName := by
  cases more with
  | nil =>
      obtain ⟨init, last, rfl⟩ := (List.eq_nil_or_concat below).resolve_left hbelow
      rw [List.concat_eq_append] at *
      obtain ⟨listed, hlisted⟩ := hlist
      have hkept : rules.prunes last.display = false := (rules.enters_concat init last).1 henters
      have hverdict : (Node.dir mode entries).verdict fs rules
          (root.descend (init ++ [last])) last = .entered := by
        simp [Node.verdict, hkept, hlisted]
      rw [List.append_nil, mem_visits_concat_iff hwf, Node.nil_mem_visits_dir_iff, hlisted]
      constructor
      · rintro ⟨node, hnode, rfl⟩
        rw [hnode.unique hmeets, hverdict]
      · rintro rfl
        exact ⟨_, hmeets, hverdict.symm⟩
  | cons n rest =>
      rw [mem_visits_iff_of_meets hwf name hmeets henters,
        Node.mem_visits_cons (hmeets.wellFormed hwf)]
      rfl

theorem filter_isWithin_visits {mode : Mode} {entries : List (Name × Node)}
    (hwf : top.WellFormed) (hmeets : fs.Meets rules root top below (.dir mode entries))
    (henters : rules.Enters below) (hlist : fs.Listable (root.descend below))
    (hbelow : below ≠ []) (name baseName : Bytes) :
    (top.visits fs rules root name).filter (·.isWithin below) =
      ((Node.dir mode entries).visits fs rules (root.descend below) baseName).map
        (Visit.behind below) := by
  have hmem := mem_visits_append_iff hwf hmeets henters hlist hbelow name baseName
  apply InOrder.eq_of_mem_iff
  · exact (Node.inOrder_visits hwf root name).filter _
  · exact (Node.inOrder_visits (hmeets.wellFormed hwf) _ baseName).map_behind _
  rintro ⟨trail, verdict⟩
  rw [List.mem_filter, Visit.isWithin_iff, List.mem_map]
  constructor
  · rintro ⟨hvisit, more, rfl⟩
    exact ⟨⟨more, verdict⟩, (hmem more verdict).1 hvisit, rfl⟩
  · rintro ⟨⟨more, verdict'⟩, hvisit, heq⟩
    simp only [Visit.behind, Visit.mk.injEq] at heq
    obtain ⟨rfl, rfl⟩ := heq
    exact ⟨(hmem more verdict').2 hvisit, List.prefix_append _ _⟩

theorem packedTrails_behind (visits : List Visit) :
    packedTrails (visits.map (Visit.behind below)) = (packedTrails visits).map (below ++ ·) := by
  unfold packedTrails
  rw [List.filter_map, List.map_map, List.map_map]
  rfl

/-- Surveyed by itself, a directory below the root has the candidates that the survey of the root
has beneath it, in the same order and with the same paths.  What is shown of each begins one
directory, or more, further down. -/
theorem candidates_of_subdirectory (hinput : root.isStandardInput = false)
    (htop : fs.stat root = .ok top) (hbelow : below ≠ []) {mode : Mode}
    {entries : List (Name × Node)} (hbase : top.get? below = some (.dir mode entries))
    (hlisted : ∀ before, before <+: below → fs.Listable (root.descend before))
    (hkept : ∀ n ∈ below, rules.prunes n.display = false) :
    List.Forall₂
      (fun whole part => part.path = whole.path ∧ ∃ rest,
        whole.display = "./" ++ String.intercalate "/" (below.map Name.display) ++ "/" ++ rest ∧
          part.display = "./" ++ rest)
      ((fs.candidates rules root).filter fun c => (root.descend below).covers c.path)
      (fs.candidates rules (root.descend below)) := by
  obtain ⟨here, hlocate, hnode⟩ := (stat_eq_ok_iff fs root top).1 htop
  have hroot : root.bytes ≠ [] := (usable_of_locate hlocate).notEmpty
  have hwf : top.WellFormed := fs.wellFormed.get hnode
  have hdir : top.isDir = true := by
    obtain ⟨_, _, rfl⟩ := Node.exists_eq_dir_of_get? hbelow hbase
    rfl
  have henters : rules.Enters below := fun n hn => hkept n (List.mem_of_getLast? hn)
  have hlist : fs.Listable (root.descend below) := hlisted below List.prefix_rfl
  have hmeets : fs.Meets rules root top below (.dir mode entries) := by
    apply meets_of_listable hbase _ hkept
    intro before after hsplit _
    exact hlisted before ⟨after, hsplit.symm⟩
  have hstat := stat_descend htop hbase hlist
  obtain ⟨_, hlocateBelow, _⟩ := (stat_eq_ok_iff fs _ _).1 hstat
  have hsub : (root.descend below).bytes ≠ [] := (usable_of_locate hlocateBelow).notEmpty
  have hvisits := filter_isWithin_visits hwf hmeets henters hlist hbelow (rootName root)
    (rootName (root.descend below))
  have hwhole : (fs.candidates rules root).filter (fun c => (root.descend below).covers c.path) =
      ((packedTrails ((Node.dir mode entries).visits fs rules (root.descend below)
        (rootName (root.descend below)))).map (below ++ ·)).map (Candidate.below root) := by
    unfold candidates
    rw [survey_eq_visits hinput htop hdir]
    refine (filter_covers_candidates hroot below id _).trans ?_
    simp only [id_eq]
    rw [hvisits, filterMap_candidate?, packedTrails_behind]
  rw [hwhole, candidates_eq_map (Path.isStandardInput_descend hroot hbelow) hstat rfl, List.map_map,
    List.forall₂_map_left_iff, List.forall₂_map_right_iff, List.forall₂_same]
  intro trail htrail
  have hne : trail ≠ [] := by
    rintro rfl
    exact candidate_not_mem_visits_of_isDir rfl _ _ ((mem_packedTrails _ []).1 htrail)
  refine ⟨(root.descend_append below trail).symm, String.intercalate "/" (trail.map Name.display),
    ?_, Path.displayBelow_eq_names hsub hne⟩
  have hshown := Path.displayBelow_eq_names hroot (List.append_ne_nil_of_right_ne_nil below hne)
  rw [List.map_append, String.intercalate_append_of_ne_nil (by simpa using hbelow)
    (by simpa using hne)] at hshown
  simpa [Candidate.below, String.append_assoc] using hshown

def libName : Name := ⟨Bytes.ofText "lib", by decide +kernel⟩

/-- A name that is not well-formed UTF-8. -/
def brokenName : Name := ⟨[0xFF, 0x76], by decide +kernel⟩

/-- A project with a directory two levels down whose name cannot be read as text, and in it a pruned
directory, a link out of it and a link to a directory above it. -/
def nestedProject : FileSystem :=
  built
    [(·.putFile (Path.ofText "/proj/a.c") (Bytes.ofText "int a;")),
      (·.putFile ⟨Bytes.ofText "/proj/lib/" ++ brokenName.bytes ++ Bytes.ofText "/z.h"⟩ []),
      (·.putFile ⟨Bytes.ofText "/proj/lib/" ++ brokenName.bytes ++ Bytes.ofText "/in/b.md"⟩ []),
      (·.putFile ⟨Bytes.ofText "/proj/lib/" ++ brokenName.bytes ++ Bytes.ofText "/build/g.c"⟩ []),
      (·.putLink ⟨Bytes.ofText "/proj/lib/" ++ brokenName.bytes ++ Bytes.ofText "/l.c"⟩
        (Path.ofText "../../a.c")),
      (·.putLink ⟨Bytes.ofText "/proj/lib/" ++ brokenName.bytes ++ Bytes.ofText "/up.c"⟩
        (Path.ofText "..")),
      (·.putFile (Path.ofText "/proj/lib/y.txt") []),
      (·.putFile (Path.ofText "/proj/notes.bin") []),
      (·.putFile (Path.ofText "/proj/z.sql") [])]

def nestedTrail : List Name := [libName, brokenName]

theorem locate_nestedProject :
    nestedProject.locate .use (Path.ofText "proj/") = .ok [projName] := by
  decide +kernel

theorem exists_dir_nestedProject :
    ∃ top mode entries, nestedProject.node? [projName] = some top ∧
      top.get? nestedTrail = some (.dir mode entries) ∧ mode.maySearch = true := by
  have hsearch : nestedProject.Searchable ([projName] ++ nestedTrail) := by decide +kernel
  obtain ⟨mode, entries, hnode, hmay⟩ := hsearch
  rw [node?_append] at hnode
  obtain ⟨top, htop, hdir⟩ := Option.bind_eq_some_iff.1 hnode
  exact ⟨top, mode, entries, htop, hdir, hmay⟩

theorem listable_nestedProject {before : List Name} (hbefore : before <+: nestedTrail) :
    nestedProject.Listable ((Path.ofText "proj/").descend before) := by
  have hall : ∀ before ∈ nestedTrail.inits,
      nestedProject.Listable ((Path.ofText "proj/").descend before) := by
    decide +kernel
  exact hall before ((List.mem_inits _ _).2 hbefore)

theorem candidates_of_subdirectory_of_nestedProject :
    let root := Path.ofText "proj/"
    root.isStandardInput = false ∧
      (∃ top mode entries, nestedProject.stat root = .ok top ∧
        top.get? nestedTrail = some (.dir mode entries)) ∧
      (∀ before, before <+: nestedTrail → nestedProject.Listable (root.descend before)) ∧
      (∀ n ∈ nestedTrail, Rules.standard.prunes n.display = false) ∧
      (nestedProject.candidates Rules.standard root).map Candidate.display =
        ["./a.c", "./lib/y.txt", "./lib/\uFFFDv/in/b.md", "./lib/\uFFFDv/l.c",
          "./lib/\uFFFDv/z.h", "./z.sql"] ∧
      (nestedProject.candidates Rules.standard (root.descend nestedTrail)).map Candidate.display =
        ["./in/b.md", "./l.c", "./z.h"] ∧
      (nestedProject.candidates Rules.standard (root.descend nestedTrail)).map Candidate.path =
        ((nestedProject.candidates Rules.standard root).filter
          fun c => (root.descend nestedTrail).covers c.path).map Candidate.path := by
  intro root
  have hinput : root.isStandardInput = false := by decide +kernel
  obtain ⟨top, mode, entries, htop, hbase, -⟩ := exists_dir_nestedProject
  have hstat : nestedProject.stat root = .ok top :=
    (stat_eq_ok_iff _ _ _).2 ⟨[projName], locate_nestedProject, htop⟩
  have hkept : ∀ n ∈ nestedTrail, Rules.standard.prunes n.display = false := by decide +kernel
  have hpart := candidates_of_subdirectory hinput hstat (by simp [nestedTrail]) hbase
    (fun _ => listable_nestedProject) hkept
  refine ⟨hinput, ⟨top, mode, entries, hstat, hbase⟩, fun _ => listable_nestedProject, hkept,
    by decide +kernel, by decide +kernel, ?_⟩
  rw [← List.forall₂_eq_eq_eq, List.forall₂_map_left_iff, List.forall₂_map_right_iff]
  exact hpart.flip.imp fun _ _ hsame => hsame.1

end FileSystem

end TreePack
