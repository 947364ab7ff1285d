import Mathlib.Tactic
import TreePack.FileSystem.Edit
import TreePack.Proofs.Unaffected

/-!
# The order of the candidates

The candidates below a directory come in the order of their trails, which compares name by name and
every name by its bytes.  This is not the order of the paths that are shown: all that is in a
directory `a` comes before a file `a-b` next to it.

The order in which entries were made leaves no trace.  Two trees that hold the same entries have the
same candidates, and jobs have the same runs on them.
-/

namespace TreePack

namespace FileSystem

/-- Both trees have the same entries in every directory, of the same kinds and with the same
permissions, contents and targets.  They may have been made in any order. -/
structure SameEntries (fs other : FileSystem) : Prop where
  workingDir : other.workingDir = fs.workingDir
  surface : ∀ location,
    (other.node? location).map Node.surface = (fs.node? location).map Node.surface

theorem sameEntries_iff (fs other : FileSystem) :
    fs.SameEntries other ↔ AlikeOutside ∅ fs other := by
  constructor
  · intro hsame
    exact ⟨hsame.workingDir, fun location _ => hsame.surface location, by simp⟩
  · intro halike
    exact ⟨halike.workingDir, fun location => halike.surface location (outside_empty location)⟩

theorem sameEntries_of_perm {fs other : FileSystem} {mode : Mode}
    {entries entries' : List (Name × Node)} (hdir : other.workingDir = fs.workingDir)
    (hroot : fs.root = .dir mode entries) (hroot' : other.root = .dir mode entries')
    (hperm : entries'.Perm entries) :
    fs.SameEntries other := by
  have hwf := hroot ▸ fs.wellFormed
  have hwf' := hroot' ▸ other.wellFormed
  refine ⟨hdir, ?_⟩
  intro location
  unfold node?
  rw [hroot, hroot']
  cases location with
  | nil => rfl
  | cons n rest =>
      cases hwf with
      | dir _ _ hnames _ =>
          cases hwf' with
          | dir _ _ hnames' _ =>
              have hlookup : entries'.lookup n = entries.lookup n := by
                ext child
                rw [← Node.mem_entries_iff_lookup hnames', ← Node.mem_entries_iff_lookup hnames,
                  hperm.mem_iff]
              simp only [Node.get?, Node.entry?, hlookup]

variable {fs other : FileSystem} {rules : Rules} {root : Path}

theorem candidates_pairwise (hdir : fs.isDir root = true) :
    ∃ trails : List (List Name), trails.Pairwise TrailBefore ∧
      fs.candidates rules root = trails.map (Candidate.below root) := by
  cases hinput : root.isStandardInput with
  | true => exact ⟨[], .nil, by simp [candidates, survey, hinput]⟩
  | false =>
      obtain ⟨mode, entries, htop⟩ := (isDir_eq_true_iff fs root).1 hdir
      obtain ⟨here, _, hnode⟩ := (stat_eq_ok_iff fs root _).1 htop
      have hsorted : (((Node.dir mode entries).visits fs rules root (rootName root)).map
          Visit.trail).Pairwise TrailBefore :=
        Node.visits_pairwise (fs.wellFormed.get hnode) root (rootName root)
      exact ⟨_, hsorted.sublist (List.filter_sublist.map Visit.trail),
        candidates_eq_map hinput htop rfl⟩

theorem SameEntries.survey_eq (hsame : fs.SameEntries other) (hdir : fs.isDir root = true) :
    other.survey rules root = fs.survey rules root := by
  have halike := (sameEntries_iff fs other).1 hsame
  obtain ⟨mode, entries, htop⟩ := (isDir_eq_true_iff fs root).1 hdir
  obtain ⟨here, hlocate, hnode⟩ := (stat_eq_ok_iff fs root _).1 htop
  exact halike.survey_eq hlocate (fs.staysOutside_empty root) hnode (by simp)
    (fun trail _ _ => halike.isDir_eq (fs.staysOutside_empty (root.descend trail))) rfl

/-- The candidates below a directory come in strictly increasing order of their trails.  Trees with
the same entries have the same candidates, and any job on this directory has the same run on
them. -/
theorem candidates_in_order (rules : Rules) (hdir : fs.isDir root = true) :
    (∃ trails : List (List Name), trails.Pairwise TrailBefore ∧
        fs.candidates rules root = trails.map (Candidate.below root)) ∧
      ∀ other, fs.SameEntries other →
        other.candidates rules root = fs.candidates rules root ∧
          ∀ outputName, Job.RunsAlike ⟨root, outputName, rules⟩ ∅ fs other := by
  refine ⟨candidates_pairwise hdir, ?_⟩
  intro other hsame
  refine ⟨candidates_of_survey_eq (hsame.survey_eq hdir), ?_⟩
  intro outputName
  have halike := (sameEntries_iff fs other).1 hsame
  apply halike.runsAlike (fs.staysOutside_empty _)
  · intro made made' artifact hcreate _ hmadeAlike _
    have hmadeDir := ((madeAt_of_create hcreate).isDir_eq root).trans hdir
    exact ((sameEntries_iff made made').2 hmadeAlike).survey_eq hmadeDir
  · intro made _ _ _ c _
    exact made.staysOutside_empty c.path

def dirName : Name := ⟨Bytes.ofText "a", by decide +kernel⟩

def withFile (fs : FileSystem) (dir : Location) (n : Name) : FileSystem :=
  fs.insert dir n (.file .ordinaryFile n.bytes) (.file _ _)

def withDir (fs : FileSystem) (dir : Location) (n : Name) : FileSystem :=
  fs.insert dir n (.dir .ordinaryDir []) (.of_empty_dir _)

/-- A directory `a` with a file in it is made before two files with names that begin like its
own. -/
def dirFirst : FileSystem :=
  (((bare.withDir [] dirName).withFile [dirName] ⟨Bytes.ofText "x.c", by decide +kernel⟩).withFile
    [] ⟨Bytes.ofText "a-b.c", by decide +kernel⟩).withFile
    [] ⟨Bytes.ofText "a.c", by decide +kernel⟩

/-- The same entries, made in another order. -/
def dirLast : FileSystem :=
  (((bare.withFile [] ⟨Bytes.ofText "a.c", by decide +kernel⟩).withFile
    [] ⟨Bytes.ofText "a-b.c", by decide +kernel⟩).withDir [] dirName).withFile
    [dirName] ⟨Bytes.ofText "x.c", by decide +kernel⟩

theorem sameEntries_dirFirst_dirLast : dirFirst.SameEntries dirLast := by
  have hroot : ∃ mode entries, dirFirst.root = .dir mode entries ∧
      dirLast.root = .dir mode entries.reverse :=
    ⟨_, _, rfl, rfl⟩
  obtain ⟨mode, entries, hfirst, hlast⟩ := hroot
  exact sameEntries_of_perm rfl hfirst hlast entries.reverse_perm

theorem candidates_in_order_of_dirFirst :
    let root := Path.ofText "/"
    dirFirst.isDir root = true ∧
      (dirFirst.candidates Rules.standard root).map Candidate.display =
        ["./a/x.c", "./a-b.c", "./a.c"] ∧
      ("./a-b.c" : String) < "./a/x.c" ∧
      dirFirst.SameEntries dirLast ∧
      dirLast.candidates Rules.standard root = dirFirst.candidates Rules.standard root ∧
      (Job.standard root).RunsAlike ∅ dirFirst dirLast ∧
      ((Job.standard root).run dirFirst).output =
        "Packed: ./a/x.c\nPacked: ./a-b.c\nPacked: ./a.c\n" := by
  intro root
  have hdir : dirFirst.isDir root = true := by decide +kernel
  have hdisplays : (dirFirst.candidates Rules.standard root).map Candidate.display =
      ["./a/x.c", "./a-b.c", "./a.c"] := by
    decide +kernel
  have houtput : ((Job.standard root).run dirFirst).output =
      "Packed: ./a/x.c\nPacked: ./a-b.c\nPacked: ./a.c\n" := by
    decide +kernel
  have hsame := sameEntries_dirFirst_dirLast
  have horder := (candidates_in_order Rules.standard hdir).2 dirLast hsame
  exact ⟨hdir, hdisplays, by decide, hsame, horder.1, horder.2 artifactName, houtput⟩

end FileSystem

end TreePack
