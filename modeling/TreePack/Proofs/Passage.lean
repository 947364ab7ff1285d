import Mathlib.Tactic
import TreePack.Proofs.Access

/-!
# A directory that may no longer be read

Whether a directory may be read decides whether its entries can be listed, and nothing else: a path
leads through it as long as names may be looked up in it.  The resolution of paths sees of a tree
only the passages of its nodes, in which the permission to read does not occur.

Two trees that differ only in that a directory may be read in the one and perhaps not in the other
resolve every path alike.  They have the same directories, and all of them can be listed alike, apart
from this one.
-/

namespace TreePack

/-- What the resolution of paths asks of a node: of a directory, whether it lets anything pass. -/
def Node.passage : Node → Node
  | file _ _ => file ⟨0⟩ []
  | dir mode _ => dir (if mode.maySearch then .ordinaryDir else ⟨0⟩) []
  | node => node

namespace Node

theorem passage_dir_eq_iff {mode mode' : Mode} {entries entries' : List (Name × Node)} :
    (dir mode entries).passage = (dir mode' entries').passage ↔
      mode.maySearch = mode'.maySearch := by
  cases hmode : mode.maySearch <;> cases hmode' : mode'.maySearch <;>
    simp [passage, hmode, hmode', Mode.ordinaryDir]

theorem isDir_eq_of_passage_eq {node other : Node} (hpassage : node.passage = other.passage) :
    node.isDir = other.isDir := by
  cases node <;> cases other <;> simp_all [passage, isDir]

theorem passage_eq_of_outline_eq {node other : Node} (houtline : node.outline = other.outline) :
    node.passage = other.passage := by
  cases node <;> cases other <;> simp_all [outline, passage]

theorem surface_get?_setMode (mode : Mode) (node : Node) {location : Location}
    (hne : location ≠ []) :
    ((node.setMode mode).get? location).map surface = (node.get? location).map surface := by
  obtain ⟨n, rest, rfl⟩ := List.exists_cons_of_ne_nil hne
  cases node <;> rfl

end Node

namespace FileSystem

/-- The trees differ at most in the permissions of this directory, and not in whether names may be
looked up in it. -/
structure SameButReading (dir : Location) (fs other : FileSystem) : Prop where
  workingDir : other.workingDir = fs.workingDir
  passage : ∀ location,
    (other.node? location).map Node.passage = (fs.node? location).map Node.passage
  elsewhere : ∀ location, location ≠ dir →
    (other.node? location).map Node.surface = (fs.node? location).map Node.surface

variable {fs other : FileSystem} {dir : Location}

theorem SameButReading.symm (hsame : SameButReading dir fs other) : SameButReading dir other fs :=
  ⟨hsame.workingDir.symm, fun location => (hsame.passage location).symm,
    fun location hne => (hsame.elsewhere location hne).symm⟩

theorem sameButReading_setMode {mode mode' : Mode} {entries : List (Name × Node)}
    (hdir : fs.node? dir = some (.dir mode entries))
    (hsearch : mode'.maySearch = mode.maySearch) :
    SameButReading dir fs (fs.setMode dir mode') ∧
      (fs.setMode dir mode').node? dir = some (.dir mode' entries) := by
  have hself : (fs.setMode dir mode').node? dir = some (.dir mode' entries) := by
    have hupdated := Node.get?_update_self (Node.setMode mode') dir fs.root
    rw [show fs.root.get? dir = some (.dir mode entries) from hdir] at hupdated
    exact hupdated
  have helsewhere : ∀ location, location ≠ dir →
      ((fs.setMode dir mode').node? location).map Node.surface =
        (fs.node? location).map Node.surface := by
    intro location hne
    have hbelow : ∀ (node : Node) (inner : Location), inner ≠ [] →
        ((node.setMode mode').get? inner).map Node.surface = (node.get? inner).map Node.surface :=
      fun node inner hinner => Node.surface_get?_setMode mode' node hinner
    exact Node.surface_get?_update_of_surface hbelow (by simpa using hne) fs.root
  refine ⟨⟨rfl, ?_, helsewhere⟩, hself⟩
  intro location
  by_cases heq : location = dir
  · subst location
    rw [hself, hdir, Option.map_some, Option.map_some, Node.passage_dir_eq_iff.2 hsearch]
  · have hsurface := helsewhere location heq
    cases hnode : fs.node? location <;> cases hnode' : (fs.setMode dir mode').node? location <;>
      rw [hnode, hnode'] at hsurface <;> simp only [Option.map_some, Option.map_none,
        reduceCtorEq, Option.some.injEq] at hsurface ⊢
    exact Node.passage_eq_of_outline_eq (Node.outline_eq_of_surface_eq hsurface)

/-! ## Resolution -/

section Resolution

variable (hpassage : ∀ location,
  (other.node? location).map Node.passage = (fs.node? location).map Node.passage)

include hpassage

theorem searchable_of_passage {here : Location} (hdir : fs.Searchable here) :
    other.Searchable here := by
  obtain ⟨mode, entries, hnode, hsearch⟩ := hdir
  have hsame := hpassage here
  rw [hnode] at hsame
  obtain ⟨node, hother, hview⟩ := Option.map_eq_some_iff.1 hsame
  have hisDir := Node.isDir_eq_of_passage_eq hview
  cases node <;> simp only [Node.isDir, Bool.false_eq_true] at hisDir
  case dir mode' entries' =>
    exact ⟨mode', entries', hother, (Node.passage_dir_eq_iff.1 hview).trans hsearch⟩

theorem isDir_node?_of_passage (location : Location) :
    (other.node? location).map Node.isDir = (fs.node? location).map Node.isDir := by
  have hsame := hpassage location
  cases hnode : fs.node? location <;> cases hnode' : other.node? location <;>
    rw [hnode, hnode'] at hsame <;> simp only [Option.map_some, Option.map_none,
      reduceCtorEq, Option.some.injEq] at hsame ⊢
  exact Node.isDir_eq_of_passage_eq hsame

theorem advance_of_passage (purpose : Purpose) (intoDir : Bool)
    (follow : Location → Path → List Step → Except IoError Place) (here : Location)
    (steps : List Step) :
    other.advance purpose intoDir follow here steps =
      fs.advance purpose intoDir follow here steps := by
  induction steps generalizing here with
  | nil => rfl
  | cons step rest ih =>
      by_cases hdir : fs.Searchable here
      · have hdir' := searchable_of_passage hpassage hdir
        cases step with
        | stay => rw [advance_stay hdir, advance_stay hdir', ih]
        | up => rw [advance_up hdir, advance_up hdir', ih]
        | down n =>
            have hentry := hpassage (here ++ [n])
            rw [advance_down hdir, advance_down hdir']
            cases hnode : fs.node? (here ++ [n]) <;> cases hnode' : other.node? (here ++ [n]) <;>
              rw [hnode, hnode'] at hentry <;> simp only [Option.map_some, Option.map_none,
                reduceCtorEq, Option.some.injEq] at hentry
            next node node' =>
              have hisDir := Node.isDir_eq_of_passage_eq hentry
              cases node <;> cases node' <;> simp only [Node.passage, Node.link.injEq,
                reduceCtorEq] at hentry
              case link.link => rw [hentry]
              all_goals simp [Node.isDir, ih]
      · have hdir' : ¬ other.Searchable here := fun h =>
          hdir (searchable_of_passage (fun location => (hpassage location).symm) h)
        rw [advance_of_not_searchable hdir, advance_of_not_searchable hdir',
          isDir_node?_of_passage hpassage]

theorem travel_of_passage (purpose : Purpose) (links : ℕ) :
    other.travel purpose links = fs.travel purpose links := by
  induction links with
  | zero =>
      funext intoDir here steps
      exact advance_of_passage hpassage purpose intoDir _ here steps
  | succ links ih =>
      funext intoDir here steps
      simp only [travel, ih]
      exact advance_of_passage hpassage purpose intoDir _ here steps

end Resolution

/-! ## Access -/

section Same

variable (hsame : SameButReading dir fs other)

include hsame

theorem SameButReading.resolve_eq (purpose : Purpose) (p : Path) :
    other.resolve purpose p = fs.resolve purpose p := by
  unfold resolve
  rw [travel_of_passage hsame.passage purpose linkLimit, hsame.workingDir]

theorem SameButReading.locate_eq (purpose : Purpose) (p : Path) :
    other.locate purpose p = fs.locate purpose p := by
  unfold locate
  rw [hsame.resolve_eq]

theorem SameButReading.isDir_eq (p : Path) : other.isDir p = fs.isDir p := by
  have hstat := map_stat_congr (hsame.locate_eq .use p) fun location _ => hsame.passage location
  unfold isDir
  cases hother : other.stat p <;> cases hfs : fs.stat p <;>
    simp_all only [Except.map, Except.ok.injEq, reduceCtorEq]
  exact Node.isDir_eq_of_passage_eq hstat

theorem SameButReading.list_eq {p : Path} (hne : fs.locate .use p ≠ .ok dir) :
    (other.list p).map (fun _ => ()) = (fs.list p).map (fun _ => ()) := by
  apply list_congr
  apply outline_stat_of_surface
  apply map_stat_congr (hsame.locate_eq .use p)
  intro location hlocate
  apply hsame.elsewhere
  rintro rfl
  exact hne hlocate

theorem SameButReading.exists_dir {location : Location} {mode : Mode}
    {entries : List (Name × Node)} (hnode : fs.node? location = some (.dir mode entries)) :
    ∃ mode' entries', other.node? location = some (.dir mode' entries') := by
  have hisDir := isDir_node?_of_passage hsame.passage location
  rw [hnode] at hisDir
  obtain ⟨node, hother, hdir⟩ := Option.map_eq_some_iff.1 hisDir
  cases node <;> simp only [Node.isDir, Bool.false_eq_true] at hdir
  exact ⟨_, _, hother⟩

end Same

end FileSystem

end TreePack
