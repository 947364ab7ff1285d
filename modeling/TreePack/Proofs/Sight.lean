import Mathlib.Tactic
import TreePack.Proofs.Access
import TreePack.Proofs.Correspondence
import TreePack.Proofs.Lockstep

/-!
# What a survey sees

A survey asks for the names in a directory, for the kinds of nodes, for where paths lead and for the
permissions of directories.  All this is in the outlines of the nodes, so two trees in which every
location shows the same outline have the same survey: the contents of a file and its permissions
play no part in what is packed.
-/

namespace TreePack

/-- Well-formed nodes that show the same outlines at every place within. -/
structure Node.SeenAlike (node other : Node) : Prop where
  wellFormed : node.WellFormed
  otherWellFormed : other.WellFormed
  outline : ∀ location, (other.get? location).map outline = (node.get? location).map outline

theorem Node.SeenAlike.outline_eq {node other : Node} (hseen : node.SeenAlike other) :
    other.outline = node.outline := by
  have htop := hseen.outline []
  simpa [get?] using htop

namespace FileSystem

variable {fs other : FileSystem} (hsight : other.sight = fs.sight)
  (hdir : other.workingDir = fs.workingDir)

include hsight in
theorem seenAlike_of_sight {location : Location} {node node' : Node}
    (hnode : fs.node? location = some node) (hnode' : other.node? location = some node') :
    node.SeenAlike node' := by
  refine ⟨fs.wellFormed.get hnode, other.wellFormed.get hnode', ?_⟩
  intro rest
  have hsame := congrFun hsight (location ++ rest)
  unfold sight at hsame
  rw [node?_append, node?_append, hnode, hnode'] at hsame
  exact hsame

include hsight hdir

/-- A path leads to nodes that are seen alike, or cannot be looked up for the same reason. -/
theorem lookUp_agree (purpose : Purpose) (p : Path) :
    Agree Node.SeenAlike ((fs.lookUp purpose p).map Prod.snd)
      ((other.lookUp purpose p).map Prod.snd) := by
  unfold lookUp
  rw [locate_congr hsight hdir purpose p]
  cases fs.locate purpose p with
  | error e => exact .error e
  | ok location =>
      have hsame := congrFun hsight location
      unfold sight at hsame
      cases hnode : fs.node? location <;> cases hnode' : other.node? location <;>
        rw [hnode, hnode'] at hsame
      case none.none =>
        simp only [hnode, hnode']
        exact .error .notFound
      case none.some => contradiction
      case some.none => contradiction
      case some.some node node' =>
        simp only [hnode, hnode']
        exact .ok (seenAlike_of_sight hsight hnode hnode')

theorem outline_stat_of_sight (p : Path) :
    (other.stat p).map Node.outline = (fs.stat p).map Node.outline := by
  apply map_stat_congr (locate_congr hsight hdir .use p)
  intro location _
  exact congrFun hsight location

/-- Nodes that are seen alike correspond, under one path. -/
theorem correspondence_of_sight (rules : Rules) :
    Correspondence fs other rules fun p node q node' => q = p ∧ node.SeenAlike node' := by
  rintro p node q node' ⟨rfl, hseen⟩
  have hstat := outline_stat_of_sight hsight hdir q
  have houtline := hseen.outline_eq
  cases node <;> cases node' <;> simp only [Node.outline, reduceCtorEq] at houtline
  case file.file => exact .file
  case link.link => exact .link (isDir_congr hstat)
  case fifo.fifo => exact .fifo
  case device.device => exact .device
  case dir.dir mode entries mode' entries' =>
    apply Node.Matches.dir (list_congr hstat)
    intro _ _ n
    have hentry : ∀ rest, (((entries'.lookup n).bind fun child => child.get? rest).map
        Node.outline) = (((entries.lookup n).bind fun child => child.get? rest).map
        Node.outline) := fun rest => hseen.outline (n :: rest)
    cases hchild : entries.lookup n <;> cases hchild' : entries'.lookup n
    case none.none => exact .none
    case none.some =>
      have htop := hentry []
      simp [hchild, hchild', Node.get?] at htop
    case some.none =>
      have htop := hentry []
      simp [hchild, hchild', Node.get?] at htop
    case some.some child child' =>
      have hbelow : child.SeenAlike child' := by
        refine ⟨hseen.wellFormed.entry hchild, hseen.otherWellFormed.entry hchild', ?_⟩
        intro rest
        have hrest := hentry rest
        simpa [hchild, hchild'] using hrest
      have hisDir := Node.isDir_eq_of_outline_eq hbelow.outline_eq.symm
      exact .some (.inr ⟨hisDir, rfl, hbelow⟩)

theorem visits_of_seenAlike {node node' : Node} (hseen : node.SeenAlike node') (rules : Rules)
    (path : Path) (name : Bytes) :
    node'.visits other rules path name = node.visits fs rules path name :=
  (correspondence_of_sight hsight hdir rules).visits_eq hseen.wellFormed hseen.otherWellFormed
    ⟨rfl, hseen⟩ name

/-- A survey depends on nothing but what is seen of the tree. -/
theorem survey_of_sight (rules : Rules) (root : Path) :
    other.survey rules root = fs.survey rules root := by
  have hvisits : ∀ {node node' : Node}, node.SeenAlike node' →
      node'.visits other rules root (rootName root) = node.visits fs rules root (rootName root) :=
    fun hseen => visits_of_seenAlike hsight hdir hseen rules root (rootName root)
  unfold survey linkStat stat
  cases root.isStandardInput with
  | true => rfl
  | false =>
      simp only [Bool.false_eq_true, if_false]
      obtain ⟨e, hx, hy⟩ | ⟨node, node', hx, hy, hseen⟩ := lookUp_agree hsight hdir .entry root
      · rw [hx, hy]
      · rw [hx, hy]
        have houtline := hseen.outline_eq
        cases node <;> cases node' <;> simp only [Node.outline, reduceCtorEq] at houtline
        case link.link =>
          -- The root is a link, so it counts as what it leads to.
          obtain ⟨e, hx, hy⟩ | ⟨led, led', hx, hy, hseen⟩ := lookUp_agree hsight hdir .use root
          · rw [hx, hy]
          · rw [hx, hy]
            have houtline := hseen.outline_eq
            cases led <;> cases led' <;> simp only [Node.outline, reduceCtorEq] at houtline
            case dir.dir => exact congrArg Except.ok (hvisits hseen)
            all_goals rfl
        all_goals exact congrArg Except.ok (hvisits hseen)

end FileSystem

end TreePack
