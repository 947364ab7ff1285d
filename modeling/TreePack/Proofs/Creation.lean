import Mathlib.Tactic
import TreePack.Proofs.Crossing
import TreePack.Proofs.Meeting

/-!
# The tree once an artifact is open

Opening the artifact changes a tree at one place at most, where it leaves something that is neither
a directory nor a link.  Such a place is a dead end for the resolution of paths, so opening lets no
path lead to any other place than before, and takes no path away: the same paths lead to
directories, the same directories can be listed, and a survey meets what it would have met before,
apart from the artifact itself.
-/

namespace TreePack.FileSystem

/-- The trees differ in one place at most, at which the second has something that is neither a
directory nor a link.  The second tree has everything that the first has. -/
structure MadeAt (fs made : FileSystem) (artifact : Location) : Prop where
  workingDir : made.workingDir = fs.workingDir
  elsewhere : ∀ location, location ≠ artifact →
    (made.node? location).map Node.surface = (fs.node? location).map Node.surface
  within : fs.root.Within made.root
  deadEnd : ∃ node, made.node? artifact = some node ∧ node.isDir = false ∧
    ∀ target, node ≠ .link target

theorem within_of_sight_eq {fs other : FileSystem} (hsight : other.sight = fs.sight) :
    fs.root.Within other.root := by
  intro location node hnode
  have hsame := congrFun hsight location
  unfold sight at hsame
  rw [show fs.node? location = some node from hnode] at hsame
  exact Option.map_eq_some_iff.1 hsame

theorem any_isDir_of_within {fs other : FileSystem} (hwithin : fs.root.Within other.root)
    {dir : Location} (hdir : (fs.node? dir).any Node.isDir = true) :
    (other.node? dir).any Node.isDir = true := by
  obtain ⟨node, hnode, hisDir⟩ := (Option.any_eq_true _ _).1 hdir
  obtain ⟨node', hnode', houtline⟩ := hwithin dir node hnode
  rw [Option.any_eq_true]
  exact ⟨node', hnode', by rw [Node.isDir_eq_of_outline_eq houtline, hisDir]⟩

theorem madeAt_of_create {fs made : FileSystem} {p : Path} {artifact : Location}
    (hcreate : fs.create p = .ok (made, artifact)) :
    fs.MadeAt made artifact := by
  cases creates_of_create hcreate with
  | @makes dir n mode entries _ hdir hfree =>
      exact ⟨rfl, fun location hne => surface_node?_insert fs hne rfl _,
        within_root_insert fs dir n _ _, _, node?_insert_new hdir hfree _ _, rfl, by simp⟩
  | empties _ hfile _ =>
      exact ⟨rfl, fun location hne => surface_node?_setData fs hne [],
        within_of_sight_eq (sight_setData fs _ []), _, node?_setData_self hfile [], rfl, by simp⟩
  | @opens location node _ hnode hnotDir _ hnotLink =>
      exact ⟨rfl, fun _ _ => rfl, within_of_sight_eq rfl, node, hnode, hnotDir, hnotLink⟩

theorem locate_of_create {fs made : FileSystem} {p : Path} {artifact : Location}
    (hcreate : fs.create p = .ok (made, artifact)) :
    made.locate .use p = .ok artifact :=
  locate_use_of_make (creates_of_create hcreate).leads

/-! ## Journeys before and after -/

theorem Travels.within {fs made : FileSystem} (hwithin : fs.root.Within made.root)
    {purpose : Purpose} {links : ℕ} {intoDir : Bool} {here location : Location}
    {steps : List Step}
    (htravels : Travels fs purpose links intoDir here steps (.found location)) :
    Travels made purpose links intoDir here steps (.found location) := by
  generalize hplace : Place.found location = place at htravels
  induction htravels with
  | arrive => exact .arrive
  | stay hdir _ ih => exact .stay (hdir.within hwithin) (ih hplace)
  | up hdir _ ih => exact .up (hdir.within hwithin) (ih hplace)
  | miss => contradiction
  | keep hpurpose hmay hlink =>
      obtain ⟨node, hmade, houtline⟩ := hwithin _ _ hlink
      rw [Node.eq_link_of_outline_eq houtline] at hmade
      exact .keep hpurpose (hmay.within hwithin) hmade
  | follow hkeep hmay hlink _ ih =>
      obtain ⟨node, hmade, houtline⟩ := hwithin _ _ hlink
      rw [Node.eq_link_of_outline_eq houtline] at hmade
      exact .follow hkeep (hmay.within hwithin) hmade (ih hplace)
  | enter hmay hnode hnotLink hinto _ ih =>
      obtain ⟨node, hmade, houtline⟩ := hwithin _ _ hnode
      apply Travels.enter (hmay.within hwithin) hmade _ _ (ih hplace)
      · rintro target rfl
        exact hnotLink target (Node.eq_link_of_outline_eq houtline.symm)
      · intro hrest hintoDir
        rw [Node.isDir_eq_of_outline_eq houtline]
        exact hinto hrest hintoDir

section MadeAt

variable {fs made : FileSystem} {artifact : Location} (hmade : fs.MadeAt made artifact)

include hmade

theorem MadeAt.exists_node {location : Location} (hne : location ≠ artifact) {node : Node}
    (hnode : made.node? location = some node) :
    ∃ old, fs.node? location = some old ∧ old.surface = node.surface := by
  have hsame := (hmade.elsewhere location hne).symm
  rw [hnode] at hsame
  exact Option.map_eq_some_iff.1 hsame

theorem MadeAt.ne_of_isDir {location : Location} {node : Node}
    (hnode : made.node? location = some node) (hdir : node.isDir = true) :
    location ≠ artifact := by
  rintro rfl
  obtain ⟨other, hother, hnotDir, _⟩ := hmade.deadEnd
  rw [hnode] at hother
  cases hother
  simp [hdir] at hnotDir

theorem MadeAt.ne_of_link {location : Location} {target : Path}
    (hlink : made.node? location = some (.link target)) :
    location ≠ artifact := by
  rintro rfl
  obtain ⟨node, hnode, _, hnotLink⟩ := hmade.deadEnd
  rw [hlink] at hnode
  cases hnode
  exact hnotLink target rfl

theorem MadeAt.exists_dir {location : Location} {mode : Mode} {entries : List (Name × Node)}
    (hdir : made.node? location = some (.dir mode entries)) :
    ∃ entries', fs.node? location = some (.dir mode entries') := by
  obtain ⟨node, hnode, hsurface⟩ := hmade.exists_node (hmade.ne_of_isDir hdir rfl) hdir
  cases node <;> simp only [Node.surface, Node.dir.injEq, reduceCtorEq] at hsurface
  case dir mode' entries' =>
    rw [hsurface.1] at hnode
    exact ⟨entries', hnode⟩

theorem MadeAt.link {location : Location} {target : Path}
    (hlink : made.node? location = some (.link target)) :
    fs.node? location = some (.link target) := by
  obtain ⟨node, hnode, hsurface⟩ := hmade.exists_node (hmade.ne_of_link hlink) hlink
  cases node <;> simp only [Node.surface, Node.link.injEq, reduceCtorEq] at hsurface
  case link target' =>
    rw [hsurface] at hnode
    exact hnode

theorem MadeAt.searchable {here : Location} (hdir : made.Searchable here) :
    fs.Searchable here := by
  obtain ⟨mode, entries, hnode, hsearch⟩ := hdir
  obtain ⟨entries', hnode'⟩ := hmade.exists_dir hnode
  exact ⟨mode, entries', hnode', hsearch⟩

theorem MadeAt.not_searchable : ¬ made.Searchable artifact := by
  rintro ⟨mode, entries, hnode, _⟩
  exact hmade.ne_of_isDir hnode rfl rfl

theorem MadeAt.mayDescend {purpose : Purpose} {intoDir : Bool} {here : Location} {n : Name}
    {rest : List Step} (hmay : made.MayDescend purpose intoDir here n rest) :
    fs.MayDescend purpose intoDir here n rest :=
  ⟨hmade.searchable hmay.searchable, hmay.notDirToMake, hmay.nameFits⟩

theorem MadeAt.start_eq (p : Path) : made.start p = fs.start p := by
  unfold start
  rw [hmade.workingDir]

/-- The new place is the only one that a resolution may cross in addition. -/
theorem MadeAt.crosses {links : ℕ} {here location : Location} {steps : List Step}
    (hcrosses : made.Crosses links here steps location) :
    location = artifact ∨ fs.Crosses links here steps location := by
  induction hcrosses with
  | here => exact .inr .here
  | stay hdir _ ih => exact ih.imp_right (.stay (hmade.searchable hdir))
  | up hdir _ ih => exact ih.imp_right (.up (hmade.searchable hdir))
  | follow hdir hlink _ ih =>
      exact ih.imp_right (.follow (hmade.searchable hdir) (hmade.link hlink))
  | @enter links here location n node rest hdir hnode hnotLink hrest ih =>
      by_cases hartifact : here ++ [n] = artifact
      · left
        rw [hartifact] at hrest
        exact hrest.eq_of_not_searchable hmade.not_searchable
      · obtain ⟨old, hold, hsurface⟩ := hmade.exists_node hartifact hnode
        have hnotLink' : ∀ target, old ≠ .link target := by
          rintro target rfl
          cases node <;> simp_all [Node.surface]
        exact ih.imp_right (.enter (hmade.searchable hdir) hold hnotLink')

theorem MadeAt.staysOutside {dirs : Set Location} (houtside : Outside dirs artifact) {p : Path}
    (hstays : fs.StaysOutside dirs p) :
    made.StaysOutside dirs p := by
  intro husable location hcrosses
  rw [hmade.start_eq] at hcrosses
  rcases hmade.crosses hcrosses with rfl | hbefore
  · exact houtside
  · exact hstays husable location hbefore

/-- A journey to any other place was possible before. -/
theorem MadeAt.travels {purpose : Purpose} {links : ℕ} {intoDir : Bool}
    {here location : Location} {steps : List Step} (hne : location ≠ artifact)
    (htravels : Travels made purpose links intoDir here steps (.found location)) :
    Travels fs purpose links intoDir here steps (.found location) := by
  generalize hplace : Place.found location = place at htravels
  induction htravels with
  | arrive => exact .arrive
  | stay hdir _ ih => exact .stay (hmade.searchable hdir) (ih hplace)
  | up hdir _ ih => exact .up (hmade.searchable hdir) (ih hplace)
  | miss => contradiction
  | keep hpurpose hmay hlink =>
      exact .keep hpurpose (hmade.mayDescend hmay) (hmade.link hlink)
  | follow hkeep hmay hlink _ ih =>
      exact .follow hkeep (hmade.mayDescend hmay) (hmade.link hlink) (ih hplace)
  | @enter links intoDir here n node rest place hmay hnode hnotLink hinto hrest ih =>
      have hother : here ++ [n] ≠ artifact := by
        intro hartifact
        rw [hartifact] at hrest
        have hend := hrest.eq_of_not_searchable hmade.not_searchable
        rw [← hplace] at hend
        exact hne (Place.found.inj hend)
      obtain ⟨old, hold, hsurface⟩ := hmade.exists_node hother hnode
      have houtline := Node.outline_eq_of_surface_eq hsurface
      apply Travels.enter (hmade.mayDescend hmay) hold _ _ (ih hplace)
      · rintro target rfl
        exact hnotLink target (Node.eq_link_of_outline_eq houtline.symm)
      · intro hempty hintoDir
        rw [Node.isDir_eq_of_outline_eq houtline]
        exact hinto hempty hintoDir

theorem MadeAt.locate_made {purpose : Purpose} {p : Path} {location : Location}
    (hlocate : fs.locate purpose p = .ok location) :
    made.locate purpose p = .ok location := by
  rw [locate_eq_ok_iff, resolve_eq_ok_iff] at hlocate ⊢
  rw [hmade.start_eq]
  exact ⟨hlocate.1, hlocate.2.within hmade.within⟩

theorem MadeAt.locate_before {purpose : Purpose} {p : Path} {location : Location}
    (hne : location ≠ artifact) (hlocate : made.locate purpose p = .ok location) :
    fs.locate purpose p = .ok location := by
  rw [locate_eq_ok_iff, resolve_eq_ok_iff, hmade.start_eq] at hlocate
  rw [locate_eq_ok_iff, resolve_eq_ok_iff]
  exact ⟨hlocate.1, hmade.travels hne hlocate.2⟩

/-! ## Directories before and after -/

theorem MadeAt.stat_dir_iff (p : Path) (mode : Mode) :
    (∃ entries, made.stat p = .ok (.dir mode entries)) ↔
      ∃ entries, fs.stat p = .ok (.dir mode entries) := by
  simp only [stat_eq_ok_iff]
  constructor
  · rintro ⟨entries, location, hlocate, hdir⟩
    have hne := hmade.ne_of_isDir hdir rfl
    obtain ⟨entries', hdir'⟩ := hmade.exists_dir hdir
    exact ⟨entries', location, hmade.locate_before hne hlocate, hdir'⟩
  · rintro ⟨entries, location, hlocate, hdir⟩
    obtain ⟨node, hnode, houtline⟩ := hmade.within location _ hdir
    cases node <;> simp only [Node.outline, Node.dir.injEq, reduceCtorEq] at houtline
    case dir mode' entries' =>
      rw [houtline.1] at hnode
      exact ⟨entries', location, hmade.locate_made hlocate, hnode⟩

theorem MadeAt.isDir_eq (p : Path) : made.isDir p = fs.isDir p := by
  rw [Bool.eq_iff_iff, isDir_eq_true_iff, isDir_eq_true_iff]
  simp only [hmade.stat_dir_iff p]

theorem MadeAt.listable_iff (p : Path) : made.Listable p ↔ fs.Listable p := by
  have hlistable : ∀ fs : FileSystem, fs.Listable p ↔
      ∃ mode, (∃ entries, fs.stat p = .ok (.dir mode entries)) ∧ mode.mayRead = true := by
    intro fs
    simp only [Listable, list_eq_ok_iff]
    constructor
    · rintro ⟨entries, mode, hstat, hread⟩
      exact ⟨mode, ⟨entries, hstat⟩, hread⟩
    · rintro ⟨mode, ⟨entries, hstat⟩, hread⟩
      exact ⟨entries, mode, hstat, hread⟩
  rw [hlistable, hlistable]
  simp only [hmade.stat_dir_iff p]

theorem MadeAt.exists_top {here : Location} {top : Node} (htop : fs.node? here = some top)
    (hdir : top.isDir = true) :
    ∃ top', made.node? here = some top' ∧ top'.isDir = true := by
  obtain ⟨top', htop', houtline⟩ := hmade.within here top htop
  exact ⟨top', htop', by rw [Node.isDir_eq_of_outline_eq houtline, hdir]⟩

/-! ## What a survey meets before and after -/

section Below

variable {rules : Rules} {root : Path} {here : Location} {top top' : Node}
  (htop : fs.node? here = some top) (htop' : made.node? here = some top')

include htop htop'

theorem MadeAt.meets_before {trail : List Name} {node : Node}
    (hmeets : made.Meets rules root top' trail node) (hne : here ++ trail ≠ artifact) :
    ∃ old, fs.Meets rules root top trail old ∧ old.surface = node.surface := by
  induction hmeets with
  | start =>
      rw [List.append_nil] at hne
      obtain ⟨old, hold, hsurface⟩ := hmade.exists_node hne htop'
      rw [htop] at hold
      cases hold
      exact ⟨top, .start, hsurface⟩
  | @entry trail mode entries n child hparent henters hlist hlookup ih =>
      have hdir : made.node? (here ++ trail) = some (.dir mode entries) := hparent.node?_eq htop'
      obtain ⟨old, hmeets, hsurface⟩ := ih (hmade.ne_of_isDir hdir rfl)
      have hchild : made.node? (here ++ (trail ++ [n])) = some child := by
        rw [← List.append_assoc, node?_entry hdir, hlookup]
      obtain ⟨oldChild, holdChild, hsame⟩ := hmade.exists_node hne hchild
      cases old <;> simp only [Node.surface, Node.dir.injEq, reduceCtorEq] at hsurface
      case dir mode' entries' =>
        have hdir' : fs.node? (here ++ trail) = some (.dir mode' entries') := hmeets.node?_eq htop
        rw [← List.append_assoc, node?_entry hdir'] at holdChild
        exact ⟨oldChild, hmeets.entry henters ((hmade.listable_iff _).1 hlist) holdChild, hsame⟩

/-- A candidate was one before, or it is the artifact. -/
theorem MadeAt.candidate_before (hinput : root.isStandardInput = false)
    (hroot : fs.locate .use root = .ok here) (hdir : top.isDir = true) {c : Candidate}
    (hmem : c ∈ made.candidates rules root) :
    c ∈ fs.candidates rules root ∨
      ∃ trail, c = Candidate.below root trail ∧ here ++ trail = artifact := by
  have hstat : fs.stat root = .ok top := (stat_eq_ok_iff fs root top).2 ⟨here, hroot, htop⟩
  have hstat' : made.stat root = .ok top' :=
    (stat_eq_ok_iff made root top').2 ⟨here, hmade.locate_made hroot, htop'⟩
  have hdir' : top'.isDir = true := by
    obtain ⟨node, hnode, hnodeDir⟩ := hmade.exists_top htop hdir
    rw [htop'] at hnode
    cases hnode
    exact hnodeDir
  obtain ⟨trail, n, node, rfl, hmeets, hverdict⟩ := (mem_candidates_iff hinput hstat' hdir' c).1 hmem
  by_cases hartifact : here ++ (trail ++ [n]) = artifact
  · exact .inr ⟨trail ++ [n], rfl, hartifact⟩
  · left
    obtain ⟨old, hold, hsurface⟩ := hmade.meets_before htop htop' hmeets hartifact
    rw [mem_candidates_iff hinput hstat hdir]
    refine ⟨trail, n, old, rfl, hold, ?_⟩
    rw [← hverdict]
    cases node with
    | dir mode entries =>
        simp only [Node.verdict] at hverdict
        split at hverdict
        next => contradiction
        next => split at hverdict <;> contradiction
    | link target =>
        cases old <;> simp_all [Node.surface, Node.verdict, hmade.isDir_eq]
    | _ => cases old <;> simp_all [Node.surface, Node.verdict]

end Below

end MadeAt

end TreePack.FileSystem
