import Mathlib.Tactic
import TreePack.Proofs.Creation
import TreePack.Proofs.Meeting

/-!
# Trees without links

In a tree without links a path leads to what it names.  A journey that ends at no directory ends
with the step down to the name that is found there, and this step is the last name of the path.  So
a file has in its directory the name that its path ends in, whatever `.`, `..` and slashes the path
is written with.  Looking a path up is the same for every purpose.
-/

namespace TreePack

/-! ## Trees without links -/

mutual

def Node.hasLink : Node → Bool
  | .link _ => true
  | .dir _ entries => hasLinkAmong entries
  | .file _ _ => false
  | .fifo _ => false
  | .device _ => false

def hasLinkAmong : List (Name × Node) → Bool
  | [] => false
  | (_, child) :: rest => child.hasLink || hasLinkAmong rest

end

theorem hasLink_of_lookup {entries : List (Name × Node)} {n : Name} {child : Node}
    (hfree : hasLinkAmong entries = false) (hchild : entries.lookup n = some child) :
    child.hasLink = false := by
  induction entries with
  | nil => contradiction
  | cons first rest ih =>
      rw [hasLinkAmong, Bool.or_eq_false_iff] at hfree
      rw [List.lookup_cons] at hchild
      split at hchild
      next =>
        cases hchild
        exact hfree.1
      next => exact ih hfree.2 hchild

theorem Node.hasLink_of_get? {node inner : Node} {location : Location}
    (hfree : node.hasLink = false) (hinner : node.get? location = some inner) :
    inner.hasLink = false := by
  induction location generalizing node with
  | nil =>
      cases hinner
      exact hfree
  | cons n rest ih =>
      obtain ⟨child, hchild, hrest⟩ := Option.bind_eq_some_iff.1 hinner
      obtain ⟨mode, entries, rfl, hlookup⟩ := Node.exists_eq_dir_of_entry hchild
      rw [hasLink] at hfree
      exact ih (hasLink_of_lookup hfree hlookup) hrest

namespace FileSystem

def LinkFree (fs : FileSystem) : Prop :=
  ∀ location target, fs.node? location ≠ some (.link target)

theorem linkFree_of_hasLink {fs : FileSystem} (hfree : fs.root.hasLink = false) : fs.LinkFree := by
  intro location target hlink
  have hinner := Node.hasLink_of_get? hfree hlink
  simp [Node.hasLink] at hinner

theorem MadeAt.linkFree {fs made : FileSystem} {artifact : Location}
    (hmade : fs.MadeAt made artifact) (hfree : fs.LinkFree) : made.LinkFree := by
  intro location target hlink
  exact hfree location target (hmade.link hlink)

end FileSystem

/-! ## The last name of a path -/

theorem Component.ofSegment?_of_step? {segment : Bytes} {n : Name}
    (hstep : Route.step? segment = some (.down n)) : ofSegment? segment = some (.name n) := by
  unfold Route.step? at hstep
  split at hstep
  next => contradiction
  next =>
    split at hstep
    next m hname =>
      cases hstep
      exact hname
    next => simp at hstep
    next => simp at hstep

theorem Component.ofSegment?_of_step?_none {segment : Bytes}
    (hstep : Route.step? segment = none) : ofSegment? segment = none := by
  unfold Route.step? at hstep
  split at hstep
  next hempty => simp [ofSegment?, hempty]
  next => split at hstep <;> contradiction

/-- Segments after the last step are empty, so the last step down is the last component. -/
theorem getLast?_components_of_steps {segments : List Bytes} {n : Name}
    (hlast : (segments.filterMap Route.step?).getLast? = some (.down n)) :
    (segments.filterMap Component.ofSegment?).getLast? = some (.name n) := by
  induction segments using List.reverseRecOn with
  | nil => contradiction
  | append_singleton init segment ih =>
      rw [List.filterMap_append, List.filterMap_cons, List.filterMap_nil] at hlast ⊢
      cases hstep : Route.step? segment with
      | none =>
          rw [Component.ofSegment?_of_step?_none hstep]
          simp only [hstep, List.append_nil] at hlast ⊢
          exact ih hlast
      | some step =>
          simp only [hstep, List.getLast?_concat, Option.some.injEq] at hlast
          subst step
          rw [Component.ofSegment?_of_step? hstep]
          simp

namespace Path

theorem components_eq (p : Path) :
    p.components = p.head.1.toList ++ p.segments.filterMap Component.ofSegment? := by
  have hempty : Component.ofSegment? [] = none := by simp [Component.ofSegment?]
  have hdot : Component.ofSegment? [Bytes.dot] = none := by simp [Component.ofSegment?]
  unfold components head
  split
  next rest hsegments => simp [hsegments, hempty]
  next first rest hsegments =>
    split
    next hfirst => simp [hsegments, hfirst, hdot]
    next => simp [hsegments]
  next hsegments => simp [hsegments]

theorem head_ne_name (p : Path) (n : Name) : p.head.1 ≠ some (.name n) := by
  unfold head
  split
  next => simp
  next => split <;> simp
  next => simp

theorem fileName?_of_last_step {p : Path} {n : Name}
    (hlast : (Route.ofPath p).steps.getLast? = some (.down n)) : p.fileName? = some n := by
  have hcomponent : (p.segments.filterMap Component.ofSegment?).getLast? = some (.name n) :=
    getLast?_components_of_steps hlast
  unfold fileName?
  rw [components_eq, List.getLast?_append, hcomponent]
  rfl

theorem fileName?_of_no_steps {p : Path} (hsteps : (Route.ofPath p).steps = []) :
    p.fileName? = none := by
  have hnone : p.segments.filterMap Component.ofSegment? = [] := by
    rw [List.filterMap_eq_nil_iff]
    intro segment hsegment
    apply Component.ofSegment?_of_step?_none
    exact List.filterMap_eq_nil_iff.1 hsteps segment hsegment
  unfold fileName?
  rw [components_eq, hnone, List.append_nil]
  cases hhead : p.head.1 with
  | none => rfl
  | some c =>
      cases c with
      | name n => exact absurd hhead (p.head_ne_name n)
      | root => rfl
      | here => rfl
      | parent => rfl

theorem fileName?_join_ofName (root : Path) (n : Name) :
    (root.join (ofName n)).fileName? = some n := by
  apply fileName?_of_last_step
  by_cases hroot : root.bytes = []
  · have hjoin : root.join (ofName n) = ofName n := by
      unfold join
      rw [isAbsolute_ofName]
      simp [hroot]
    rw [hjoin, Route.ofPath_ofName]
    rfl
  · rw [Route.ofPath_join_ofName hroot]
    simp

end Path

/-! ## Where the last name is found -/

namespace FileSystem

theorem Searchable.any_isDir_above {fs : FileSystem} {before after : Location}
    (hdir : fs.Searchable (before ++ after)) : (fs.node? before).any Node.isDir = true := by
  obtain ⟨mode, entries, hnode, _⟩ := hdir
  rw [node?_append] at hnode
  obtain ⟨top, htop, hbelow⟩ := Option.bind_eq_some_iff.1 hnode
  rw [htop]
  cases after with
  | nil =>
      cases hbelow
      rfl
  | cons n after =>
      obtain ⟨child, hchild, _⟩ := Option.bind_eq_some_iff.1 hbelow
      obtain ⟨mode', entries', rfl, _⟩ := Node.exists_eq_dir_of_entry hchild
      rfl

theorem Searchable.any_isDir {fs : FileSystem} {here : Location} (hdir : fs.Searchable here) :
    (fs.node? here).any Node.isDir = true := by
  obtain ⟨mode, entries, hnode, _⟩ := hdir
  rw [hnode]
  rfl

theorem Searchable.any_isDir_parent {fs : FileSystem} {here : Location}
    (hdir : fs.Searchable here) : (fs.node? here.dropLast).any Node.isDir = true := by
  obtain ⟨last, hlast⟩ := here.dropLast_prefix
  rw [← hlast] at hdir
  exact hdir.any_isDir_above

/-- Only the root of the tree is reached without a step. -/
theorem start_of_no_steps (fs : FileSystem) {p : Path} (husable : Usable p)
    (hsteps : (Route.ofPath p).steps = []) : fs.start p = [] := by
  have habsolute : p.isAbsolute = true := by
    by_contra hrelative
    exact Route.steps_ne_nil (by simpa using hrelative) husable.notEmpty hsteps
  exact if_pos habsolute

variable {fs : FileSystem} {location : Location}

theorem Travels.eq_of_nil {purpose : Purpose} {links : ℕ} {intoDir : Bool} {here : Location}
    {place : Place} (htravels : Travels fs purpose links intoDir here [] place) :
    place = .found here := by
  cases htravels
  rfl

/-- Without links, a journey that ends at no directory takes as its last step the one down to the
name that is found there. -/
theorem Travels.exists_last (hfree : fs.LinkFree)
    (hnotDir : (fs.node? location).any Node.isDir = false) {purpose : Purpose} {links : ℕ}
    {intoDir : Bool} {here : Location} {steps : List Step}
    (htravels : Travels fs purpose links intoDir here steps (.found location))
    (hsteps : steps ≠ []) :
    ∃ dir n, location = dir ++ [n] ∧ steps.getLast? = some (.down n) := by
  have hlater : ∀ {step : Step} {rest : List Step},
      (∃ dir n, location = dir ++ [n] ∧ rest.getLast? = some (.down n)) →
      ∃ dir n, location = dir ++ [n] ∧ (step :: rest).getLast? = some (.down n) := by
    rintro step rest ⟨dir, n, hlocation, hlast⟩
    refine ⟨dir, n, hlocation, ?_⟩
    rw [List.getLast?_cons, hlast]
    rfl
  generalize hplace : Place.found location = place at htravels
  induction htravels with
  | arrive => contradiction
  | @stay links intoDir here rest place hdir hon ih =>
      by_cases hrest : rest = []
      · subst rest
        subst place
        cases hon
        obtain ⟨mode, entries, hnode, _⟩ := hdir
        simp [hnode, Node.isDir] at hnotDir
      · exact hlater (ih hrest hplace)
  | @up links intoDir here rest place hdir hon ih =>
      by_cases hrest : rest = []
      · subst rest
        subst place
        cases hon
        rw [hdir.any_isDir_parent] at hnotDir
        contradiction
      · exact hlater (ih hrest hplace)
  | miss => contradiction
  | keep _ _ hlink => exact absurd hlink (hfree _ _)
  | follow _ _ hlink => exact absurd hlink (hfree _ _)
  | @enter links intoDir here n node rest place _ _ _ _ hon ih =>
      by_cases hrest : rest = []
      · subst rest
        subst place
        cases hon
        exact ⟨here, n, rfl, rfl⟩
      · exact hlater (ih hrest hplace)

/-- Without links, a path that leads to no directory ends in the name that is found there. -/
theorem LinkFree.fileName?_eq (hfree : fs.LinkFree) {purpose : Purpose} {p : Path}
    (hplace : fs.resolve purpose p = .ok (.found location))
    (hnotDir : (fs.node? location).any Node.isDir = false) :
    p.fileName? = location.getLast? := by
  obtain ⟨husable, htravels⟩ := (resolve_eq_ok_iff fs purpose p _).1 hplace
  by_cases hsteps : (Route.ofPath p).steps = []
  · rw [Path.fileName?_of_no_steps hsteps]
    rw [hsteps, fs.start_of_no_steps husable hsteps] at htravels
    cases htravels.eq_of_nil
    rfl
  · obtain ⟨dir, n, hlocation, hlast⟩ := htravels.exists_last hfree hnotDir hsteps
    rw [Path.fileName?_of_last_step hlast, hlocation]
    simp

theorem Travels.use_of_entry (hfree : fs.LinkFree) {links : ℕ} {intoDir : Bool} {here : Location}
    {steps : List Step} {place : Place}
    (htravels : Travels fs .entry links intoDir here steps place) :
    Travels fs .use links intoDir here steps place := by
  induction htravels with
  | arrive => exact .arrive
  | stay hdir _ ih => exact .stay hdir ih
  | up hdir _ ih => exact .up hdir ih
  | miss hmay hnone => exact .miss (hmay.for_purpose (by simp)) hnone
  | keep _ _ hlink => exact absurd hlink (hfree _ _)
  | follow _ _ hlink => exact absurd hlink (hfree _ _)
  | enter hmay hnode hnotLink hinto _ ih =>
      exact .enter (hmay.for_purpose (by simp)) hnode hnotLink hinto ih

theorem LinkFree.stat_of_linkStat (hfree : fs.LinkFree) {p : Path} {node : Node}
    (hentry : fs.linkStat p = .ok node) : fs.stat p = .ok node := by
  obtain ⟨location, hlocate, hnode⟩ := (linkStat_eq_ok_iff fs p node).1 hentry
  rw [locate_eq_ok_iff, resolve_eq_ok_iff] at hlocate
  rw [stat_eq_ok_iff]
  refine ⟨location, ?_, hnode⟩
  rw [locate_eq_ok_iff, resolve_eq_ok_iff]
  exact ⟨hlocate.1, hlocate.2.use_of_entry hfree⟩

theorem LinkFree.linkStat_of_stat (hfree : fs.LinkFree) {p : Path} {node : Node}
    (hstat : fs.stat p = .ok node) : fs.linkStat p = .ok node := by
  rcases FileSystem.linkStat_of_stat hstat with hentry | ⟨target, hlink⟩
  · exact hentry
  · obtain ⟨location, _, hnode⟩ := (stat_eq_ok_iff fs p _).1 (hfree.stat_of_linkStat hlink)
    exact absurd hnode (hfree location target)

/-- Without links, the artifact is found under the last name of its path. -/
theorem LinkFree.getLast?_of_create {fs made : FileSystem} {p : Path} {artifact : Location}
    (hfree : fs.LinkFree) (hcreate : fs.create p = .ok (made, artifact)) :
    artifact.getLast? = p.fileName? := by
  have hmade := madeAt_of_create hcreate
  obtain ⟨node, hnode, hnotDir, _⟩ := hmade.deadEnd
  have hplace := (creates_of_create hcreate).leads
  exact ((hmade.linkFree hfree).fileName?_eq hplace (by simp [hnode, hnotDir])).symm

/-- Without links, a survey is that of the node which its root leads to. -/
theorem LinkFree.survey_eq (hfree : fs.LinkFree) {rules : Rules} {root : Path} {top : Node}
    (hinput : root.isStandardInput = false) (htop : fs.stat root = .ok top) :
    fs.survey rules root = .ok (top.visits fs rules root (rootName root)) := by
  unfold survey
  rw [if_neg (by simp [hinput]), hfree.linkStat_of_stat htop]
  cases top with
  | link target =>
      obtain ⟨location, _, hlink⟩ := (stat_eq_ok_iff fs root _).1 htop
      exact absurd hlink (hfree location target)
  | file mode data => rfl
  | dir mode entries => rfl
  | fifo mode => rfl
  | device kind => rfl

end FileSystem

end TreePack
