import Mathlib.Data.Set.Basic
import Mathlib.Tactic
import TreePack.Proofs.Descent

/-!
# The places that a resolution crosses

To resolve a path is to look at one place after the other.  The relation `Crosses` says at which,
whether or not the resolution succeeds.  What lies elsewhere has no influence on the result: two
trees that are alike outside some directories resolve every path alike whose resolution in one of
them crosses none of these directories and nothing beneath them.  The directories themselves may
have any entries and any permissions, as long as they are directories in both trees.
-/

namespace TreePack

/-- The location is none of these directories and lies beneath none of them. -/
def Outside (dirs : Set Location) (location : Location) : Prop :=
  ∀ dir ∈ dirs, ¬ dir <+: location

theorem outside_empty (location : Location) : Outside ∅ location := by
  intro dir hdir
  contradiction

theorem mem_of_not_outside_concat {dirs : Set Location} {here : Location} {n : Name}
    (hhere : Outside dirs here) (hentry : ¬ Outside dirs (here ++ [n])) :
    here ++ [n] ∈ dirs := by
  unfold Outside at hentry
  push Not at hentry
  obtain ⟨dir, hdir, hbelow⟩ := hentry
  rcases List.prefix_concat_iff.1 hbelow with rfl | hbefore
  · exact hdir
  · exact absurd hbefore (hhere dir hdir)

/-- Where a journey to this place ends. -/
def Place.stop : Place → Location
  | .found location => location
  | .vacant dir _ => dir

namespace FileSystem

/-- Both trees look the same everywhere outside these directories, which both have.  The order of
entries counts for nothing. -/
structure AlikeOutside (dirs : Set Location) (fs other : FileSystem) : Prop where
  workingDir : other.workingDir = fs.workingDir
  surface : ∀ location, Outside dirs location →
    (other.node? location).map Node.surface = (fs.node? location).map Node.surface
  isDir : ∀ dir ∈ dirs, (fs.node? dir).any Node.isDir = true ∧
    (other.node? dir).any Node.isDir = true

/-- Taking these steps from a location, and following at most so many links, one comes across the
last location. -/
inductive Crosses (fs : FileSystem) : ℕ → Location → List Step → Location → Prop
  | here {links : ℕ} {here : Location} {steps : List Step} : Crosses fs links here steps here
  | stay {links : ℕ} {here location : Location} {rest : List Step} :
      fs.Searchable here → Crosses fs links here rest location →
      Crosses fs links here (.stay :: rest) location
  | up {links : ℕ} {here location : Location} {rest : List Step} :
      fs.Searchable here → Crosses fs links here.dropLast rest location →
      Crosses fs links here (.up :: rest) location
  | follow {links : ℕ} {here location : Location} {n : Name} {target : Path} {rest : List Step} :
      fs.Searchable here → fs.node? (here ++ [n]) = some (.link target) →
      Crosses fs links (if (Route.ofPath target).fromRoot then [] else here)
        ((Route.ofPath target).steps ++ rest) location →
      Crosses fs (links + 1) here (.down n :: rest) location
  | enter {links : ℕ} {here location : Location} {n : Name} {node : Node} {rest : List Step} :
      fs.Searchable here → fs.node? (here ++ [n]) = some node → (∀ target, node ≠ .link target) →
      Crosses fs links (here ++ [n]) rest location →
      Crosses fs links here (.down n :: rest) location

/-- The resolution of the path crosses nothing in these directories.  A path that is refused for its
text is not resolved at all. -/
def StaysOutside (fs : FileSystem) (dirs : Set Location) (p : Path) : Prop :=
  Usable p → ∀ location, fs.Crosses linkLimit (fs.start p) (Route.ofPath p).steps location →
    Outside dirs location

theorem staysOutside_empty (fs : FileSystem) (p : Path) : fs.StaysOutside ∅ p :=
  fun _ location _ => outside_empty location

/-! ## What is crossed on a journey -/

theorem Travels.crosses {fs : FileSystem} {purpose : Purpose} (hpurpose : purpose ≠ .entry)
    {links : ℕ} {intoDir : Bool} {here : Location} {steps : List Step} {place : Place}
    (htravels : Travels fs purpose links intoDir here steps place) :
    fs.Crosses links here steps place.stop := by
  induction htravels with
  | arrive => exact .here
  | stay hdir _ ih => exact .stay hdir ih
  | up hdir _ ih => exact .up hdir ih
  | miss => exact .here
  | keep hentry => contradiction
  | follow _ hmay hlink _ ih => exact .follow hmay.searchable hlink ih
  | enter hmay hnode hnotLink _ _ ih => exact .enter hmay.searchable hnode hnotLink ih

theorem Crosses.eq_of_not_searchable {fs : FileSystem} {links : ℕ} {here location : Location}
    {steps : List Step} (hstuck : ¬ fs.Searchable here)
    (hcrosses : fs.Crosses links here steps location) :
    location = here := by
  cases hcrosses with
  | here => rfl
  | stay hdir => exact absurd hdir hstuck
  | up hdir => exact absurd hdir hstuck
  | follow hdir => exact absurd hdir hstuck
  | enter hdir => exact absurd hdir hstuck

theorem searchable_of_sight {fs other : FileSystem} {here : Location}
    (hsame : other.sight here = fs.sight here) (hdir : fs.Searchable here) :
    other.Searchable here := by
  rcases hdir with ⟨mode, entries, hnode, hsearch⟩
  unfold sight at hsame
  rw [hnode] at hsame
  obtain ⟨node, hother, houtline⟩ := Option.map_eq_some_iff.1 hsame
  cases node <;> simp only [Node.outline, Node.dir.injEq, reduceCtorEq] at houtline
  case dir mode' entries' =>
    exact ⟨mode', entries', hother, houtline.1 ▸ hsearch⟩

theorem link_of_sight {fs other : FileSystem} {location : Location}
    (hsame : other.sight location = fs.sight location) {target : Path}
    (hlink : fs.node? location = some (.link target)) :
    other.node? location = some (.link target) := by
  unfold sight at hsame
  rw [hlink] at hsame
  obtain ⟨node, hother, houtline⟩ := Option.map_eq_some_iff.1 hsame
  rw [hother, Node.eq_link_of_outline_eq houtline]

theorem any_isDir_of_sight {fs other : FileSystem} {location : Location}
    (hsame : other.sight location = fs.sight location) :
    (other.node? location).any Node.isDir = (fs.node? location).any Node.isDir := by
  unfold sight at hsame
  cases hnode : fs.node? location with
  | none =>
      rw [hnode, Option.map_none, Option.map_eq_none_iff] at hsame
      rw [hsame]
  | some node =>
      rw [hnode, Option.map_some] at hsame
      obtain ⟨node', hother, houtline⟩ := Option.map_eq_some_iff.1 hsame
      rw [hother, Option.any_some, Option.any_some, Node.isDir_eq_of_outline_eq houtline]

theorem searchable_congr {fs other : FileSystem} (hsight : other.sight = fs.sight)
    {here : Location} (hdir : fs.Searchable here) :
    other.Searchable here :=
  searchable_of_sight (congrFun hsight here) hdir

theorem Crosses.congr {fs other : FileSystem} (hsight : other.sight = fs.sight) {links : ℕ}
    {here location : Location} {steps : List Step}
    (hcrosses : fs.Crosses links here steps location) :
    other.Crosses links here steps location := by
  induction hcrosses with
  | here => exact .here
  | stay hdir _ ih => exact .stay (searchable_congr hsight hdir) ih
  | up hdir _ ih => exact .up (searchable_congr hsight hdir) ih
  | follow hdir hlink _ ih =>
      exact .follow (searchable_congr hsight hdir) (link_of_sight (congrFun hsight _) hlink) ih
  | @enter links here location n node rest hdir hnode hnotLink _ ih =>
      have hsame := congrFun hsight (here ++ [n])
      unfold sight at hsame
      rw [hnode] at hsame
      obtain ⟨node, hother, houtline⟩ := Option.map_eq_some_iff.1 hsame
      apply Crosses.enter (searchable_congr hsight hdir) hother _ ih
      rintro target rfl
      exact hnotLink target (Node.eq_link_of_outline_eq houtline.symm)

theorem StaysOutside.congr {fs other : FileSystem} {dirs : Set Location} {p : Path}
    (hsight : other.sight = fs.sight) (hdir : other.workingDir = fs.workingDir)
    (hstays : fs.StaysOutside dirs p) :
    other.StaysOutside dirs p := by
  intro husable location hcrosses
  apply hstays husable
  unfold start at hcrosses ⊢
  rw [hdir] at hcrosses
  exact hcrosses.congr hsight.symm

/-! ## Trees that are alike outside -/

section Alike

variable {dirs : Set Location} {fs other : FileSystem} (halike : AlikeOutside dirs fs other)

include halike

theorem AlikeOutside.sight {location : Location} (houtside : Outside dirs location) :
    other.sight location = fs.sight location := by
  have hsurface := congrArg (Option.map Node.outline) (halike.surface location houtside)
  simpa [FileSystem.sight, Option.map_map, Function.comp_def] using hsurface

/-- A step down that is not outside leads into one of the directories. -/
theorem AlikeOutside.crosses_of_not_outside {links : ℕ} {here : Location} {n : Name}
    {rest : List Step} (hdir : fs.Searchable here) (hhere : Outside dirs here)
    (hentry : ¬ Outside dirs (here ++ [n])) :
    fs.Crosses links here (.down n :: rest) (here ++ [n]) := by
  have hmem := mem_of_not_outside_concat hhere hentry
  obtain ⟨node, hnode, hisDir⟩ := (Option.any_eq_true _ _).1 (halike.isDir _ hmem).1
  apply Crosses.enter hdir hnode _ .here
  rintro target rfl
  simp [Node.isDir] at hisDir

theorem AlikeOutside.advance_eq {purpose : Purpose} {links : ℕ} {intoDir : Bool}
    {follow follow' : Location → Path → List Step → Except IoError Place}
    (hfollow : ∀ {here : Location} {n : Name} {target : Path} {rest : List Step},
      fs.Searchable here → fs.node? (here ++ [n]) = some (.link target) →
      (∀ location, fs.Crosses links here (.down n :: rest) location → Outside dirs location) →
      follow' here target rest = follow here target rest)
    {here : Location} {steps : List Step}
    (hcross : ∀ location, fs.Crosses links here steps location → Outside dirs location) :
    other.advance purpose intoDir follow' here steps =
      fs.advance purpose intoDir follow here steps := by
  induction steps generalizing here with
  | nil => rfl
  | cons step rest ih =>
      rw [advance_cons, advance_cons, halike.sight (hcross here .here)]
      cases hhere : fs.sight here with
      | none => rfl
      | some node =>
          obtain ⟨found, hfound, rfl⟩ := Option.map_eq_some_iff.1 hhere
          cases found with
          | dir mode entries =>
              simp only [Node.outline]
              cases hsearch : mode.maySearch with
              | false => rfl
              | true =>
                  have hdir : fs.Searchable here := ⟨mode, entries, hfound, hsearch⟩
                  cases step with
                  | stay => simp only [ih fun location h => hcross location (.stay hdir h)]
                  | up => simp only [ih fun location h => hcross location (.up hdir h)]
                  | down n =>
                      -- A step out of the common part would cross one of the directories.
                      have hentry : Outside dirs (here ++ [n]) := by
                        by_contra hinside
                        exact hinside (hcross _
                          (halike.crosses_of_not_outside hdir (hcross here .here) hinside))
                      simp only [halike.sight hentry]
                      cases hnode : fs.node? (here ++ [n]) with
                      | none => simp [FileSystem.sight, hnode]
                      | some child =>
                          cases child with
                          | link target =>
                              simp [FileSystem.sight, hnode, Node.outline,
                                hfollow hdir hnode hcross]
                          | _ =>
                              have hlater := ih fun location h =>
                                hcross location (.enter hdir hnode (by simp) h)
                              simp [FileSystem.sight, hnode, Node.outline, hlater]
          | _ => rfl

theorem AlikeOutside.travel_eq (purpose : Purpose) {links : ℕ} {intoDir : Bool} {here : Location}
    {steps : List Step}
    (hcross : ∀ location, fs.Crosses links here steps location → Outside dirs location) :
    other.travel purpose links intoDir here steps = fs.travel purpose links intoDir here steps := by
  induction links generalizing intoDir here steps with
  | zero =>
      rw [travel_eq_advance, travel_eq_advance]
      exact halike.advance_eq (fun _ _ _ => rfl) hcross
  | succ links ih =>
      rw [travel_eq_advance, travel_eq_advance]
      apply halike.advance_eq _ hcross
      intro here n target rest hdir hlink hcrossLink
      exact ih fun location h => hcrossLink location (.follow hdir hlink h)

variable {p : Path} (hstays : fs.StaysOutside dirs p)

include hstays

theorem AlikeOutside.resolve_eq (purpose : Purpose) :
    other.resolve purpose p = fs.resolve purpose p := by
  unfold resolve
  split
  next => rfl
  next hnul =>
    split
    next => rfl
    next hempty =>
      split
      next => rfl
      next hlong =>
        have husable : Usable p := ⟨by simpa using hnul, hempty, Nat.le_of_not_lt hlong⟩
        have htravel : other.travel purpose linkLimit (Route.ofPath p).intoDir (fs.start p)
            (Route.ofPath p).steps = fs.travel purpose linkLimit (Route.ofPath p).intoDir
              (fs.start p) (Route.ofPath p).steps :=
          halike.travel_eq purpose (hstays husable)
        unfold start at htravel
        simp only [halike.workingDir, htravel]

theorem AlikeOutside.locate_eq (purpose : Purpose) :
    other.locate purpose p = fs.locate purpose p := by
  unfold locate
  rw [halike.resolve_eq hstays]

end Alike

theorem StaysOutside.stop {fs : FileSystem} {dirs : Set Location} {p : Path}
    (hstays : fs.StaysOutside dirs p) {purpose : Purpose} (hpurpose : purpose ≠ .entry)
    {place : Place} (hresolve : fs.resolve purpose p = .ok place) :
    Outside dirs place.stop := by
  have hjourney := (resolve_eq_ok_iff fs purpose p place).1 hresolve
  exact hstays hjourney.1 _ (hjourney.2.crosses hpurpose)

/-! ## Paths below a root -/

theorem Travels.crosses_append {fs : FileSystem} {links : ℕ} {intoDir : Bool}
    {here location : Location} {steps : List Step}
    (htravels : Travels fs .use links intoDir here steps (.found location))
    {more : List Step} {crossed : Location}
    (hcrosses : fs.Crosses links here (steps ++ more) crossed) :
    fs.Crosses links here steps crossed ∨ ∃ links', fs.Crosses links' location more crossed := by
  generalize hplace : Place.found location = place at htravels
  induction htravels with
  | arrive =>
      cases hplace
      exact .inr ⟨_, hcrosses⟩
  | stay hdir _ ih =>
      cases hcrosses with
      | here => exact .inl .here
      | stay _ hrest => exact (ih hrest hplace).imp_left (.stay hdir)
  | up hdir _ ih =>
      cases hcrosses with
      | here => exact .inl .here
      | up _ hrest => exact (ih hrest hplace).imp_left (.up hdir)
  | miss => contradiction
  | keep hpurpose => contradiction
  | @follow links intoDir here n target rest place _ hmay hlink _ ih =>
      -- The steps of the target come before `rest`, so `more` stays at the end.
      rw [List.cons_append] at hcrosses
      generalize htail : rest ++ more = tail at hcrosses
      cases hcrosses with
      | here => exact .inl .here
      | follow _ hlink' hrest =>
          rw [hlink] at hlink'
          cases hlink'
          rw [← htail, ← List.append_assoc] at hrest
          exact (ih hrest hplace).imp_left (.follow hmay.searchable hlink)
      | enter _ hnode hnotLink =>
          rw [hlink] at hnode
          cases hnode
          exact absurd rfl (hnotLink _)
  | enter hmay hnode hnotLink _ _ ih =>
      cases hcrosses with
      | here => exact .inl .here
      | follow _ hlink =>
          rw [hnode] at hlink
          cases hlink
          exact absurd rfl (hnotLink _)
      | enter _ _ _ hrest =>
          exact (ih hrest hplace).imp_left (.enter hmay.searchable hnode hnotLink)

theorem Crosses.down_through {fs : FileSystem} {links : ℕ} {here crossed : Location}
    {trail : List Name} {top node : Node} (htop : fs.node? here = some top)
    (hnode : top.get? trail = some node) (hnotLink : ∀ target, node ≠ .link target)
    (hcrosses : fs.Crosses links here (trail.map Step.down) crossed) :
    ∃ before, before <+: trail ∧ crossed = here ++ before := by
  induction trail generalizing here top with
  | nil =>
      cases hcrosses
      exact ⟨[], List.nil_prefix, by simp⟩
  | cons n trail ih =>
      obtain ⟨child, hchild, hrest⟩ := Option.bind_eq_some_iff.1 hnode
      have hnext : fs.node? (here ++ [n]) = some child := by
        rw [node?_append, htop]
        exact (Node.get?_singleton top n).trans hchild
      rw [List.map_cons] at hcrosses
      cases hcrosses with
      | here => exact ⟨[], List.nil_prefix, by simp⟩
      | follow _ hlink _ =>
          rw [hnext] at hlink
          cases hlink
          cases trail with
          | nil =>
              cases hrest
              exact absurd rfl (hnotLink _)
          | cons m trail => simp [Node.get?, Node.entry?] at hrest
      | enter _ _ _ hfurther =>
          obtain ⟨before, hbefore, rfl⟩ := ih hnext hrest hfurther
          exact ⟨n :: before, List.cons_prefix_cons.2 ⟨rfl, hbefore⟩, by simp⟩

/-- Below a root that is resolved outside, paths through real directories that are outside stay
outside too. -/
theorem StaysOutside.descend {fs : FileSystem} {dirs : Set Location} {root : Path}
    (hstays : fs.StaysOutside dirs root) {here : Location} {top node : Node}
    (hroot : fs.locate .use root = .ok here) (htop : fs.node? here = some top)
    {trail : List Name} (hnode : top.get? trail = some node)
    (hnotLink : ∀ target, node ≠ .link target) (houtside : Outside dirs (here ++ trail)) :
    fs.StaysOutside dirs (root.descend trail) := by
  rw [locate_eq_ok_iff, resolve_eq_ok_iff] at hroot
  have hne := hroot.1.notEmpty
  intro _ crossed hcrosses
  rw [start_descend fs hne, (Route.ofPath_descend hne trail).2] at hcrosses
  rcases hroot.2.crosses_append hcrosses with hbase | ⟨links, hbelow⟩
  · exact hstays hroot.1 crossed hbase
  · obtain ⟨before, hbefore, rfl⟩ := hbelow.down_through htop hnode hnotLink
    intro dir hdir hbelow
    exact houtside dir hdir (hbelow.trans ((List.prefix_append_right_inj here).2 hbefore))

end FileSystem

end TreePack
