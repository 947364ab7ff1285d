import Mathlib.Tactic
import TreePack.Proofs.Creation

/-!
# Cycles of links

A link is resolved by putting the steps of its target in its place.  If the same link comes up again
before these steps are used up, its resolution never ends: all that has happened since happens once
more, whatever is to be done afterwards, and there may be more to do afterwards each time.  Such a
cycle may consist of any number of links and may lead through directories, up again and from the
root of the tree.

The relation `Moves` has one rule for each thing that a single step of a resolution can do, and
`Reaches` says where one comes by such steps.  A resolution that reaches a link in a cycle needs
more links than may be followed, whatever their number.
-/

namespace TreePack.FileSystem

/-- One step of a resolution that follows every link: how many links it takes, where it leads and
which steps are left there. -/
inductive Moves (fs : FileSystem) : ℕ → Location → List Step → Location → List Step → Prop
  | stay {here : Location} {rest : List Step} :
      fs.Searchable here → Moves fs 0 here (.stay :: rest) here rest
  | up {here : Location} {rest : List Step} :
      fs.Searchable here → Moves fs 0 here (.up :: rest) here.dropLast rest
  | follow {here : Location} {n : Name} {target : Path} {rest : List Step} :
      fs.Searchable here → n.bytes.length ≤ nameLimit →
      fs.node? (here ++ [n]) = some (.link target) →
      Moves fs 1 here (.down n :: rest) (if (Route.ofPath target).fromRoot then [] else here)
        ((Route.ofPath target).steps ++ rest)
  | enter {here : Location} {n : Name} {node : Node} {rest : List Step} :
      fs.Searchable here → n.bytes.length ≤ nameLimit →
      fs.node? (here ++ [n]) = some node → (∀ target, node ≠ .link target) →
      Moves fs 0 here (.down n :: rest) (here ++ [n]) rest

/-- Some first steps lead from a location to another one by following so many links, and these steps
are left there. -/
inductive Reaches (fs : FileSystem) : ℕ → Location → List Step → Location → List Step → Prop
  | here {here : Location} {steps : List Step} : Reaches fs 0 here steps here steps
  | move {cost used : ℕ} {here next there : Location} {steps left more : List Step} :
      fs.Moves cost here steps next left → Reaches fs used next left there more →
      Reaches fs (cost + used) here steps there more

/-- The entry `n` is a link that comes up again while it is being resolved. -/
def CyclicLink (fs : FileSystem) (here : Location) (n : Name) : Prop :=
  ∃ used more, 0 < used ∧ fs.Reaches used here [.down n] here (.down n :: more)

/-- The resolution of the path comes to a link in a cycle.  A path that is refused for its text is
not resolved at all. -/
structure RunsIntoCycle (fs : FileSystem) (p : Path) : Prop where
  usable : Usable p
  meetsCycle : ∃ used here n more,
    fs.Reaches used (fs.start p) (Route.ofPath p).steps here (.down n :: more) ∧
      fs.CyclicLink here n

variable {fs made : FileSystem} {cost used uses links : ℕ} {here next there : Location}
  {steps left more rest : List Step} {n : Name} {target p : Path}

/-! ## Single steps -/

theorem Moves.append (hmove : fs.Moves cost here steps there more) (rest : List Step) :
    fs.Moves cost here (steps ++ rest) there (more ++ rest) := by
  cases hmove with
  | stay hdir => exact .stay hdir
  | up hdir => exact .up hdir
  | follow hdir hfits hlink =>
      rw [List.append_assoc]
      exact .follow hdir hfits hlink
  | enter hdir hfits hnode hnotLink => exact .enter hdir hfits hnode hnotLink

theorem Moves.ne_nil (hmove : fs.Moves cost here steps there more) : steps ≠ [] := by
  cases hmove <;> simp

theorem Moves.within (hwithin : fs.root.Within made.root)
    (hmove : fs.Moves cost here steps there more) :
    made.Moves cost here steps there more := by
  cases hmove with
  | stay hdir => exact .stay (hdir.within hwithin)
  | up hdir => exact .up (hdir.within hwithin)
  | follow hdir hfits hlink =>
      obtain ⟨node, hmade, houtline⟩ := hwithin _ _ hlink
      rw [Node.eq_link_of_outline_eq houtline] at hmade
      exact .follow (hdir.within hwithin) hfits hmade
  | enter hdir hfits hnode hnotLink =>
      obtain ⟨node, hmade, houtline⟩ := hwithin _ _ hnode
      apply Moves.enter (hdir.within hwithin) hfits hmade
      rintro target rfl
      exact hnotLink target (Node.eq_link_of_outline_eq houtline.symm)

theorem travel_link_use (hdir : fs.Searchable here) (hfits : n.bytes.length ≤ nameLimit)
    (hlink : fs.node? (here ++ [n]) = some (.link target)) (links : ℕ) (intoDir : Bool)
    (rest : List Step) :
    fs.travel .use links intoDir here (.down n :: rest) =
      fs.onLink .use links intoDir here target rest := by
  rw [travel_eq_advance, advance_down hdir, if_neg (by simp), if_neg (Nat.not_lt_of_le hfits),
    hlink]
  simp

/-- A resolution goes on after a step, with the links that it has left over. -/
theorem Moves.exists_travel_eq (hmove : fs.Moves cost here steps there more) (hmore : more ≠ [])
    (links : ℕ) (intoDir : Bool) :
    ∃ intoDir', fs.travel .use (cost + links) intoDir here steps =
      fs.travel .use links intoDir' there more := by
  cases hmove with
  | stay hdir => exact ⟨intoDir, by rw [Nat.zero_add, travel_stay hdir]⟩
  | up hdir => exact ⟨intoDir, by rw [Nat.zero_add, travel_up hdir]⟩
  | follow hdir hfits hlink =>
      rw [travel_link_use hdir hfits hlink, Nat.add_comm]
      exact ⟨_, rfl⟩
  | enter hdir hfits hnode hnotLink =>
      exact ⟨intoDir, by rw [Nat.zero_add, travel_enter hdir hfits hnode hnotLink _ _ _ hmore]⟩

theorem Moves.travel_eq_error (hmove : fs.Moves cost here steps there more) (hfew : links < cost)
    (intoDir : Bool) :
    fs.travel .use links intoDir here steps = .error .tooManyLinks := by
  cases hmove with
  | follow hdir hfits hlink =>
      rw [travel_link_use hdir hfits hlink, Nat.lt_one_iff.1 hfew]
      rfl
  | _ => contradiction

/-! ## Several steps -/

theorem Reaches.trans (hreaches : fs.Reaches used here steps next left)
    (hon : fs.Reaches uses next left there more) :
    fs.Reaches (used + uses) here steps there more := by
  induction hreaches with
  | here =>
      rw [Nat.zero_add]
      exact hon
  | move hmove _ ih =>
      rw [Nat.add_assoc]
      exact .move hmove (ih hon)

theorem Reaches.append (hreaches : fs.Reaches used here steps there more) (rest : List Step) :
    fs.Reaches used here (steps ++ rest) there (more ++ rest) := by
  induction hreaches with
  | here => exact .here
  | move hmove _ ih => exact .move (hmove.append rest) ih

theorem Reaches.ne_nil (hreaches : fs.Reaches used here steps there more) (hmore : more ≠ []) :
    steps ≠ [] := by
  cases hreaches with
  | here => exact hmore
  | move hmove => exact hmove.ne_nil

theorem Reaches.within (hwithin : fs.root.Within made.root)
    (hreaches : fs.Reaches used here steps there more) :
    made.Reaches used here steps there more := by
  induction hreaches with
  | here => exact .here
  | move hmove _ ih => exact .move (hmove.within hwithin) ih

theorem Reaches.exists_travel_eq (hreaches : fs.Reaches used here steps there more)
    (hmore : more ≠ []) (links : ℕ) (intoDir : Bool) :
    ∃ intoDir', fs.travel .use (used + links) intoDir here steps =
      fs.travel .use links intoDir' there more := by
  induction hreaches generalizing intoDir with
  | here => exact ⟨intoDir, by rw [Nat.zero_add]⟩
  | @move _ used _ _ _ _ _ _ hmove hrest ih =>
      obtain ⟨intoDir', hstep⟩ :=
        hmove.exists_travel_eq (hrest.ne_nil hmore) (used + links) intoDir
      rw [Nat.add_assoc, hstep]
      exact ih hmore intoDir'

theorem Reaches.travel_eq_error (hreaches : fs.Reaches used here steps there more)
    (hmore : more ≠ []) (hfew : links < used) (intoDir : Bool) :
    fs.travel .use links intoDir here steps = .error .tooManyLinks := by
  induction hreaches generalizing links intoDir with
  | here => exact absurd hfew (Nat.not_lt_zero links)
  | @move cost used _ _ _ _ _ _ hmove hrest ih =>
      by_cases hnone : links < cost
      · exact hmove.travel_eq_error hnone intoDir
      · obtain ⟨spare, rfl⟩ := Nat.exists_eq_add_of_le (Nat.le_of_not_lt hnone)
        obtain ⟨intoDir', hstep⟩ := hmove.exists_travel_eq (hrest.ne_nil hmore) spare intoDir
        rw [hstep]
        exact ih hmore (Nat.lt_of_add_lt_add_left hfew) intoDir'

/-! ## In a cycle -/

theorem CyclicLink.travel_eq_error (hcyclic : fs.CyclicLink here n) (links : ℕ) (intoDir : Bool)
    (rest : List Step) :
    fs.travel .use links intoDir here (.down n :: rest) = .error .tooManyLinks := by
  obtain ⟨used, more, hused, hround⟩ := hcyclic
  -- On the links that may still be followed; every round uses some of them up.
  induction links using Nat.strong_induction_on generalizing intoDir rest with
  | _ links ih =>
      have hagain := hround.append rest
      rw [List.singleton_append, List.cons_append] at hagain
      by_cases hfew : links < used
      · exact hagain.travel_eq_error (by simp) hfew intoDir
      · obtain ⟨spare, rfl⟩ := Nat.exists_eq_add_of_le (Nat.le_of_not_lt hfew)
        obtain ⟨intoDir', hon⟩ := hagain.exists_travel_eq (by simp) spare intoDir
        rw [hon]
        exact ih spare (by omega) intoDir' (more ++ rest)

theorem RunsIntoCycle.travel_eq_error (hcycle : fs.RunsIntoCycle p) (links : ℕ) (intoDir : Bool) :
    fs.travel .use links intoDir (fs.start p) (Route.ofPath p).steps = .error .tooManyLinks := by
  obtain ⟨used, here, n, more, hreaches, hcyclic⟩ := hcycle.meetsCycle
  by_cases hfew : links < used
  · exact hreaches.travel_eq_error (by simp) hfew intoDir
  · obtain ⟨spare, rfl⟩ := Nat.exists_eq_add_of_le (Nat.le_of_not_lt hfew)
    obtain ⟨intoDir', hon⟩ := hreaches.exists_travel_eq (by simp) spare intoDir
    rw [hon]
    exact hcyclic.travel_eq_error spare intoDir' more

theorem RunsIntoCycle.locate_eq (hcycle : fs.RunsIntoCycle p) :
    fs.locate .use p = .error .tooManyLinks := by
  unfold locate
  rw [resolve_eq_travel fs .use hcycle.usable, hcycle.travel_eq_error]

theorem RunsIntoCycle.stat_eq (hcycle : fs.RunsIntoCycle p) :
    fs.stat p = .error .tooManyLinks := by
  unfold stat lookUp
  rw [hcycle.locate_eq]
  rfl

theorem RunsIntoCycle.isDir_eq (hcycle : fs.RunsIntoCycle p) : fs.isDir p = false := by
  unfold isDir
  rw [hcycle.stat_eq]

theorem RunsIntoCycle.read_eq (hcycle : fs.RunsIntoCycle p) :
    fs.read p = .error .tooManyLinks := by
  unfold read
  rw [hcycle.stat_eq]

theorem MadeAt.runsIntoCycle {artifact : Location} (hmade : fs.MadeAt made artifact)
    (hcycle : fs.RunsIntoCycle p) :
    made.RunsIntoCycle p := by
  obtain ⟨used, here, n, more, hreaches, uses, again, huses, hround⟩ := hcycle.meetsCycle
  refine ⟨hcycle.usable, used, here, n, more, ?_, uses, again, huses, hround.within hmade.within⟩
  rw [hmade.start_eq]
  exact hreaches.within hmade.within

end TreePack.FileSystem
