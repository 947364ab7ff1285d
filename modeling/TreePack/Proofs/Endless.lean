import Mathlib.Data.Set.Card
import Mathlib.Tactic
import TreePack.Proofs.LinkCycle

/-!
# Resolutions without end

A cycle of links is the only reason for which a resolution needs more links than may be followed,
whatever their number.  For a tree has finitely many links.  While a link is being resolved, it does
not come up again unless it is cyclic; so links are resolved within one another only to a limited
depth, and each of them is done after finitely many steps, after which the steps behind it are taken
from some other place.
-/

namespace TreePack

/-! ## A tree is finite -/

theorem Node.WellFormed.finite_locations {node : Node} (hwf : node.WellFormed) :
    {location | node.get? location ≠ none}.Finite := by
  have hleaf : ∀ leaf : Node, (∀ n, leaf.entry? n = none) →
      {location | leaf.get? location ≠ none}.Finite := by
    intro leaf hnone
    apply (Set.finite_singleton ([] : Location)).subset
    intro location hlocation
    cases location with
    | nil => rfl
    | cons n rest => simp [Node.get?, hnone] at hlocation
  induction hwf with
  | dir mode entries _ _ ih =>
      have hbelow : (⋃ e ∈ {e | e ∈ entries},
          (e.1 :: ·) '' {location | e.2.get? location ≠ none}).Finite :=
        (List.finite_toSet entries).biUnion fun e he => (ih e he).image _
      apply (hbelow.insert []).subset
      intro location hlocation
      cases location with
      | nil => exact Set.mem_insert _ _
      | cons n rest =>
          rw [Set.mem_ofPred_eq, Node.get?, ne_eq, Option.bind_eq_none_iff] at hlocation
          push Not at hlocation
          obtain ⟨child, hchild, hrest⟩ := hlocation
          obtain ⟨before, after, hentries, -⟩ := List.lookup_eq_some_iff.1 hchild
          refine Set.mem_insert_of_mem _ (Set.mem_biUnion (x := (n, child)) ?_ ⟨rest, hrest, rfl⟩)
          rw [Set.mem_ofPred_eq, hentries]
          simp
  | _ => exact hleaf _ fun _ => rfl

namespace FileSystem

variable {fs : FileSystem} {cost used uses links : ℕ} {here next there : Location}
  {steps left more rest : List Step} {n : Name} {p : Path}

def linkPlaces (fs : FileSystem) : Set Location :=
  {location | ∃ target, fs.node? location = some (.link target)}

theorem finite_linkPlaces (fs : FileSystem) : fs.linkPlaces.Finite := by
  apply fs.wellFormed.finite_locations.subset
  rintro location ⟨target, hlink⟩
  have hsome : fs.root.get? location = some (.link target) := hlink
  simp [hsome]

/-! ## Resolutions that end -/

/-- However many links may be followed, there is an end to the steps from this location. -/
inductive Ends (fs : FileSystem) : Location → List Step → Prop
  | intro {here : Location} {steps : List Step} :
      (∀ cost next left, fs.Moves cost here steps next left → Ends fs next left) →
      Ends fs here steps

theorem Moves.unique {cost' : ℕ} {next' : Location} {left' : List Step}
    (hmove : fs.Moves cost here steps next left) (hother : fs.Moves cost' here steps next' left') :
    cost' = cost ∧ next' = next ∧ left' = left := by
  cases hmove with
  | stay =>
      cases hother
      exact ⟨rfl, rfl, rfl⟩
  | up =>
      cases hother
      exact ⟨rfl, rfl, rfl⟩
  | follow _ _ hlink =>
      cases hother with
      | follow _ _ hlink' =>
          rw [hlink] at hlink'
          cases hlink'
          exact ⟨rfl, rfl, rfl⟩
      | enter _ _ hnode hnotLink =>
          rw [hlink] at hnode
          cases hnode
          exact absurd rfl (hnotLink _)
  | enter _ _ hnode hnotLink =>
      cases hother with
      | follow _ _ hlink =>
          rw [hnode] at hlink
          cases hlink
          exact absurd rfl (hnotLink _)
      | enter => exact ⟨rfl, rfl, rfl⟩

/-- What a step of longer steps leaves are the steps that were added. -/
theorem Moves.exists_left {step : Step}
    (hmove : fs.Moves cost here (step :: steps ++ rest) next left) :
    ∃ more, left = more ++ rest ∧ fs.Moves cost here (step :: steps) next more := by
  rw [List.cons_append] at hmove
  generalize hwhole : steps ++ rest = whole at hmove
  cases hmove with
  | stay hdir => exact ⟨steps, hwhole.symm, .stay hdir⟩
  | up hdir => exact ⟨steps, hwhole.symm, .up hdir⟩
  | follow hdir hfits hlink =>
      exact ⟨_, by rw [List.append_assoc, hwhole], .follow hdir hfits hlink⟩
  | enter hdir hfits hnode hnotLink =>
      exact ⟨steps, hwhole.symm, .enter hdir hfits hnode hnotLink⟩

theorem Ends.append (hends : fs.Ends here steps)
    (hrest : ∀ used there, fs.Reaches used here (steps ++ rest) there rest → fs.Ends there rest) :
    fs.Ends here (steps ++ rest) := by
  induction hends with
  | @intro here steps _ ih =>
      cases steps with
      | nil => exact hrest 0 here .here
      | cons step steps =>
          apply Ends.intro
          intro cost next left hmove
          obtain ⟨more, rfl, hfirst⟩ := hmove.exists_left
          apply ih cost next more hfirst
          intro used there hreaches
          exact hrest (cost + used) there (.move hmove hreaches)

/-- A resolution that lacks links can make a step, and lacks a link for it or lacks links after
it. -/
theorem exists_move_of_travel {intoDir : Bool}
    (hfew : fs.travel .use links intoDir here steps = .error .tooManyLinks) :
    ∃ cost next left, fs.Moves cost here steps next left ∧ ∀ spare, links = cost + spare →
      ∃ intoDir', fs.travel .use spare intoDir' next left = .error .tooManyLinks := by
  cases steps with
  | nil =>
      rw [travel_eq_advance] at hfew
      contradiction
  | cons step rest =>
      by_cases hdir : fs.Searchable here
      · cases step with
        | stay =>
            rw [travel_stay hdir] at hfew
            exact ⟨0, here, rest, .stay hdir, fun spare hspare => ⟨intoDir, by simp_all⟩⟩
        | up =>
            rw [travel_up hdir] at hfew
            exact ⟨0, here.dropLast, rest, .up hdir, fun spare hspare => ⟨intoDir, by simp_all⟩⟩
        | down n =>
            rw [travel_eq_advance, advance_down hdir, if_neg (by simp)] at hfew
            split at hfew
            next => contradiction
            next hlong =>
              have hfits : n.bytes.length ≤ nameLimit := Nat.le_of_not_lt hlong
              split at hfew
              next => split at hfew <;> contradiction
              next target hlink =>
                refine ⟨1, _, _, .follow hdir hfits hlink, ?_⟩
                rintro spare rfl
                rw [if_neg (by simp), Nat.add_comm] at hfew
                exact ⟨_, hfew⟩
              next node hnotLink hnode =>
                split at hfew
                next => contradiction
                next =>
                  refine ⟨0, _, _, .enter hdir hfits hnode hnotLink, ?_⟩
                  rintro spare rfl
                  rw [← travel_eq_advance, Nat.zero_add] at hfew
                  exact ⟨intoDir, hfew⟩
      · rw [travel_eq_advance, advance_of_not_searchable hdir] at hfew
        split at hfew <;> contradiction

theorem Ends.exists_travel_ne (hends : fs.Ends here steps) :
    ∃ links, ∀ intoDir, fs.travel .use links intoDir here steps ≠ .error .tooManyLinks := by
  induction hends with
  | @intro here steps _ ih =>
      by_cases hmoves : ∃ cost next left, fs.Moves cost here steps next left
      · obtain ⟨cost, next, left, hmove⟩ := hmoves
        obtain ⟨links, hlinks⟩ := ih cost next left hmove
        refine ⟨cost + links, ?_⟩
        intro intoDir hfew
        obtain ⟨cost', next', left', hother, hlater⟩ := exists_move_of_travel hfew
        obtain ⟨rfl, rfl, rfl⟩ := hmove.unique hother
        obtain ⟨intoDir', hfewLater⟩ := hlater links rfl
        exact hlinks intoDir' hfewLater
      · refine ⟨0, ?_⟩
        intro intoDir hfew
        obtain ⟨cost, next, left, hmove, -⟩ := exists_move_of_travel hfew
        exact hmoves ⟨cost, next, left, hmove⟩

/-! ## Without a cycle -/

/-- On the way there is no cyclic link, and none of the links that are being resolved already. -/
def Avoids (fs : FileSystem) (busy : Set Location) (here : Location) (steps : List Step) : Prop :=
  ∀ used there n more, fs.Reaches used here steps there (.down n :: more) →
    ¬ fs.CyclicLink there n ∧ there ++ [n] ∉ busy

theorem Avoids.after {busy : Set Location} (havoids : fs.Avoids busy here steps)
    (hreaches : fs.Reaches used here steps next left) :
    fs.Avoids busy next left := by
  intro uses there n more hlater
  exact havoids _ there n more (hreaches.trans hlater)

/-- The steps of a link avoid the link itself, unless it is cyclic. -/
theorem Avoids.within_link {busy : Set Location} (havoids : fs.Avoids busy here (.down n :: rest))
    (hlink : ∀ rest, fs.Moves 1 here (.down n :: rest) next (steps ++ rest)) :
    fs.Avoids (busy ∪ {here ++ [n]}) next steps := by
  intro used there m more hreaches
  obtain ⟨hnotCyclic, hfree⟩ :=
    havoids (1 + used) there m _ (.move (hlink rest) (hreaches.append rest))
  refine ⟨hnotCyclic, ?_⟩
  rintro (hbusy | hsame)
  · exact hfree hbusy
  · obtain ⟨rfl, hname⟩ := List.append_inj' hsame rfl
    cases hname
    have hround := hreaches.append []
    rw [List.cons_append] at hround
    exact hnotCyclic ⟨1 + used, more ++ [], by omega, .move (hlink []) hround⟩

theorem ncard_linkPlaces_lt {busy : Set Location} {location : Location}
    (hlink : location ∈ fs.linkPlaces) (hfree : location ∉ busy) :
    (fs.linkPlaces \ (busy ∪ {location})).ncard < (fs.linkPlaces \ busy).ncard := by
  apply Set.ncard_lt_ncard _ (fs.finite_linkPlaces.subset Set.sdiff_subset)
  rw [Set.ssubset_iff_of_subset (Set.sdiff_subset_sdiff_right Set.subset_union_left)]
  exact ⟨location, ⟨hlink, hfree⟩, fun hmem => hmem.2 (.inr rfl)⟩

theorem ends_of_avoids {busy : Set Location} (havoids : fs.Avoids busy here steps) :
    fs.Ends here steps := by
  -- On the links that are not being resolved, and within one of them on the steps.
  generalize hfree : (fs.linkPlaces \ busy).ncard = free
  induction free using Nat.strong_induction_on generalizing busy here steps with
  | _ free ih =>
      induction steps generalizing here with
      | nil =>
          apply Ends.intro
          intro cost next left hmove
          exact absurd rfl hmove.ne_nil
      | cons step rest ihSteps =>
          apply Ends.intro
          intro cost next left hmove
          have hlater := havoids.after (.move hmove .here)
          cases hmove with
          | stay => exact ihSteps hlater
          | up => exact ihSteps hlater
          | enter => exact ihSteps hlater
          | @follow _ n target _ hdir hfits hlink =>
              have hidle : here ++ [n] ∉ busy := (havoids 0 here n rest .here).2
              have hinside := havoids.within_link fun _ => .follow hdir hfits hlink
              have hfewer := ncard_linkPlaces_lt ⟨target, hlink⟩ hidle
              apply (ih _ (hfree ▸ hfewer) hinside rfl).append
              intro used there hreaches
              exact ihSteps (hlater.after hreaches)

/-- A path runs into a cycle exactly if no number of links is enough to resolve it. -/
theorem runsIntoCycle_iff (husable : Usable p) :
    fs.RunsIntoCycle p ↔ ∀ links, fs.travel .use links (Route.ofPath p).intoDir (fs.start p)
      (Route.ofPath p).steps = .error .tooManyLinks := by
  constructor
  · intro hcycle links
    exact hcycle.travel_eq_error links _
  · intro hendless
    by_contra hnone
    have havoids : fs.Avoids ∅ (fs.start p) (Route.ofPath p).steps := by
      intro used there n more hreaches
      refine ⟨?_, Set.notMem_empty _⟩
      intro hcyclic
      exact hnone ⟨husable, used, there, n, more, hreaches, hcyclic⟩
    obtain ⟨links, hlinks⟩ := (ends_of_avoids havoids).exists_travel_ne
    exact hlinks _ (hendless links)

end FileSystem

end TreePack
