import Mathlib.Tactic
import TreePack.FileSystem.Canonical
import TreePack.Proofs.Creation
import TreePack.Proofs.OwnPath

/-!
# When a path can be spelled out

Spelling a path out comes by the same entries as resolving it, in the same order.  It differs in how
it gets to see them: each by its own path from the root of the tree.  So where a path leads to a
place, its canonical path is the own path of that place, or there is none; and there is one exactly
if every entry that the path comes by can be looked up by its own path and, for a relative path, the
working directory still has a path of its own.

Like resolution, spelling depends on what is seen of a tree and on nothing else.  So a path that is
resolved outside some directories has the same canonical path in all trees that are alike outside of
them.
-/

namespace TreePack.FileSystem

/-- Taking these steps from a location, and following at most so many links, one comes by this
entry, which may be a link. -/
inductive Passes (fs : FileSystem) : ℕ → Location → List Step → Location → Prop
  | entry {links : ℕ} {here : Location} {n : Name} {rest : List Step} :
      fs.Searchable here → Passes fs links here (.down n :: rest) (here ++ [n])
  | stay {links : ℕ} {here entry : Location} {rest : List Step} :
      fs.Searchable here → Passes fs links here rest entry →
      Passes fs links here (.stay :: rest) entry
  | up {links : ℕ} {here entry : Location} {rest : List Step} :
      fs.Searchable here → Passes fs links here.dropLast rest entry →
      Passes fs links here (.up :: rest) entry
  | follow {links : ℕ} {here entry : Location} {n : Name} {target : Path} {rest : List Step} :
      fs.Searchable here → fs.node? (here ++ [n]) = some (.link target) →
      Passes fs links (if (Route.ofPath target).fromRoot then [] else here)
        ((Route.ofPath target).steps ++ rest) entry →
      Passes fs (links + 1) here (.down n :: rest) entry
  | enter {links : ℕ} {here entry : Location} {n : Name} {rest : List Step} :
      fs.Searchable here → Passes fs links (here ++ [n]) rest entry →
      Passes fs links here (.down n :: rest) entry

/-- The path starts at the root or in a working directory which still exists, and every entry that it
comes by can be looked up by its own path. -/
structure Retraceable (fs : FileSystem) (p : Path) : Prop where
  start : p.isAbsolute = true ∨ ∃ here, fs.workingPath = .ok here
  entries : ∀ entry, fs.Passes linkLimit (fs.start p) (Route.ofPath p).steps entry →
    fs.OpenWay entry

theorem Passes.searchable {fs : FileSystem} {links : ℕ} {here entry : Location} {steps : List Step}
    (hpasses : fs.Passes links here steps entry) : fs.Searchable here := by
  cases hpasses <;> assumption

theorem Searchable.isDir {fs : FileSystem} {here : Location} {node : Node}
    (hdir : fs.Searchable here) (hnode : fs.node? here = some node) : node.isDir = true := by
  obtain ⟨mode, entries, hfound, _⟩ := hdir
  rw [hnode] at hfound
  cases hfound
  rfl

theorem Passes.through_link {fs : FileSystem} {links : ℕ} {here entry : Location} {n : Name}
    {target : Path} {rest : List Step} (hlink : fs.node? (here ++ [n]) = some (.link target))
    (hpasses : fs.Passes (links + 1) here (.down n :: rest) entry) :
    entry = here ++ [n] ∨ fs.Passes links (if (Route.ofPath target).fromRoot then [] else here)
      ((Route.ofPath target).steps ++ rest) entry := by
  cases hpasses with
  | entry => exact .inl rfl
  | follow _ hlink' hrest =>
      rw [hlink] at hlink'
      cases hlink'
      exact .inr hrest
  | enter _ hrest =>
      have hdir := hrest.searchable.isDir hlink
      contradiction

theorem Passes.through_entry {fs : FileSystem} {links : ℕ} {here entry : Location} {n : Name}
    {node : Node} {rest : List Step} (hnode : fs.node? (here ++ [n]) = some node)
    (hnotLink : ∀ target, node ≠ .link target)
    (hpasses : fs.Passes links here (.down n :: rest) entry) :
    entry = here ++ [n] ∨ fs.Passes links (here ++ [n]) rest entry := by
  cases hpasses with
  | entry => exact .inl rfl
  | follow _ hlink _ =>
      rw [hnode] at hlink
      cases hlink
      exact absurd rfl (hnotLink _)
  | enter _ hrest => exact .inr hrest

/-! ## Single steps -/

section Steps

variable {fs : FileSystem} {here : Location} {n : Name} {node : Node}
  (links : ℕ) (intoDir : Bool) (rest : List Step)

theorem spellOut_nil : fs.spellOut links intoDir here [] = some here := by
  cases links <;> rfl

theorem spellOut_stay :
    fs.spellOut links intoDir here (.stay :: rest) = fs.spellOut links intoDir here rest := by
  cases links <;> rfl

theorem spellOut_up :
    fs.spellOut links intoDir here (.up :: rest) =
      fs.spellOut links intoDir here.dropLast rest := by
  cases links <;> rfl

theorem spellOut_of_unseen
    (hunseen : ∀ node, fs.linkStat (Path.ofLocation (here ++ [n])) ≠ .ok node) :
    fs.spellOut links intoDir here (.down n :: rest) = none := by
  cases hseen : fs.linkStat (Path.ofLocation (here ++ [n])) with
  | ok node => exact absurd hseen (hunseen node)
  | error e => cases links <;> simp [spellOut, spell, hseen]

theorem openWay_of_spellOut_down {links : ℕ} {intoDir : Bool} {rest : List Step}
    {spelled : Location} (hnode : fs.node? (here ++ [n]) = some node)
    (hspelled : fs.spellOut links intoDir here (.down n :: rest) = some spelled) :
    fs.OpenWay (here ++ [n]) ∧ fs.linkStat (Path.ofLocation (here ++ [n])) = .ok node := by
  by_contra hunseen
  rw [spellOut_of_unseen] at hspelled
  · contradiction
  · intro seen hseen
    obtain ⟨hway, rfl⟩ := (linkStat_ofLocation_iff (by simp) hnode).1 hseen
    exact hunseen ⟨hway, hseen⟩

theorem spellOut_follow {target : Path}
    (hseen : fs.linkStat (Path.ofLocation (here ++ [n])) = .ok (.link target)) :
    fs.spellOut (links + 1) intoDir here (.down n :: rest) =
      fs.spellOut links (if rest = [] then intoDir || (Route.ofPath target).intoDir else intoDir)
        (if (Route.ofPath target).fromRoot then [] else here)
        ((Route.ofPath target).steps ++ rest) := by
  simp [spellOut, spell, hseen]

theorem spellOut_enter (hseen : fs.linkStat (Path.ofLocation (here ++ [n])) = .ok node)
    (hnotLink : ∀ target, node ≠ .link target)
    (hinto : rest ≠ [] ∨ intoDir = true → node.isDir = true) :
    fs.spellOut links intoDir here (.down n :: rest) =
      fs.spellOut links intoDir (here ++ [n]) rest := by
  have hgoes : ¬((rest ≠ [] ∨ intoDir = true) ∧ node.isDir = false) := by
    rintro ⟨hmust, hnotDir⟩
    rw [hinto hmust] at hnotDir
    contradiction
  cases node with
  | link target => exact absurd rfl (hnotLink target)
  | _ => cases links <;> simp_all [spellOut, spell]

end Steps

/-! ## Along a journey -/

section Journey

variable {fs : FileSystem} {location : Location}

theorem Travels.searchable_of_ne_nil {purpose : Purpose} {links : ℕ} {intoDir : Bool}
    {here : Location} {steps : List Step} {place : Place}
    (htravels : Travels fs purpose links intoDir here steps place) (hsteps : steps ≠ []) :
    fs.Searchable here := by
  cases htravels with
  | arrive => contradiction
  | stay hdir => exact hdir
  | up hdir => exact hdir
  | miss hmay => exact hmay.searchable
  | keep _ hmay => exact hmay.searchable
  | follow _ hmay => exact hmay.searchable
  | enter hmay => exact hmay.searchable

/-- A journey that goes on from an entry, or has to end in a directory, finds one there. -/
theorem Travels.isDir_of_further {purpose : Purpose} {links : ℕ} {intoDir : Bool}
    {here : Location} {steps : List Step} {place : Place} {node : Node}
    (htravels : Travels fs purpose links intoDir here steps place)
    (hnode : fs.node? here = some node)
    (hinto : steps = [] → intoDir = true → node.isDir = true)
    (hmust : steps ≠ [] ∨ intoDir = true) : node.isDir = true := by
  by_cases hsteps : steps = []
  · exact hinto hsteps (hmust.resolve_left (by simp [hsteps]))
  · exact (htravels.searchable_of_ne_nil hsteps).isDir hnode

/-- Where all entries can be seen by their own paths, spelling ends where the journey does. -/
theorem Travels.spellOut_eq {links : ℕ} {intoDir : Bool} {here : Location} {steps : List Step}
    (htravels : Travels fs .use links intoDir here steps (.found location))
    (hopen : ∀ entry, fs.Passes links here steps entry → fs.OpenWay entry) :
    fs.spellOut links intoDir here steps = some location := by
  generalize hplace : Place.found location = place at htravels
  induction htravels with
  | arrive =>
      cases hplace
      exact spellOut_nil _ _
  | stay hdir _ ih =>
      rw [spellOut_stay]
      exact ih (fun entry hpasses => hopen entry (.stay hdir hpasses)) hplace
  | up hdir _ ih =>
      rw [spellOut_up]
      exact ih (fun entry hpasses => hopen entry (.up hdir hpasses)) hplace
  | miss => contradiction
  | keep hpurpose => contradiction
  | follow _ hmay hlink _ ih =>
      have hseen := (linkStat_ofLocation_iff (by simp) hlink).2
        ⟨hopen _ (.entry hmay.searchable), rfl⟩
      rw [spellOut_follow _ _ _ hseen]
      exact ih (fun entry hpasses => hopen entry (.follow hmay.searchable hlink hpasses)) hplace
  | enter hmay hnode hnotLink hinto hon ih =>
      have hseen := (linkStat_ofLocation_iff (by simp) hnode).2
        ⟨hopen _ (.entry hmay.searchable), rfl⟩
      rw [spellOut_enter _ _ _ hseen hnotLink (hon.isDir_of_further hnode hinto)]
      exact ih (fun entry hpasses => hopen entry (.enter hmay.searchable hpasses)) hplace

/-- If spelling comes to an end, all entries can be seen by their own paths. -/
theorem Travels.openWay_of_spellOut {links : ℕ} {intoDir : Bool} {here spelled : Location}
    {steps : List Step} (htravels : Travels fs .use links intoDir here steps (.found location))
    (hspelled : fs.spellOut links intoDir here steps = some spelled) {entry : Location}
    (hpasses : fs.Passes links here steps entry) :
    fs.OpenWay entry := by
  generalize hplace : Place.found location = place at htravels
  induction htravels with
  | arrive => cases hpasses
  | stay _ _ ih =>
      rw [spellOut_stay] at hspelled
      cases hpasses with
      | stay _ hrest => exact ih hspelled hrest hplace
  | up _ _ ih =>
      rw [spellOut_up] at hspelled
      cases hpasses with
      | up _ hrest => exact ih hspelled hrest hplace
  | miss => contradiction
  | keep hpurpose => contradiction
  | follow _ _ hlink _ ih =>
      obtain ⟨hway, hseen⟩ := openWay_of_spellOut_down hlink hspelled
      rw [spellOut_follow _ _ _ hseen] at hspelled
      rcases hpasses.through_link hlink with rfl | hrest
      · exact hway
      · exact ih hspelled hrest hplace
  | enter hmay hnode hnotLink hinto hon ih =>
      obtain ⟨hway, hseen⟩ := openWay_of_spellOut_down hnode hspelled
      rw [spellOut_enter _ _ _ hseen hnotLink (hon.isDir_of_further hnode hinto)] at hspelled
      rcases hpasses.through_entry hnode hnotLink with rfl | hrest
      · exact hway
      · exact ih hspelled hrest hplace

end Journey

/-! ## Canonical paths -/

section Canonical

variable {fs : FileSystem} {p : Path} {location : Location}

theorem exists_workingPath_iff :
    (∃ here, fs.workingPath = .ok here) ↔ (fs.node? fs.workingDir).any Node.isDir = true := by
  unfold workingPath
  cases fs.node? fs.workingDir with
  | none => simp
  | some node => cases node <;> simp [Node.isDir]

theorem spellingStart?_eq_some_iff {here : Location} :
    fs.spellingStart? p = some here ↔
      (p.isAbsolute = true ∨ ∃ path, fs.workingPath = .ok path) ∧ here = fs.start p := by
  unfold spellingStart? start
  cases habsolute : p.isAbsolute with
  | true => simp [Route.ofPath, habsolute, eq_comm]
  | false =>
      cases fs.workingPath <;> simp [Route.ofPath, habsolute, Except.toOption, eq_comm]

theorem canonical?_eq_some_iff_spellOut (husable : Usable p) {q : Path} :
    fs.canonical? p = some q ↔
      (p.isAbsolute = true ∨ ∃ path, fs.workingPath = .ok path) ∧
        ∃ spelled, fs.spellOut linkLimit (Route.ofPath p).intoDir (fs.start p)
          (Route.ofPath p).steps = some spelled ∧ Path.ofLocation spelled = q := by
  have hplain : ¬(p.bytes.contains 0 = true ∨ p.bytes = []) := by
    rw [husable.noNul]
    simp [husable.notEmpty]
  unfold canonical?
  rw [if_neg hplain, Option.map_eq_some_iff]
  simp only [Option.bind_eq_some_iff, spellingStart?_eq_some_iff]
  constructor
  · rintro ⟨spelled, ⟨here, ⟨hstart, rfl⟩, hends⟩, hq⟩
    exact ⟨hstart, spelled, hends, hq⟩
  · rintro ⟨hstart, spelled, hends, hq⟩
    exact ⟨spelled, ⟨_, ⟨hstart, rfl⟩, hends⟩, hq⟩

/-- Where a path leads to a place, its canonical path is the own path of that place, if there is
one; and there is one exactly if the path can be retraced. -/
theorem canonical?_eq_some_iff (hlocate : fs.locate .use p = .ok location) {q : Path} :
    fs.canonical? p = some q ↔ fs.Retraceable p ∧ q = Path.ofLocation location := by
  rw [locate_eq_ok_iff, resolve_eq_ok_iff] at hlocate
  obtain ⟨husable, htravels⟩ := hlocate
  rw [canonical?_eq_some_iff_spellOut husable]
  constructor
  · rintro ⟨hstart, spelled, hends, rfl⟩
    have hretraced : fs.Retraceable p := ⟨hstart, fun _ => htravels.openWay_of_spellOut hends⟩
    rw [htravels.spellOut_eq hretraced.entries] at hends
    cases hends
    exact ⟨hretraced, rfl⟩
  · rintro ⟨hretraced, rfl⟩
    exact ⟨hretraced.start, location, htravels.spellOut_eq hretraced.entries, rfl⟩

theorem canonical?_eq_none (hlocate : fs.locate .use p = .ok location)
    (hlost : ¬ fs.Retraceable p) :
    fs.canonical? p = none := by
  rw [Option.eq_none_iff_forall_ne_some]
  intro q hq
  exact hlost ((canonical?_eq_some_iff hlocate).1 hq).1

/-- Whether a path leads to a place and has a canonical path. -/
def showsCanonical (fs : FileSystem) (p : Path) : Bool :=
  (fs.locate .use p).toOption.isSome && (fs.canonical? p).isSome

theorem retraceable_of_showsCanonical (hcheck : fs.showsCanonical p = true) :
    fs.Retraceable p := by
  unfold showsCanonical at hcheck
  rw [Bool.and_eq_true, Option.isSome_iff_exists, Option.isSome_iff_exists] at hcheck
  obtain ⟨⟨location, hlocate⟩, q, hq⟩ := hcheck
  cases hresult : fs.locate .use p with
  | error e => simp [hresult, Except.toOption] at hlocate
  | ok found => exact ((canonical?_eq_some_iff hresult).1 hq).1

end Canonical

/-! ## Trees that look alike -/

section Sight

variable {fs other : FileSystem} (hsight : other.sight = fs.sight)
  (hdir : other.workingDir = fs.workingDir)

include hsight hdir

theorem outline_linkStat_of_sight (p : Path) :
    (other.linkStat p).map Node.outline = (fs.linkStat p).map Node.outline :=
  map_lookUp_congr (locate_congr hsight hdir .entry p) fun location _ => congrFun hsight location

theorem spell_congr (intoDir : Bool) (follow : Location → Path → List Step → Option Location)
    (here : Location) (steps : List Step) :
    other.spell intoDir follow here steps = fs.spell intoDir follow here steps := by
  induction steps generalizing here with
  | nil => rfl
  | cons step rest ih =>
      cases step with
      | stay => exact ih here
      | up => exact ih here.dropLast
      | down n =>
          have hseen := outline_linkStat_of_sight hsight hdir (Path.ofLocation (here ++ [n]))
          unfold spell
          cases hx : other.linkStat (Path.ofLocation (here ++ [n])) <;>
            cases hy : fs.linkStat (Path.ofLocation (here ++ [n])) <;>
            rw [hx, hy] at hseen <;> simp only [Except.map, Except.ok.injEq, reduceCtorEq] at hseen
          case ok.ok node node' =>
            have hisDir := Node.isDir_eq_of_outline_eq hseen
            cases node <;> cases node' <;> simp only [Node.outline, reduceCtorEq] at hseen
            case link.link =>
              cases hseen
              rfl
            all_goals simp only [ih, hisDir]

theorem spellOut_congr (links : ℕ) : other.spellOut links = fs.spellOut links := by
  induction links with
  | zero =>
      funext intoDir here steps
      exact spell_congr hsight hdir intoDir _ here steps
  | succ links ih =>
      funext intoDir here steps
      simp only [spellOut, ih]
      exact spell_congr hsight hdir intoDir _ here steps

theorem canonical?_congr (p : Path) : other.canonical? p = fs.canonical? p := by
  have hworking : (∃ here, other.workingPath = .ok here) ↔ ∃ here, fs.workingPath = .ok here := by
    rw [exists_workingPath_iff, exists_workingPath_iff, hdir,
      any_isDir_of_sight (congrFun hsight fs.workingDir)]
  have hstart : other.spellingStart? p = fs.spellingStart? p := by
    apply Option.ext
    intro here
    rw [spellingStart?_eq_some_iff, spellingStart?_eq_some_iff, hworking]
    unfold start
    rw [hdir]
  unfold canonical?
  rw [hstart, spellOut_congr hsight hdir]

end Sight

/-! ## Trees that are alike outside some directories -/

section Alike

variable {dirs : Set Location} {fs other : FileSystem} (halike : AlikeOutside dirs fs other)
  {location : Location}

include halike

theorem AlikeOutside.searchable_iff (houtside : Outside dirs location) :
    other.Searchable location ↔ fs.Searchable location :=
  ⟨searchable_of_sight (halike.sight houtside).symm, searchable_of_sight (halike.sight houtside)⟩

theorem AlikeOutside.link_iff (houtside : Outside dirs location) {target : Path} :
    other.node? location = some (.link target) ↔ fs.node? location = some (.link target) :=
  ⟨link_of_sight (halike.sight houtside).symm, link_of_sight (halike.sight houtside)⟩

theorem AlikeOutside.openWay_iff (houtside : Outside dirs location) :
    other.OpenWay location ↔ fs.OpenWay location := by
  have hsearch : ∀ before after, location = before ++ after →
      (other.Searchable before ↔ fs.Searchable before) := by
    rintro before after rfl
    apply halike.searchable_iff
    intro dir hdir hbelow
    exact houtside dir hdir (hbelow.trans (List.prefix_append before after))
  constructor
  · rintro ⟨husable, hopen, hfits⟩
    exact ⟨husable, fun before after hsplit hafter =>
      (hsearch before after hsplit).1 (hopen before after hsplit hafter), hfits⟩
  · rintro ⟨husable, hopen, hfits⟩
    exact ⟨husable, fun before after hsplit hafter =>
      (hsearch before after hsplit).2 (hopen before after hsplit hafter), hfits⟩

theorem AlikeOutside.outside_down {links : ℕ} {here : Location} {n : Name} {rest : List Step}
    (hdir : fs.Searchable here)
    (hcross : ∀ crossed, fs.Crosses links here (.down n :: rest) crossed → Outside dirs crossed) :
    Outside dirs (here ++ [n]) := by
  by_contra hinside
  exact hinside (hcross _ (halike.crosses_of_not_outside hdir (hcross here .here) hinside))

/-- A resolution that stays outside comes by the same entries in both trees, all of them
outside. -/
theorem AlikeOutside.passes {links : ℕ} {here entry : Location} {steps : List Step}
    (hcross : ∀ crossed, fs.Crosses links here steps crossed → Outside dirs crossed)
    (hpasses : fs.Passes links here steps entry) :
    other.Passes links here steps entry ∧ Outside dirs entry := by
  have hhere {links : ℕ} {here : Location} {steps : List Step} (hdir : fs.Searchable here)
      (hcross : ∀ crossed, fs.Crosses links here steps crossed → Outside dirs crossed) :
      other.Searchable here :=
    (halike.searchable_iff (hcross here .here)).2 hdir
  induction hpasses with
  | entry hdir => exact ⟨.entry (hhere hdir hcross), halike.outside_down hdir hcross⟩
  | stay hdir _ ih =>
      exact (ih fun crossed h => hcross crossed (.stay hdir h)).imp_left (.stay (hhere hdir hcross))
  | up hdir _ ih =>
      exact (ih fun crossed h => hcross crossed (.up hdir h)).imp_left (.up (hhere hdir hcross))
  | follow hdir hlink _ ih =>
      have hlink' := (halike.link_iff (halike.outside_down hdir hcross)).2 hlink
      exact (ih fun crossed h => hcross crossed (.follow hdir hlink h)).imp_left
        (.follow (hhere hdir hcross) hlink')
  | enter hdir hrest ih =>
      obtain ⟨mode, entries, hnode, _⟩ := hrest.searchable
      exact (ih fun crossed h => hcross crossed (.enter hdir hnode (by simp) h)).imp_left
        (.enter (hhere hdir hcross))

theorem AlikeOutside.passes_back {links : ℕ} {here entry : Location} {steps : List Step}
    (hcross : ∀ crossed, fs.Crosses links here steps crossed → Outside dirs crossed)
    (hpasses : other.Passes links here steps entry) :
    fs.Passes links here steps entry := by
  have hhere {links : ℕ} {here : Location} {steps : List Step} (hdir : other.Searchable here)
      (hcross : ∀ crossed, fs.Crosses links here steps crossed → Outside dirs crossed) :
      fs.Searchable here :=
    (halike.searchable_iff (hcross here .here)).1 hdir
  induction hpasses with
  | entry hdir => exact .entry (hhere hdir hcross)
  | stay hdir _ ih =>
      have hdir' := hhere hdir hcross
      exact .stay hdir' (ih fun crossed h => hcross crossed (.stay hdir' h))
  | up hdir _ ih =>
      have hdir' := hhere hdir hcross
      exact .up hdir' (ih fun crossed h => hcross crossed (.up hdir' h))
  | follow hdir hlink _ ih =>
      have hdir' := hhere hdir hcross
      have hlink' := (halike.link_iff (halike.outside_down hdir' hcross)).1 hlink
      exact .follow hdir' hlink' (ih fun crossed h => hcross crossed (.follow hdir' hlink' h))
  | enter hdir hrest ih =>
      have hdir' := hhere hdir hcross
      have hnext := (halike.searchable_iff (halike.outside_down hdir' hcross)).1 hrest.searchable
      obtain ⟨mode, entries, hnode, _⟩ := hnext
      exact .enter hdir' (ih fun crossed h => hcross crossed (.enter hdir' hnode (by simp) h))

theorem AlikeOutside.retraceable_iff {p : Path} (husable : Usable p)
    (hstays : fs.StaysOutside dirs p) :
    other.Retraceable p ↔ fs.Retraceable p := by
  have hstart : other.start p = fs.start p := by
    unfold start
    rw [halike.workingDir]
  have hcross := hstays husable
  have hstarts : (p.isAbsolute = true ∨ ∃ here, other.workingPath = .ok here) ↔
      (p.isAbsolute = true ∨ ∃ here, fs.workingPath = .ok here) := by
    cases habsolute : p.isAbsolute with
    | true => simp
    | false =>
        have houtside : Outside dirs fs.workingDir := by
          have hhere := hcross _ .here
          simpa [start, Route.ofPath, habsolute] using hhere
        rw [exists_workingPath_iff, exists_workingPath_iff, halike.workingDir,
          any_isDir_of_sight (halike.sight houtside)]
  constructor
  · rintro ⟨hset, hentries⟩
    refine ⟨hstarts.1 hset, fun entry hpasses => ?_⟩
    obtain ⟨hpasses', houtside⟩ := halike.passes hcross hpasses
    exact (halike.openWay_iff houtside).1 (hentries entry (hstart ▸ hpasses'))
  · rintro ⟨hset, hentries⟩
    refine ⟨hstarts.2 hset, fun entry hpasses => ?_⟩
    rw [hstart] at hpasses
    have hpasses' := halike.passes_back hcross hpasses
    have houtside := (halike.passes hcross hpasses').2
    exact (halike.openWay_iff houtside).2 (hentries entry hpasses')

theorem AlikeOutside.canonical_eq {p : Path} (hlocate : fs.locate .use p = .ok location)
    (hstays : fs.StaysOutside dirs p) :
    other.canonical? p = fs.canonical? p := by
  have hlocate' : other.locate .use p = .ok location :=
    (halike.locate_eq hstays .use).trans hlocate
  have hretraced := halike.retraceable_iff (usable_of_locate hlocate) hstays
  apply Option.ext
  intro q
  rw [canonical?_eq_some_iff hlocate, canonical?_eq_some_iff hlocate', hretraced]

end Alike

end TreePack.FileSystem
