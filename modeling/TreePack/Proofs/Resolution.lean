import Mathlib.Tactic
import TreePack.FileSystem.Access
import TreePack.Proofs.TreeUpdate

/-!
# What the resolution of a path depends on

Resolution sees of a tree only the outlines of its nodes, `FileSystem.sight`, so two trees in which
every location shows the same outline resolve every path alike, errors included.

A resolution that succeeds is a journey: the relation `Travels` has one rule for each thing that a
step can do, and it holds exactly of the places that `travel` finds.  Facts about paths that lead
somewhere are inductions over journeys.  A journey to a vacant place arrives once a file has been
made there; a journey that follows every link either is also one that leaves a last link alone or
passes through such a link; and a journey can be continued through real directories.
-/

namespace TreePack.FileSystem

/-! ## Trees that look alike -/

/-- What the resolution of paths sees at a location. -/
def sight (fs : FileSystem) (location : Location) : Option Node :=
  (fs.node? location).map Node.outline

theorem advance_cons (fs : FileSystem) (purpose : Purpose) (intoDir : Bool)
    (follow : Location → Path → List Step → Except IoError Place)
    (here : Location) (step : Step) (rest : List Step) :
    fs.advance purpose intoDir follow here (step :: rest) =
      match fs.sight here with
      | none => .error .notFound
      | some (.dir mode _) =>
          if !mode.maySearch then .error .accessDenied
          else match step with
            | .stay => fs.advance purpose intoDir follow here rest
            | .up => fs.advance purpose intoDir follow here.dropLast rest
            | .down n =>
                if rest = [] ∧ intoDir ∧ purpose = .make then .error .isADirectory
                else if nameLimit < n.bytes.length then .error .nameTooLong
                else match fs.sight (here ++ [n]) with
                  | none => if rest = [] then .ok (.vacant here n) else .error .notFound
                  | some (.link target) =>
                      if rest = [] ∧ !intoDir ∧ purpose = .entry then
                        .ok (.found (here ++ [n]))
                      else follow here target rest
                  | some node =>
                      if rest = [] ∧ intoDir ∧ !node.isDir then .error .notADirectory
                      else fs.advance purpose intoDir follow (here ++ [n]) rest
      | some _ => .error .notADirectory := by
  cases hnode : fs.node? here with
  | none => simp [advance, sight, hnode]
  | some node =>
      cases node with
      | dir mode entries =>
          cases step with
          | stay => simp [advance, sight, hnode, Node.outline]
          | up => simp [advance, sight, hnode, Node.outline]
          | down n =>
              have hentry := node?_entry hnode n
              cases hlookup : entries.lookup n with
              | none =>
                  rw [hlookup] at hentry
                  simp [advance, sight, hnode, hlookup, hentry, Node.outline]
              | some child =>
                  rw [hlookup] at hentry
                  cases child <;>
                    simp [advance, sight, hnode, hlookup, hentry, Node.outline, Node.isDir]
      | file mode data => simp [advance, sight, hnode, Node.outline]
      | link target => simp [advance, sight, hnode, Node.outline]
      | fifo mode => simp [advance, sight, hnode, Node.outline]
      | device kind => simp [advance, sight, hnode, Node.outline]

theorem advance_congr {fs other : FileSystem} (hsight : fs.sight = other.sight)
    (purpose : Purpose) (intoDir : Bool)
    (follow : Location → Path → List Step → Except IoError Place)
    (here : Location) (steps : List Step) :
    fs.advance purpose intoDir follow here steps =
      other.advance purpose intoDir follow here steps := by
  induction steps generalizing here with
  | nil => rfl
  | cons step rest ih =>
      rw [advance_cons, advance_cons, hsight]
      simp only [ih]

def onLink (fs : FileSystem) (purpose : Purpose) :
    ℕ → Bool → Location → Path → List Step → Except IoError Place
  | 0, _, _, _, _ => .error .tooManyLinks
  | links + 1, intoDir, here, target, rest =>
      let route := Route.ofPath target
      fs.travel purpose links (if rest = [] then intoDir || route.intoDir else intoDir)
        (if route.fromRoot then [] else here) (route.steps ++ rest)

theorem travel_eq_advance (fs : FileSystem) (purpose : Purpose) (links : ℕ) (intoDir : Bool) :
    fs.travel purpose links intoDir =
      fs.advance purpose intoDir (fs.onLink purpose links intoDir) := by
  cases links <;> rfl

theorem travel_congr {fs other : FileSystem} (hsight : fs.sight = other.sight)
    (purpose : Purpose) (links : ℕ) :
    fs.travel purpose links = other.travel purpose links := by
  induction links with
  | zero =>
      funext intoDir here steps
      exact advance_congr hsight purpose intoDir _ here steps
  | succ links ih =>
      funext intoDir here steps
      simp only [travel, ih]
      exact advance_congr hsight purpose intoDir _ here steps

theorem resolve_congr {fs other : FileSystem} (hsight : fs.sight = other.sight)
    (hdir : fs.workingDir = other.workingDir) (purpose : Purpose) (p : Path) :
    fs.resolve purpose p = other.resolve purpose p := by
  unfold resolve
  rw [travel_congr hsight purpose linkLimit, hdir]

theorem locate_congr {fs other : FileSystem} (hsight : fs.sight = other.sight)
    (hdir : fs.workingDir = other.workingDir) (purpose : Purpose) (p : Path) :
    fs.locate purpose p = other.locate purpose p := by
  unfold locate
  rw [resolve_congr hsight hdir purpose p]

theorem sight_update (fs : FileSystem) {f : Node → Node} (hf : Node.RewritesFiles f)
    (location : Location) (hwf : ∀ node, node.WellFormed → (f node).WellFormed) :
    (fs.update location f hwf).sight = fs.sight := by
  funext other
  exact Node.outline_get?_update hf location other fs.root

theorem sight_setData (fs : FileSystem) (location : Location) (data : Bytes) :
    (fs.setData location data).sight = fs.sight :=
  sight_update fs (Node.rewritesFiles_setData data) location _

theorem resolve_setData (fs : FileSystem) (location : Location) (data : Bytes)
    (purpose : Purpose) (p : Path) :
    (fs.setData location data).resolve purpose p = fs.resolve purpose p :=
  resolve_congr (sight_setData fs location data) rfl purpose p

theorem locate_setData (fs : FileSystem) (location : Location) (data : Bytes)
    (purpose : Purpose) (p : Path) :
    (fs.setData location data).locate purpose p = fs.locate purpose p :=
  locate_congr (sight_setData fs location data) rfl purpose p

/-! ## Journeys -/

def Searchable (fs : FileSystem) (here : Location) : Prop :=
  ∃ mode entries, fs.node? here = some (.dir mode entries) ∧ mode.maySearch = true

def maySearchAt (fs : FileSystem) (here : Location) : Bool :=
  match fs.node? here with
  | some (.dir mode _) => mode.maySearch
  | _ => false

theorem maySearchAt_iff (fs : FileSystem) (here : Location) :
    fs.maySearchAt here = true ↔ fs.Searchable here := by
  constructor
  · intro hmay
    unfold maySearchAt at hmay
    split at hmay
    next mode entries hdir => exact ⟨mode, entries, hdir, hmay⟩
    next => exact absurd hmay Bool.false_ne_true
  · rintro ⟨mode, entries, hdir, hmay⟩
    rw [maySearchAt, hdir]
    exact hmay

instance (fs : FileSystem) (here : Location) : Decidable (fs.Searchable here) :=
  decidable_of_iff _ (fs.maySearchAt_iff here)

/-- The step down to `n` with the steps `rest` after it is one that may be tried from `here`. -/
structure MayDescend (fs : FileSystem) (purpose : Purpose) (intoDir : Bool) (here : Location)
    (n : Name) (rest : List Step) : Prop where
  searchable : fs.Searchable here
  notDirToMake : ¬(rest = [] ∧ intoDir = true ∧ purpose = .make)
  nameFits : n.bytes.length ≤ nameLimit

/-- The steps lead from a location to a place by following at most so many links. -/
inductive Travels (fs : FileSystem) (purpose : Purpose) :
    ℕ → Bool → Location → List Step → Place → Prop
  | arrive {links : ℕ} {intoDir : Bool} {here : Location} :
      Travels fs purpose links intoDir here [] (.found here)
  | stay {links : ℕ} {intoDir : Bool} {here : Location} {rest : List Step} {place : Place} :
      fs.Searchable here → Travels fs purpose links intoDir here rest place →
      Travels fs purpose links intoDir here (.stay :: rest) place
  | up {links : ℕ} {intoDir : Bool} {here : Location} {rest : List Step} {place : Place} :
      fs.Searchable here → Travels fs purpose links intoDir here.dropLast rest place →
      Travels fs purpose links intoDir here (.up :: rest) place
  | miss {links : ℕ} {intoDir : Bool} {here : Location} {n : Name} :
      fs.MayDescend purpose intoDir here n [] → fs.node? (here ++ [n]) = none →
      Travels fs purpose links intoDir here [.down n] (.vacant here n)
  | keep {links : ℕ} {here : Location} {n : Name} {target : Path} :
      purpose = .entry → fs.MayDescend purpose false here n [] →
      fs.node? (here ++ [n]) = some (.link target) →
      Travels fs purpose links false here [.down n] (.found (here ++ [n]))
  | follow {links : ℕ} {intoDir : Bool} {here : Location} {n : Name} {target : Path}
      {rest : List Step} {place : Place} :
      ¬(rest = [] ∧ intoDir = false ∧ purpose = .entry) →
      fs.MayDescend purpose intoDir here n rest →
      fs.node? (here ++ [n]) = some (.link target) →
      Travels fs purpose links
        (if rest = [] then intoDir || (Route.ofPath target).intoDir else intoDir)
        (if (Route.ofPath target).fromRoot then [] else here)
        ((Route.ofPath target).steps ++ rest) place →
      Travels fs purpose (links + 1) intoDir here (.down n :: rest) place
  | enter {links : ℕ} {intoDir : Bool} {here : Location} {n : Name} {node : Node}
      {rest : List Step} {place : Place} :
      fs.MayDescend purpose intoDir here n rest →
      fs.node? (here ++ [n]) = some node → (∀ target, node ≠ .link target) →
      (rest = [] → intoDir = true → node.isDir = true) →
      Travels fs purpose links intoDir (here ++ [n]) rest place →
      Travels fs purpose links intoDir here (.down n :: rest) place

/-- No journey leads on from what cannot be searched. -/
theorem Travels.eq_of_not_searchable {fs : FileSystem} {purpose : Purpose} {links : ℕ}
    {intoDir : Bool} {here : Location} {steps : List Step} {place : Place}
    (htravels : Travels fs purpose links intoDir here steps place)
    (hstuck : ¬ fs.Searchable here) : place = .found here := by
  cases htravels with
  | arrive => rfl
  | stay hdir => exact absurd hdir hstuck
  | up hdir => exact absurd hdir hstuck
  | miss hmay => exact absurd hmay.searchable hstuck
  | keep _ hmay => exact absurd hmay.searchable hstuck
  | follow _ hmay => exact absurd hmay.searchable hstuck
  | enter hmay => exact absurd hmay.searchable hstuck

theorem searchable_of_advance {fs : FileSystem} {purpose : Purpose} {intoDir : Bool}
    {follow : Location → Path → List Step → Except IoError Place}
    {here : Location} {step : Step} {rest : List Step} {place : Place}
    (hplace : fs.advance purpose intoDir follow here (step :: rest) = .ok place) :
    fs.Searchable here := by
  cases hnode : fs.node? here with
  | none => simp [advance, hnode] at hplace
  | some node =>
      cases node with
      | dir mode entries =>
          cases hsearch : mode.maySearch with
          | false => simp [advance, hnode, hsearch] at hplace
          | true => exact ⟨mode, entries, hnode, hsearch⟩
      | file mode data => simp [advance, hnode] at hplace
      | link target => simp [advance, hnode] at hplace
      | fifo mode => simp [advance, hnode] at hplace
      | device kind => simp [advance, hnode] at hplace

theorem advance_of_not_searchable {fs : FileSystem} {here : Location} (hstuck : ¬ fs.Searchable here)
    (purpose : Purpose) (intoDir : Bool)
    (follow : Location → Path → List Step → Except IoError Place) (step : Step)
    (rest : List Step) :
    fs.advance purpose intoDir follow here (step :: rest) =
      .error (match (fs.node? here).map Node.isDir with
        | none => .notFound
        | some true => .accessDenied
        | some false => .notADirectory) := by
  unfold advance
  cases hnode : fs.node? here with
  | none => rfl
  | some node =>
      cases node with
      | dir mode entries =>
          have hsearch : mode.maySearch = false := by
            by_contra hsearch
            exact hstuck ⟨mode, entries, hnode, by simpa using hsearch⟩
          simp [hsearch, Node.isDir]
      | _ => rfl

section FromDirectory

variable {fs : FileSystem} {here : Location} (hdir : fs.Searchable here)
  (purpose : Purpose) (intoDir : Bool)
  (follow : Location → Path → List Step → Except IoError Place) (rest : List Step)

include hdir

theorem advance_stay :
    fs.advance purpose intoDir follow here (.stay :: rest) =
      fs.advance purpose intoDir follow here rest := by
  rcases hdir with ⟨mode, entries, hnode, hsearch⟩
  simp [advance, hnode, hsearch]

theorem advance_up :
    fs.advance purpose intoDir follow here (.up :: rest) =
      fs.advance purpose intoDir follow here.dropLast rest := by
  rcases hdir with ⟨mode, entries, hnode, hsearch⟩
  simp [advance, hnode, hsearch]

theorem advance_down (n : Name) :
    fs.advance purpose intoDir follow here (.down n :: rest) =
      if rest = [] ∧ intoDir = true ∧ purpose = .make then .error .isADirectory
      else if nameLimit < n.bytes.length then .error .nameTooLong
      else match fs.node? (here ++ [n]) with
        | none => if rest = [] then .ok (.vacant here n) else .error .notFound
        | some (.link target) =>
            if rest = [] ∧ intoDir = false ∧ purpose = .entry then .ok (.found (here ++ [n]))
            else follow here target rest
        | some node =>
            if rest = [] ∧ intoDir = true ∧ node.isDir = false then .error .notADirectory
            else fs.advance purpose intoDir follow (here ++ [n]) rest := by
  rcases hdir with ⟨mode, entries, hnode, hsearch⟩
  rw [node?_entry hnode n]
  simp only [advance, hnode, hsearch]
  cases entries.lookup n with
  | none => simp
  | some child => cases child <;> simp

end FromDirectory

theorem travels_of_advance {fs : FileSystem} {purpose : Purpose} {links : ℕ} {intoDir : Bool}
    {follow : Location → Path → List Step → Except IoError Place}
    (hfollow : ∀ {here : Location} {n : Name} {target : Path} {rest : List Step} {place : Place},
      ¬(rest = [] ∧ intoDir = false ∧ purpose = .entry) →
      fs.MayDescend purpose intoDir here n rest →
      fs.node? (here ++ [n]) = some (.link target) →
      follow here target rest = .ok place →
      Travels fs purpose links intoDir here (.down n :: rest) place)
    {here : Location} {steps : List Step} {place : Place}
    (hplace : fs.advance purpose intoDir follow here steps = .ok place) :
    Travels fs purpose links intoDir here steps place := by
  induction steps generalizing here with
  | nil =>
      simp only [advance, Except.ok.injEq] at hplace
      subst place
      exact .arrive
  | cons step rest ih =>
      have hdir : fs.Searchable here := searchable_of_advance hplace
      cases step with
      | stay =>
          rw [advance_stay hdir] at hplace
          exact .stay hdir (ih hplace)
      | up =>
          rw [advance_up hdir] at hplace
          exact .up hdir (ih hplace)
      | down n =>
          rw [advance_down hdir] at hplace
          split at hplace
          next => contradiction
          next hmake =>
            split at hplace
            next => contradiction
            next hlong =>
              have hmay : fs.MayDescend purpose intoDir here n rest :=
                ⟨hdir, hmake, Nat.le_of_not_lt hlong⟩
              split at hplace
              next hnone =>
                split at hplace
                next hrest =>
                  subst rest
                  cases hplace
                  exact .miss hmay hnone
                next => contradiction
              next target hlink =>
                split at hplace
                next hkeep =>
                  rcases hkeep with ⟨hrest, hinto, hpurpose⟩
                  subst rest intoDir
                  cases hplace
                  exact .keep hpurpose hmay hlink
                next hkeep => exact hfollow hkeep hmay hlink hplace
              next node hnotLink hnode =>
                split at hplace
                next => contradiction
                next hinto =>
                  have hdir : rest = [] → intoDir = true → node.isDir = true := by
                    intro hrest hintoDir
                    by_contra hfile
                    exact hinto ⟨hrest, hintoDir, by simpa using hfile⟩
                  exact .enter hmay hnode hnotLink hdir (ih hplace)

theorem travels_of_travel {fs : FileSystem} {purpose : Purpose} {links : ℕ} {intoDir : Bool}
    {here : Location} {steps : List Step} {place : Place}
    (hplace : fs.travel purpose links intoDir here steps = .ok place) :
    Travels fs purpose links intoDir here steps place := by
  -- On the links that may still be followed; the steps between two of them are `advance`.
  induction links generalizing intoDir here steps place with
  | zero =>
      rw [travel_eq_advance] at hplace
      apply travels_of_advance _ hplace
      intro _ _ _ _ _ _ _ _ herror
      contradiction
  | succ links ih =>
      rw [travel_eq_advance] at hplace
      apply travels_of_advance _ hplace
      intro here n target rest place hkeep hmay hlink hfollow
      exact .follow hkeep hmay hlink (ih hfollow)

theorem travel_of_travels {fs : FileSystem} {purpose : Purpose} {links : ℕ} {intoDir : Bool}
    {here : Location} {steps : List Step} {place : Place}
    (htravels : Travels fs purpose links intoDir here steps place) :
    fs.travel purpose links intoDir here steps = .ok place := by
  induction htravels with
  | arrive =>
      rw [travel_eq_advance]
      rfl
  | stay hdir _ ih =>
      rw [travel_eq_advance] at ih ⊢
      rw [advance_stay hdir, ih]
  | up hdir _ ih =>
      rw [travel_eq_advance] at ih ⊢
      rw [advance_up hdir, ih]
  | miss hmay hnone =>
      rw [travel_eq_advance, advance_down hmay.searchable, if_neg hmay.notDirToMake,
        if_neg (Nat.not_lt_of_le hmay.nameFits), hnone]
      rfl
  | keep hpurpose hmay hlink =>
      rw [travel_eq_advance, advance_down hmay.searchable, if_neg hmay.notDirToMake,
        if_neg (Nat.not_lt_of_le hmay.nameFits), hlink]
      exact if_pos ⟨rfl, rfl, hpurpose⟩
  | follow hkeep hmay hlink _ ih =>
      rw [travel_eq_advance, advance_down hmay.searchable, if_neg hmay.notDirToMake,
        if_neg (Nat.not_lt_of_le hmay.nameFits), hlink]
      exact (if_neg hkeep).trans ih
  | @enter links intoDir here n node rest place hmay hnode hnotLink hinto _ ih =>
      have hfits : ¬(rest = [] ∧ intoDir = true ∧ node.isDir = false) := by
        rintro ⟨hrest, hintoDir, hnotDir⟩
        rw [hinto hrest hintoDir] at hnotDir
        contradiction
      rw [travel_eq_advance] at ih ⊢
      rw [advance_down hmay.searchable, if_neg hmay.notDirToMake,
        if_neg (Nat.not_lt_of_le hmay.nameFits), hnode]
      cases node with
      | link target => exact absurd rfl (hnotLink target)
      | _ => exact (if_neg hfits).trans ih

def start (fs : FileSystem) (p : Path) : Location :=
  if (Route.ofPath p).fromRoot then [] else fs.workingDir

structure Usable (p : Path) : Prop where
  noNul : p.bytes.contains 0 = false
  notEmpty : p.bytes ≠ []
  short : p.bytes.length ≤ pathLimit

theorem resolve_eq_travel (fs : FileSystem) (purpose : Purpose) {p : Path} (husable : Usable p) :
    fs.resolve purpose p = fs.travel purpose linkLimit (Route.ofPath p).intoDir (fs.start p)
      (Route.ofPath p).steps := by
  unfold resolve
  rw [if_neg (by simpa using husable.noNul), if_neg husable.notEmpty,
    if_neg (Nat.not_lt_of_le husable.short)]
  rfl

theorem resolve_eq_ok_iff (fs : FileSystem) (purpose : Purpose) (p : Path) (place : Place) :
    fs.resolve purpose p = .ok place ↔
      Usable p ∧ Travels fs purpose linkLimit (Route.ofPath p).intoDir (fs.start p)
        (Route.ofPath p).steps place := by
  constructor
  · intro hplace
    unfold resolve at hplace
    split at hplace
    next => contradiction
    next hnul =>
      split at hplace
      next => contradiction
      next hempty =>
        split at hplace
        next => contradiction
        next hlong =>
          exact ⟨⟨by simpa using hnul, hempty, Nat.le_of_not_lt hlong⟩,
            travels_of_travel hplace⟩
  · rintro ⟨husable, htravels⟩
    rw [resolve_eq_travel fs purpose husable]
    exact travel_of_travels htravels

theorem locate_eq_ok_iff (fs : FileSystem) (purpose : Purpose) (p : Path) (location : Location) :
    fs.locate purpose p = .ok location ↔ fs.resolve purpose p = .ok (.found location) := by
  unfold locate
  cases fs.resolve purpose p with
  | error e => simp
  | ok place => cases place <;> simp

theorem usable_of_locate {fs : FileSystem} {purpose : Purpose} {p : Path} {location : Location}
    (hlocate : fs.locate purpose p = .ok location) :
    Usable p := by
  rw [locate_eq_ok_iff, resolve_eq_ok_iff] at hlocate
  exact hlocate.1

/-! ## Journeys to a vacant place -/

theorem Travels.vacant {fs : FileSystem} {purpose : Purpose} {links : ℕ} {intoDir : Bool}
    {here dir : Location} {steps : List Step} {n : Name}
    (htravels : Travels fs purpose links intoDir here steps (.vacant dir n)) :
    fs.Searchable dir ∧ fs.node? (dir ++ [n]) = none := by
  generalize hplace : Place.vacant dir n = place at htravels
  induction htravels with
  | arrive => contradiction
  | stay _ _ ih => exact ih hplace
  | up _ _ ih => exact ih hplace
  | miss hmay hnone =>
      cases hplace
      exact ⟨hmay.searchable, hnone⟩
  | keep => contradiction
  | follow _ _ _ _ ih => exact ih hplace
  | enter _ _ _ _ _ ih => exact ih hplace

section Within

variable {fs made : FileSystem} (hwithin : fs.root.Within made.root)

include hwithin

theorem Searchable.within {here : Location} (hdir : fs.Searchable here) :
    made.Searchable here := by
  rcases hdir with ⟨mode, entries, hnode, hsearch⟩
  rcases hwithin here _ hnode with ⟨node, hmade, houtline⟩
  cases node <;> simp only [Node.outline, Node.dir.injEq, reduceCtorEq] at houtline
  case dir mode' entries' =>
    rw [houtline.1] at hmade
    exact ⟨mode, entries', hmade, hsearch⟩

theorem MayDescend.within {purpose : Purpose} {intoDir : Bool} {here : Location} {n : Name}
    {rest : List Step} (hmay : fs.MayDescend purpose intoDir here n rest) :
    made.MayDescend purpose intoDir here n rest :=
  ⟨hmay.searchable.within hwithin, hmay.notDirToMake, hmay.nameFits⟩

/-- A journey to a vacant place arrives once a file has been made there. -/
theorem Travels.arrive_made {dir : Location} {n : Name} {child : Node}
    (hchild : made.node? (dir ++ [n]) = some child) (hfile : child.isFile = true)
    {links : ℕ} {intoDir : Bool} {here : Location} {steps : List Step}
    (htravels : Travels fs .make links intoDir here steps (.vacant dir n)) :
    Travels made .make links intoDir here steps (.found (dir ++ [n])) := by
  generalize hplace : Place.vacant dir n = place at htravels
  induction htravels with
  | arrive => contradiction
  | stay hdir _ ih => exact .stay (hdir.within hwithin) (ih hplace)
  | up hdir _ ih => exact .up (hdir.within hwithin) (ih hplace)
  | miss hmay _ =>
      cases hplace
      apply Travels.enter (hmay.within hwithin) hchild _ _ .arrive
      · intro target hlink
        subst child
        simp [Node.isFile] at hfile
      · intro _ hinto
        exact absurd ⟨rfl, hinto, rfl⟩ hmay.notDirToMake
  | keep => contradiction
  | follow hkeep hmay hlink _ ih =>
      rcases hwithin _ _ hlink with ⟨node, hmade, houtline⟩
      cases node <;> simp only [Node.outline, Node.link.injEq, reduceCtorEq] at houtline
      case link target =>
        subst target
        exact .follow hkeep (hmay.within hwithin) hmade (ih hplace)
  | enter hmay hnode hnotLink hinto _ ih =>
      rcases hwithin _ _ hnode with ⟨node, hmade, houtline⟩
      apply Travels.enter (hmay.within hwithin) hmade _ _ (ih hplace)
      · intro target hlink
        subst node
        exact hnotLink target (Node.eq_link_of_outline_eq houtline.symm)
      · intro hrest hintoDir
        rw [Node.isDir_eq_of_outline_eq houtline]
        exact hinto hrest hintoDir

end Within

/-! ## Journeys that leave a last link alone -/

/-- A step that may be tried for some purpose may be tried for any other, except to make a file. -/
theorem MayDescend.for_purpose {fs : FileSystem} {purpose other : Purpose} {intoDir : Bool}
    {here : Location} {n : Name} {rest : List Step}
    (hmay : fs.MayDescend purpose intoDir here n rest) (hother : other ≠ .make) :
    fs.MayDescend other intoDir here n rest :=
  ⟨hmay.searchable, by simp [hother], hmay.nameFits⟩

/-- Where a journey arrives that follows every link, one that leaves a last link alone arrives too,
unless it stops at such a link. -/
theorem Travels.entry_of_use {fs : FileSystem} {links : ℕ} {intoDir : Bool} {here location : Location}
    {steps : List Step}
    (htravels : Travels fs .use links intoDir here steps (.found location)) :
    ∃ stop, Travels fs .entry links intoDir here steps (.found stop) ∧
      (stop = location ∨ ∃ target, fs.node? stop = some (.link target)) := by
  generalize hplace : Place.found location = place at htravels
  induction htravels with
  | arrive =>
      cases hplace
      exact ⟨location, .arrive, .inl rfl⟩
  | stay hdir _ ih =>
      rcases ih hplace with ⟨stop, hstop, hwhere⟩
      exact ⟨stop, .stay hdir hstop, hwhere⟩
  | up hdir _ ih =>
      rcases ih hplace with ⟨stop, hstop, hwhere⟩
      exact ⟨stop, .up hdir hstop, hwhere⟩
  | miss => contradiction
  | keep hpurpose => contradiction
  | @follow links intoDir here n target rest place _ hmay hlink _ ih =>
      by_cases hlast : rest = [] ∧ intoDir = false
      · rcases hlast with ⟨hrest, hinto⟩
        subst rest intoDir
        exact ⟨here ++ [n], .keep rfl (hmay.for_purpose (by simp)) hlink, .inr ⟨target, hlink⟩⟩
      · rcases ih hplace with ⟨stop, hstop, hwhere⟩
        have hpasses : ¬(rest = [] ∧ intoDir = false ∧ Purpose.entry = .entry) := by
          intro hkeep
          exact hlast ⟨hkeep.1, hkeep.2.1⟩
        exact ⟨stop, .follow hpasses (hmay.for_purpose (by simp)) hlink hstop, hwhere⟩
  | enter hmay hnode hnotLink hinto _ ih =>
      rcases ih hplace with ⟨stop, hstop, hwhere⟩
      exact ⟨stop, .enter (hmay.for_purpose (by simp)) hnode hnotLink hinto hstop, hwhere⟩

/-! ## Journeys to make a file -/

theorem Travels.use_of_make {fs : FileSystem} {links : ℕ} {intoDir : Bool} {here : Location}
    {steps : List Step} {place : Place}
    (htravels : Travels fs .make links intoDir here steps place) :
    Travels fs .use links intoDir here steps place := by
  induction htravels with
  | arrive => exact .arrive
  | stay hdir _ ih => exact .stay hdir ih
  | up hdir _ ih => exact .up hdir ih
  | miss hmay hnone => exact .miss (hmay.for_purpose (by simp)) hnone
  | keep hpurpose => contradiction
  | follow _ hmay hlink _ ih => exact .follow (by simp) (hmay.for_purpose (by simp)) hlink ih
  | enter hmay hnode hnotLink hinto _ ih =>
      exact .enter (hmay.for_purpose (by simp)) hnode hnotLink hinto ih

theorem locate_use_of_make {fs : FileSystem} {p : Path} {location : Location}
    (hmake : fs.resolve .make p = .ok (.found location)) :
    fs.locate .use p = .ok location := by
  rw [resolve_eq_ok_iff] at hmake
  rw [locate_eq_ok_iff, resolve_eq_ok_iff]
  exact ⟨hmake.1, hmake.2.use_of_make⟩

/-! ## Journeys that go on -/

theorem travel_stay {fs : FileSystem} {here : Location} (hdir : fs.Searchable here)
    (purpose : Purpose) (links : ℕ) (intoDir : Bool) (rest : List Step) :
    fs.travel purpose links intoDir here (.stay :: rest) =
      fs.travel purpose links intoDir here rest := by
  rw [travel_eq_advance, advance_stay hdir]

theorem travel_up {fs : FileSystem} {here : Location} (hdir : fs.Searchable here)
    (purpose : Purpose) (links : ℕ) (intoDir : Bool) (rest : List Step) :
    fs.travel purpose links intoDir here (.up :: rest) =
      fs.travel purpose links intoDir here.dropLast rest := by
  rw [travel_eq_advance, advance_up hdir]

theorem travel_follow {fs : FileSystem} {here : Location} {n : Name} {target : Path}
    (hdir : fs.Searchable here) (hfits : n.bytes.length ≤ nameLimit)
    (hlink : fs.node? (here ++ [n]) = some (.link target)) (purpose : Purpose) (links : ℕ)
    (intoDir : Bool) {rest : List Step} (hrest : rest ≠ []) :
    fs.travel purpose (links + 1) intoDir here (.down n :: rest) =
      fs.travel purpose links intoDir (if (Route.ofPath target).fromRoot then [] else here)
        ((Route.ofPath target).steps ++ rest) := by
  rw [travel_eq_advance, advance_down hdir, if_neg (by simp [hrest]),
    if_neg (Nat.not_lt_of_le hfits), hlink]
  simp [hrest, onLink]

theorem travel_enter {fs : FileSystem} {here : Location} {n : Name} {node : Node}
    (hdir : fs.Searchable here) (hfits : n.bytes.length ≤ nameLimit)
    (hnode : fs.node? (here ++ [n]) = some node) (hnotLink : ∀ target, node ≠ .link target)
    (purpose : Purpose) (links : ℕ) (intoDir : Bool) {rest : List Step} (hrest : rest ≠ []) :
    fs.travel purpose links intoDir here (.down n :: rest) =
      fs.travel purpose links intoDir (here ++ [n]) rest := by
  rw [travel_eq_advance, advance_down hdir, if_neg (by simp [hrest]),
    if_neg (Nat.not_lt_of_le hfits), hnode]
  cases node with
  | link target => exact absurd rfl (hnotLink target)
  | _ => simp [hrest]

/-- Steps added behind a journey that has arrived are taken from where it arrived, with the links
that it has left over. -/
theorem Travels.travel_append {fs : FileSystem} {links : ℕ} {intoDir : Bool}
    {here location : Location} {steps : List Step}
    (htravels : Travels fs .use links intoDir here steps (.found location)) :
    ∃ spare, ∀ (purpose : Purpose) (extra : ℕ) (intoDir' : Bool) (more : List Step), more ≠ [] →
      fs.travel purpose (links + extra) intoDir' here (steps ++ more) =
        fs.travel purpose (spare + extra) intoDir' location more := by
  generalize hplace : Place.found location = place at htravels
  induction htravels with
  | @arrive links =>
      cases hplace
      exact ⟨links, fun _ _ _ _ _ => rfl⟩
  | stay hdir _ ih =>
      obtain ⟨spare, hon⟩ := ih hplace
      refine ⟨spare, fun purpose extra intoDir' more hmore => ?_⟩
      rw [List.cons_append, travel_stay hdir]
      exact hon purpose extra intoDir' more hmore
  | up hdir _ ih =>
      obtain ⟨spare, hon⟩ := ih hplace
      refine ⟨spare, fun purpose extra intoDir' more hmore => ?_⟩
      rw [List.cons_append, travel_up hdir]
      exact hon purpose extra intoDir' more hmore
  | miss => contradiction
  | keep hpurpose => contradiction
  | follow _ hmay hlink _ ih =>
      obtain ⟨spare, hon⟩ := ih hplace
      refine ⟨spare, fun purpose extra intoDir' more hmore => ?_⟩
      rw [List.cons_append, Nat.add_right_comm,
        travel_follow hmay.searchable hmay.nameFits hlink _ _ _ (by simp [hmore]),
        ← List.append_assoc]
      exact hon purpose extra intoDir' more hmore
  | enter hmay hnode hnotLink _ _ ih =>
      obtain ⟨spare, hon⟩ := ih hplace
      refine ⟨spare, fun purpose extra intoDir' more hmore => ?_⟩
      rw [List.cons_append,
        travel_enter hmay.searchable hmay.nameFits hnode hnotLink _ _ _ (by simp [hmore])]
      exact hon purpose extra intoDir' more hmore

theorem Travels.go_on {fs : FileSystem} {links : ℕ} {intoDir : Bool} {here location : Location}
    {steps : List Step}
    (htravels : Travels fs .use links intoDir here steps (.found location))
    {more : List Step} (hmore : more ≠ []) {intoDir' : Bool} {place : Place}
    (hon : Travels fs .use links intoDir' here (steps ++ more) place) :
    ∃ links', Travels fs .use links' intoDir' location more place := by
  obtain ⟨spare, hspare⟩ := htravels.travel_append
  have hrest := (hspare .use 0 intoDir' more hmore).symm.trans (travel_of_travels hon)
  exact ⟨_, travels_of_travel hrest⟩

/-! ## More links -/

theorem advance_eq_of_follow {fs : FileSystem} {purpose : Purpose} {intoDir : Bool}
    {follow follow' : Location → Path → List Step → Except IoError Place}
    (hfollow : ∀ here target rest, follow here target rest ≠ .error .tooManyLinks →
      follow' here target rest = follow here target rest)
    {here : Location} {steps : List Step}
    (hfew : fs.advance purpose intoDir follow here steps ≠ .error .tooManyLinks) :
    fs.advance purpose intoDir follow' here steps = fs.advance purpose intoDir follow here steps := by
  induction steps generalizing here with
  | nil => rfl
  | cons step rest ih =>
      by_cases hdir : fs.Searchable here
      · cases step with
        | stay =>
            rw [advance_stay hdir] at hfew ⊢
            rw [advance_stay hdir]
            exact ih hfew
        | up =>
            rw [advance_up hdir] at hfew ⊢
            rw [advance_up hdir]
            exact ih hfew
        | down n =>
            rw [advance_down hdir] at hfew ⊢
            rw [advance_down hdir]
            split
            next => rfl
            next hmake =>
              rw [if_neg hmake] at hfew
              split
              next => rfl
              next hfits =>
                rw [if_neg hfits] at hfew
                cases hnode : fs.node? (here ++ [n]) with
                | none => rfl
                | some node =>
                    simp only [hnode] at hfew ⊢
                    cases node with
                    | link target =>
                        simp only at hfew ⊢
                        split
                        next => rfl
                        next hkeep =>
                          rw [if_neg hkeep] at hfew
                          exact hfollow _ _ _ hfew
                    | _ =>
                        simp only at hfew ⊢
                        split
                        next => rfl
                        next hinto =>
                          rw [if_neg hinto] at hfew
                          exact ih hfew
      · rw [advance_of_not_searchable hdir, advance_of_not_searchable hdir]

/-- A resolution that has not run out of links has the same result with more of them. -/
theorem travel_add_links {fs : FileSystem} {purpose : Purpose} {links : ℕ} {intoDir : Bool}
    {here : Location} {steps : List Step}
    (hfew : fs.travel purpose links intoDir here steps ≠ .error .tooManyLinks) (extra : ℕ) :
    fs.travel purpose (links + extra) intoDir here steps =
      fs.travel purpose links intoDir here steps := by
  induction links generalizing intoDir here steps with
  | zero =>
      rw [travel_eq_advance] at hfew ⊢
      rw [travel_eq_advance]
      apply advance_eq_of_follow _ hfew
      intro here target rest hfollow
      exact absurd rfl hfollow
  | succ links ih =>
      rw [travel_eq_advance] at hfew
      rw [Nat.add_right_comm, travel_eq_advance, travel_eq_advance]
      apply advance_eq_of_follow _ hfew
      intro here target rest hfollow
      exact ih hfollow

end TreePack.FileSystem
