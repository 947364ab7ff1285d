import Mathlib.Tactic
import TreePack.Proofs.Meeting
import TreePack.Proofs.Rendering

/-!
# The own path of a place

Every place in a tree has a path of its own, made of the names that lead to it from the root of the
tree.  There is no link on this path, so it leads to the place without any being followed, as long
as the directories on the way may be searched.  A file is read by any path that leads to it as it is
read by its own.
-/

namespace TreePack

theorem Path.ofLocation_eq_descend (location : Location) :
    ofLocation location = (Path.mk [Bytes.slash]).descend location := by
  by_cases hroot : location = []
  · rw [hroot]
    rfl
  · rw [descend_eq_join _ hroot, join, isAbsolute_ofTrail hroot]
    simp [ofLocation, ofTrail]

namespace FileSystem

/-- The names that lead to the place from the root of the tree can be followed: they are not too
long, taken one by one and together, and the directories on the way may be searched. -/
structure OpenWay (fs : FileSystem) (location : Location) : Prop where
  usable : Usable (Path.ofLocation location)
  searchable : ∀ before after, location = before ++ after → after ≠ [] → fs.Searchable before
  namesFit : ∀ n ∈ location, n.bytes.length ≤ nameLimit

variable {fs : FileSystem} {here location : Location} {trail : List Name} {node : Node}
  {purpose : Purpose} {links : ℕ} {intoDir : Bool}

/-- A link has nothing below it. -/
theorem eq_nil_of_link {before after : Location} {target : Path}
    (hnode : fs.node? (before ++ after) = some node)
    (hlink : fs.node? before = some (.link target)) : after = [] ∧ node = .link target := by
  rw [node?_append, hlink] at hnode
  cases after with
  | nil =>
      cases hnode
      exact ⟨rfl, rfl⟩
  | cons n after => simp [Node.get?, Node.entry?] at hnode

theorem travels_down (hpurpose : purpose ≠ .make) (hnode : fs.node? (here ++ trail) = some node)
    (hlast : purpose = .entry ∨ ∀ target, node ≠ .link target)
    (hsearch : ∀ before after, trail = before ++ after → after ≠ [] →
      fs.Searchable (here ++ before))
    (hfit : ∀ n ∈ trail, n.bytes.length ≤ nameLimit) (links : ℕ)
    (hinto : trail ≠ [] → intoDir = false) :
    Travels fs purpose links intoDir here (trail.map Step.down) (.found (here ++ trail)) := by
  induction trail generalizing here with
  | nil =>
      rw [List.append_nil]
      exact .arrive
  | cons n trail ih =>
      have hmay : fs.MayDescend purpose intoDir here n (trail.map Step.down) := by
        have hdir := hsearch [] (n :: trail) rfl (by simp)
        rw [List.append_nil] at hdir
        exact ⟨hdir, by simp [hpurpose], hfit n List.mem_cons_self⟩
      have hclosed : intoDir = false := hinto (by simp)
      rw [List.append_cons] at hnode
      have hsome : ∃ child, fs.node? (here ++ [n]) = some child := by
        rw [node?_append] at hnode
        obtain ⟨child, hchild, _⟩ := Option.bind_eq_some_iff.1 hnode
        exact ⟨child, hchild⟩
      obtain ⟨child, hchild⟩ := hsome
      by_cases hlink : ∃ target, child = .link target
      · obtain ⟨target, rfl⟩ := hlink
        obtain ⟨rfl, rfl⟩ := eq_nil_of_link hnode hchild
        subst hclosed
        rcases hlast with hentry | hnotLink
        · exact .keep hentry hmay hchild
        · exact absurd rfl (hnotLink target)
      · have hnotLink : ∀ target, child ≠ .link target := fun target heq => hlink ⟨target, heq⟩
        rw [List.append_cons]
        apply Travels.enter hmay hchild hnotLink
        · intro _ hopen
          rw [hclosed] at hopen
          contradiction
        · apply ih hnode _ (fun m hm => hfit m (List.mem_cons_of_mem n hm)) fun _ => hclosed
          intro before after hsplit hafter
          rw [← List.append_cons]
          exact hsearch (n :: before) after (by rw [hsplit, List.cons_append]) hafter

/-- A journey down to a node that is there can only end at it, and passes through directories that
may be searched. -/
theorem Travels.down_inv {stop : Location} (hnode : fs.node? (here ++ trail) = some node)
    (htravels : Travels fs .entry links false here (trail.map Step.down) (.found stop)) :
    stop = here ++ trail ∧
      (∀ before after, trail = before ++ after → after ≠ [] → fs.Searchable (here ++ before)) ∧
      ∀ n ∈ trail, n.bytes.length ≤ nameLimit := by
  induction trail generalizing here with
  | nil =>
      cases htravels
      refine ⟨by rw [List.append_nil], ?_, by simp⟩
      intro before after hsplit hafter
      exact absurd (List.append_eq_nil_iff.1 hsplit.symm).2 hafter
  | cons n trail ih =>
      -- The way splits before `n`, or behind it and there by induction.
      have hsplits : fs.Searchable here → (∀ before after, trail = before ++ after → after ≠ [] →
          fs.Searchable (here ++ [n] ++ before)) →
          ∀ before after, n :: trail = before ++ after → after ≠ [] →
            fs.Searchable (here ++ before) := by
        intro hdir hlater before after hsplit hafter
        cases before with
        | nil => simpa using hdir
        | cons m before =>
            obtain ⟨rfl, hbelow⟩ := List.cons.inj hsplit
            rw [List.append_cons]
            exact hlater before after hbelow hafter
      rw [List.append_cons] at hnode ⊢
      rw [List.map_cons] at htravels
      generalize hrest : trail.map Step.down = rest at htravels
      cases htravels with
      | keep _ hmay _ =>
          obtain rfl := List.map_eq_nil_iff.1 hrest
          refine ⟨(List.append_nil _).symm, hsplits hmay.searchable ?_, by simpa using hmay.nameFits⟩
          intro before after hsplit hafter
          exact absurd (List.append_eq_nil_iff.1 hsplit.symm).2 hafter
      | follow hpass _ hlink _ =>
          obtain ⟨rfl, -⟩ := eq_nil_of_link hnode hlink
          exact absurd ⟨hrest.symm, rfl, rfl⟩ hpass
      | enter hmay _ _ _ hon =>
          subst hrest
          obtain ⟨hstop, hsearch, hfits⟩ := ih hnode hon
          refine ⟨hstop, hsplits hmay.searchable hsearch, ?_⟩
          intro m hm
          rcases List.mem_cons.1 hm with rfl | hm
          · exact hmay.nameFits
          · exact hfits m hm

/-! ## The way along the own path -/

theorem start_ofLocation (fs : FileSystem) (location : Location) :
    fs.start (Path.ofLocation location) = [] := by
  rw [Path.ofLocation_eq_descend, start_descend fs (by simp)]
  rfl

theorem steps_ofLocation (location : Location) :
    (Route.ofPath (Path.ofLocation location)).steps = location.map Step.down := by
  rw [Path.ofLocation_eq_descend, (Route.ofPath_descend (by simp) location).2]
  rfl

theorem intoDir_ofLocation (hne : location ≠ []) :
    (Route.ofPath (Path.ofLocation location)).intoDir = false := by
  rw [Path.ofLocation_eq_descend]
  exact Route.intoDir_descend (by simp) hne

/-- The own path of a place leads there, and not through a link. -/
theorem OpenWay.travels (hway : fs.OpenWay location) (hpurpose : purpose ≠ .make)
    (hnode : fs.node? location = some node)
    (hlast : purpose = .entry ∨ ∀ target, node ≠ .link target) (links : ℕ) :
    Travels fs purpose links (Route.ofPath (Path.ofLocation location)).intoDir
      (fs.start (Path.ofLocation location)) (Route.ofPath (Path.ofLocation location)).steps
      (.found location) := by
  rw [steps_ofLocation, start_ofLocation]
  exact travels_down hpurpose hnode hlast hway.searchable hway.namesFit links intoDir_ofLocation

theorem OpenWay.locate_eq (hway : fs.OpenWay location) (hnode : fs.node? location = some node)
    (hnotLink : ∀ target, node ≠ .link target) :
    fs.locate .use (Path.ofLocation location) = .ok location := by
  rw [locate_eq_ok_iff, resolve_eq_ok_iff]
  exact ⟨hway.usable, hway.travels (by simp) hnode (.inr hnotLink) linkLimit⟩

/-- An entry is seen by its own path exactly if the way to it is open. -/
theorem linkStat_ofLocation_iff (hne : location ≠ []) (hnode : fs.node? location = some node)
    {seen : Node} :
    fs.linkStat (Path.ofLocation location) = .ok seen ↔ fs.OpenWay location ∧ seen = node := by
  rw [linkStat_eq_ok_iff]
  simp only [locate_eq_ok_iff, resolve_eq_ok_iff]
  constructor
  · rintro ⟨stop, ⟨husable, htravels⟩, hseen⟩
    rw [steps_ofLocation, start_ofLocation, intoDir_ofLocation hne] at htravels
    have hbelow : fs.node? ([] ++ location) = some node := hnode
    obtain ⟨hstop, hsearch, hfits⟩ := Travels.down_inv hbelow htravels
    rw [hstop, hbelow] at hseen
    exact ⟨⟨husable, hsearch, hfits⟩, (Option.some.inj hseen).symm⟩
  · rintro ⟨hway, rfl⟩
    exact ⟨location, ⟨hway.usable, hway.travels (by simp) hnode (.inl rfl) linkLimit⟩, hnode⟩

/-! ## Reading a file -/

theorem readCandidate_of_file {c : Candidate} {mode : Mode} {data : Bytes}
    (hlocate : fs.locate .use c.path = .ok location)
    (hfile : fs.node? location = some (.file mode data)) (hread : mode.mayRead = true) :
    fs.readCandidate c = PackedFile.ofBytes c.display data := by
  have hstat : fs.stat c.path = .ok (.file mode data) :=
    (stat_eq_ok_iff fs c.path _).2 ⟨location, hlocate, hfile⟩
  simp [readCandidate, read, hstat, hread]

end FileSystem

end TreePack
