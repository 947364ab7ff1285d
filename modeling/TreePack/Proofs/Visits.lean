import Mathlib.Tactic
import TreePack.Proofs.Access
import TreePack.Survey

/-!
# The visits of a survey

The visits at and below a node are told apart by their trails.  This file says which trails occur,
in which order, and on what they depend.

A visit has the empty trail, or its trail begins with the name of an entry and goes on as the trail
of a visit below that entry.  So membership is decided along the trail, one name at a time, and no
induction over the tree is needed for it.  The trails come in strictly increasing lexicographic
order, hence each of them once; this is an induction over the tree.  Neither the trails nor the
verdicts depend on what is in the files.
-/

namespace TreePack

/-! ## The order of trails -/

def Name.Before (n m : Name) : Prop := n.bytes < m.bytes

theorem Name.before_irrefl (n : Name) : ¬ n.Before n :=
  List.lt_irrefl n.bytes

theorem Name.Before.trans {n m k : Name} (hnm : n.Before m) (hmk : m.Before k) :
    n.Before k :=
  List.lt_trans hnm hmk

theorem Name.before_of_le_of_ne {n m : Name} (hle : n.bytes ≤ m.bytes) (hne : n ≠ m) :
    n.Before m := by
  apply Std.lt_of_le_of_ne hle
  intro hbytes
  apply hne
  cases n
  cases m
  simp_all

/-- A trail comes before another if it ends first or has the smaller name where they part. -/
def TrailBefore (trail other : List Name) : Prop :=
  List.Lex Name.Before trail other

theorem trailBefore_irrefl (trail : List Name) : ¬ TrailBefore trail trail :=
  List.lex_irrefl Name.before_irrefl trail

theorem insertGroup_perm (group : Name × List Visit) (groups : List (Name × List Visit)) :
    (insertGroup group groups).Perm (group :: groups) := by
  fun_induction insertGroup group groups with
  | case1 => rfl
  | case2 => rfl
  | case3 first rest hle ih => exact (ih.cons first).trans (List.Perm.swap group first rest)

theorem foldr_insertGroup_perm (groups : List (Name × List Visit)) :
    (groups.foldr insertGroup []).Perm groups := by
  induction groups with
  | nil => rfl
  | cons group groups ih =>
      exact (insertGroup_perm group _).trans (ih.cons group)

theorem insertGroup_pairwise {group : Name × List Visit} {groups : List (Name × List Visit)}
    (hnew : ∀ other ∈ groups, group.1 ≠ other.1)
    (hsorted : groups.Pairwise fun a b => a.1.Before b.1) :
    (insertGroup group groups).Pairwise fun a b => a.1.Before b.1 := by
  induction groups with
  | nil => simp [insertGroup]
  | cons first rest ih =>
      have hne : group.1 ≠ first.1 := hnew first (by simp)
      obtain ⟨hfirst, hrest⟩ := List.pairwise_cons.1 hsorted
      unfold insertGroup
      by_cases hle : group.1.bytes ≤ first.1.bytes
      · rw [if_pos hle, List.pairwise_cons]
        apply And.intro _ hsorted
        intro other hother
        have hbefore : group.1.Before first.1 := Name.before_of_le_of_ne hle hne
        rcases List.mem_cons.1 hother with rfl | hother
        · exact hbefore
        · exact hbefore.trans (hfirst other hother)
      · rw [if_neg hle, List.pairwise_cons]
        have hlater := ih (fun other hother => hnew other (by simp [hother])) hrest
        apply And.intro _ hlater
        intro other hother
        rcases List.mem_cons.1 ((insertGroup_perm group rest).mem_iff.1 hother) with rfl | hother
        · exact List.not_le.1 hle
        · exact hfirst other hother

theorem foldr_insertGroup_pairwise {groups : List (Name × List Visit)}
    (hnames : (groups.map Prod.fst).Nodup) :
    (groups.foldr insertGroup []).Pairwise fun a b => a.1.Before b.1 := by
  induction groups with
  | nil => simp
  | cons group groups ih =>
      simp only [List.map_cons, List.nodup_cons] at hnames
      apply insertGroup_pairwise _ (ih hnames.2)
      intro other hother heq
      have hmem : other ∈ groups := (foldr_insertGroup_perm groups).mem_iff.1 hother
      exact hnames.1 (heq ▸ List.mem_map_of_mem hmem)

theorem mem_inNameOrder (groups : List (Name × List Visit)) (visit : Visit) :
    visit ∈ inNameOrder groups ↔
      ∃ group ∈ groups, ∃ inner ∈ group.2, inner.under group.1 = visit := by
  unfold inNameOrder
  simp only [List.mem_flatMap, List.mem_map, (foldr_insertGroup_perm groups).mem_iff]

theorem inNameOrder_pairwise {groups : List (Name × List Visit)}
    (hnames : (groups.map Prod.fst).Nodup)
    (hinner : ∀ group ∈ groups, (group.2.map Visit.trail).Pairwise TrailBefore) :
    ((inNameOrder groups).map Visit.trail).Pairwise TrailBefore := by
  unfold inNameOrder
  rw [List.map_flatMap, List.pairwise_flatMap]
  constructor
  · intro group hgroup
    have hsorted := hinner group ((foldr_insertGroup_perm groups).mem_iff.1 hgroup)
    rw [List.map_map, List.pairwise_map]
    rw [List.pairwise_map] at hsorted
    apply hsorted.imp
    intro visit other hbefore
    exact List.Lex.cons hbefore
  · apply (foldr_insertGroup_pairwise hnames).imp
    intro group other hbefore trail htrail trail' htrail'
    simp only [List.map_map, List.mem_map, Function.comp_apply] at htrail htrail'
    rcases htrail with ⟨visit, _, rfl⟩
    rcases htrail' with ⟨visit', _, rfl⟩
    exact List.Lex.rel hbefore

/-! ## The visits below a directory -/

def visitsOfEntry (fs : FileSystem) (rules : Rules) (path : Path) (n : Name) (child : Node) :
    List Visit :=
  if child.isDir && rules.prunes n.display then [⟨[], .pruned⟩]
  else child.visits fs rules (path.join (Path.ofName n)) n.bytes

theorem visitsOfEntries_eq_map (fs : FileSystem) (rules : Rules) (path : Path)
    (entries : List (Name × Node)) :
    visitsOfEntries fs rules path entries =
      entries.map fun e => (e.1, visitsOfEntry fs rules path e.1 e.2) := by
  induction entries with
  | nil => simp [visitsOfEntries]
  | cons e entries ih =>
      rcases e with ⟨n, child⟩
      simp [visitsOfEntries, visitsOfEntry, ih]

namespace Node

variable {fs : FileSystem} {rules : Rules}

theorem visits_dir (fs : FileSystem) (rules : Rules) (path : Path) (name : Bytes) (mode : Mode)
    (entries : List (Name × Node)) :
    (dir mode entries).visits fs rules path name =
      match fs.list path with
      | .error e => [⟨[], .unlistable e⟩]
      | .ok _ => ⟨[], .entered⟩ :: inNameOrder
          (entries.map fun e => (e.1, visitsOfEntry fs rules path e.1 e.2)) := by
  cases hlist : fs.list path with
  | error e => simp only [visits, hlist]
  | ok listed => simp only [visits, hlist, visitsOfEntries_eq_map]

theorem visits_pairwise {node : Node} (hwf : node.WellFormed) (path : Path) (name : Bytes) :
    ((node.visits fs rules path name).map Visit.trail).Pairwise TrailBefore := by
  induction hwf generalizing path name with
  | dir mode entries hnames _ ih =>
      rw [visits_dir]
      cases fs.list path with
      | error e => simp
      | ok listed =>
          simp only [List.map_cons, List.pairwise_cons]
          constructor
          · intro trail htrail
            obtain ⟨visit, hvisit, rfl⟩ := List.mem_map.1 htrail
            obtain ⟨group, _, inner, _, rfl⟩ := (mem_inNameOrder _ visit).1 hvisit
            exact List.Lex.nil
          · apply inNameOrder_pairwise
            · simpa [List.map_map, Function.comp_def] using hnames
            · intro group hgroup
              obtain ⟨e, he, rfl⟩ := List.mem_map.1 hgroup
              simp only [visitsOfEntry]
              split
              next => simp
              next => exact ih e he _ _
  | file mode data => simp [visits]
  | link target => simp [visits]
  | fifo mode => simp [visits]
  | device kind => simp [visits]

theorem visits_nodup {node : Node} (hwf : node.WellFormed) (path : Path) (name : Bytes) :
    (node.visits fs rules path name).Nodup := by
  apply List.Nodup.of_map Visit.trail
  apply (visits_pairwise hwf path name).imp
  intro trail other hbefore heq
  exact trailBefore_irrefl trail (heq ▸ hbefore)

theorem mem_visits_cons {node : Node} (hwf : node.WellFormed) (path : Path) (name : Bytes)
    (n : Name) (trail : List Name) (verdict : Verdict) :
    ⟨n :: trail, verdict⟩ ∈ node.visits fs rules path name ↔
      (∃ listed, fs.list path = .ok listed) ∧
        ∃ child, node.entry? n = some child ∧
          ⟨trail, verdict⟩ ∈ visitsOfEntry fs rules path n child := by
  cases hwf with
  | dir mode entries hnames _ =>
      rw [visits_dir]
      cases hlist : fs.list path with
      | error e => simp
      | ok listed =>
          simp only [List.mem_cons, mem_inNameOrder, Visit.mk.injEq, reduceCtorEq, false_and,
            false_or, Except.ok.injEq, exists_eq', true_and, entry?]
          constructor
          · rintro ⟨group, hgroup, ⟨trail', verdict'⟩, hinner, hunder⟩
            obtain ⟨e, he, rfl⟩ := List.mem_map.1 hgroup
            simp only [Visit.under, Visit.mk.injEq, List.cons.injEq] at hunder
            rcases hunder with ⟨⟨rfl, rfl⟩, rfl⟩
            exact ⟨e.2, (mem_entries_iff_lookup hnames e.1 e.2).1 he, hinner⟩
          · rintro ⟨child, hchild, hmem⟩
            have he : (n, child) ∈ entries := (mem_entries_iff_lookup hnames n child).2 hchild
            exact ⟨(n, visitsOfEntry fs rules path n child), List.mem_map.2 ⟨_, he, rfl⟩,
              ⟨trail, verdict⟩, hmem, rfl⟩
  | file mode data => simp [visits, entry?]
  | link target => simp [visits, entry?]
  | fifo mode => simp [visits, entry?]
  | device kind => simp [visits, entry?]

/-! ## What the visits depend on -/

/-- Of the tree around a node the visits depend on which paths lead to directories and on which
directories can be listed. -/
theorem visits_congr {other : FileSystem} (hdir : ∀ p, other.isDir p = fs.isDir p)
    (hlist : ∀ p, (other.list p).map (fun _ => ()) = (fs.list p).map (fun _ => ()))
    {node : Node} (hwf : node.WellFormed) (path : Path) (name : Bytes) :
    node.visits other rules path name = node.visits fs rules path name := by
  induction hwf generalizing path name with
  | dir mode entries _ _ ih =>
      have hentries :
          (entries.map fun e => (e.1, visitsOfEntry other rules path e.1 e.2)) =
            entries.map fun e => (e.1, visitsOfEntry fs rules path e.1 e.2) := by
        apply List.map_congr_left
        intro e he
        simp only [visitsOfEntry, ih e he]
      have hpath := hlist path
      rw [visits_dir, visits_dir, hentries]
      cases hother : other.list path <;> cases hfs : fs.list path <;>
        simp_all [Except.map]
  | file mode data => simp [visits]
  | link target => simp [visits, hdir]
  | fifo mode => simp [visits]
  | device kind => simp [visits]

theorem isDir_update {f : Node → Node} (hf : RewritesFiles f) (location : Location) (node : Node) :
    (node.update f location).isDir = node.isDir := by
  have houtline := outline_get?_update hf location [] node
  simp only [get?, Option.map_some, Option.some.injEq] at houtline
  exact isDir_eq_of_outline_eq houtline

theorem visits_update {f : Node → Node} (hf : RewritesFiles f) (location : Location)
    (node : Node) (path : Path) (name : Bytes) :
    (node.update f location).visits fs rules path name = node.visits fs rules path name := by
  induction location generalizing node path name with
  | nil =>
      rcases hf node with heq | ⟨hnode, hfile⟩
      · simp only [update, heq]
      · simp only [update]
        cases hshape : f node <;> cases node <;> simp_all [isFile, visits]
  | cons n rest ih =>
      cases node with
      | dir mode entries =>
          simp only [update, visits_dir, List.map_map]
          have hentries : ∀ e ∈ entries,
              ((fun e => (e.1, visitsOfEntry fs rules path e.1 e.2)) ∘
                fun e => if e.1 = n then (e.1, update f rest e.2) else e) e =
              (e.1, visitsOfEntry fs rules path e.1 e.2) := by
            intro e _
            by_cases he : e.1 = n
            · simp [he, visitsOfEntry, isDir_update hf, ih]
            · simp [he]
          rw [List.map_congr_left hentries]
      | file mode data => rfl
      | link target => rfl
      | fifo mode => rfl
      | device kind => rfl

end Node

end TreePack
