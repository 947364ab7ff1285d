import Mathlib.Tactic
import TreePack.Proofs.Visits

/-!
# Surveys of corresponding nodes

Two surveys, of different trees or under different paths, have the same visits if they run side by
side through nodes that correspond: of the same kind, links that both lead to directories or both do
not, and directories that both can be listed or both not, with entries of the same names that
correspond again unless they are pruned.

A correspondence is any relation that keeps this up, so it can say as much about two nodes and their
places as its use needs.  The order in which two directories hold their entries does not matter.
-/

namespace TreePack

/-! ## The order of groups -/

theorem inNameOrder_congr {groups others : List (Name × List Visit)}
    (hperm : groups.Perm others) (hnames : (groups.map Prod.fst).Nodup) :
    inNameOrder groups = inNameOrder others := by
  have hother : (others.map Prod.fst).Nodup := (hperm.map Prod.fst).nodup_iff.1 hnames
  have hsorted : (groups.foldr insertGroup []).Perm (others.foldr insertGroup []) :=
    ((foldr_insertGroup_perm groups).trans hperm).trans (foldr_insertGroup_perm others).symm
  have hsame : groups.foldr insertGroup [] = others.foldr insertGroup [] := by
    apply hsorted.eq_of_pairwise _ (foldr_insertGroup_pairwise hnames)
      (foldr_insertGroup_pairwise hother)
    intro a b _ _ hab hba
    exact absurd (hab.trans hba) a.1.before_irrefl
  unfold inNameOrder
  rw [hsame]

/-! ## Corresponding nodes -/

section SideBySide

variable (fs other : FileSystem) (rules : Rules) (Rel : Path → Node → Path → Node → Prop)

/-- Two entries of one name, in directories at these paths, are pruned directories, or they are
related and both or neither of them are directories. -/
def EntryMatches (p q : Path) (n : Name) (child child' : Node) : Prop :=
  (child.isDir = true ∧ child'.isDir = true ∧ rules.prunes n.display = true) ∨
    (child.isDir = child'.isDir ∧
      Rel (p.join (Path.ofName n)) child (q.join (Path.ofName n)) child')

/-- What two nodes at two paths have in common as far as one step of a survey can see, if their
entries are related by `Rel`. -/
inductive Node.Matches (p q : Path) : Node → Node → Prop
  | file {mode mode' : Mode} {data data' : Bytes} :
      Node.Matches p q (.file mode data) (.file mode' data')
  | link {target target' : Path} :
      other.isDir q = fs.isDir p → Node.Matches p q (.link target) (.link target')
  | fifo {mode mode' : Mode} : Node.Matches p q (.fifo mode) (.fifo mode')
  | device {kind kind' : Device} : Node.Matches p q (.device kind) (.device kind')
  | dir {mode mode' : Mode} {entries entries' : List (Name × Node)} :
      (other.list q).map (fun _ => ()) = (fs.list p).map (fun _ => ()) →
      (∀ listed, fs.list p = .ok listed → ∀ n,
        Option.Rel (EntryMatches rules Rel p q n) (entries.lookup n) (entries'.lookup n)) →
      Node.Matches p q (.dir mode entries) (.dir mode' entries')

/-- A relation between nodes at their paths that holds again of the entries of related nodes. -/
def Correspondence : Prop :=
  ∀ p node q node', Rel p node q node' → Node.Matches fs other rules Rel p q node node'

end SideBySide

variable {fs other : FileSystem} {rules : Rules} {Rel : Path → Node → Path → Node → Prop}

theorem entryMatches_of_kept {p q : Path} {n : Name} {child child' : Node}
    (hdir : child.isDir = child'.isDir)
    (hkept : ¬(child.isDir = true ∧ rules.prunes n.display = true) →
      Rel (p.join (Path.ofName n)) child (q.join (Path.ofName n)) child') :
    EntryMatches rules Rel p q n child child' := by
  by_cases hprune : child.isDir = true ∧ rules.prunes n.display = true
  · exact .inl ⟨hprune.1, hdir ▸ hprune.1, hprune.2⟩
  · exact .inr ⟨hdir, hkept hprune⟩

theorem mem_groups_iff {entries : List (Name × Node)} (hnames : (entries.map Prod.fst).Nodup)
    (view : Name → Node → List Visit) (n : Name) (visits : List Visit) :
    (n, visits) ∈ entries.map (fun e => (e.1, view e.1 e.2)) ↔
      ∃ child, entries.lookup n = some child ∧ visits = view n child := by
  simp only [List.mem_map, Prod.mk.injEq]
  constructor
  · rintro ⟨e, he, rfl, rfl⟩
    exact ⟨e.2, (Node.mem_entries_iff_lookup hnames e.1 e.2).1 he, rfl⟩
  · rintro ⟨child, hchild, rfl⟩
    exact ⟨(n, child), (Node.mem_entries_iff_lookup hnames n child).2 hchild, rfl, rfl⟩

theorem groups_perm {entries entries' : List (Name × Node)}
    (hnames : (entries.map Prod.fst).Nodup) (hnames' : (entries'.map Prod.fst).Nodup)
    {view view' : Name → Node → List Visit}
    (hsame : ∀ n, Option.Rel (fun child child' => view' n child' = view n child)
      (entries.lookup n) (entries'.lookup n)) :
    (entries'.map fun e => (e.1, view' e.1 e.2)).Perm
      (entries.map fun e => (e.1, view e.1 e.2)) := by
  have hnodup : ∀ {entries : List (Name × Node)} {view : Name → Node → List Visit},
      (entries.map Prod.fst).Nodup → (entries.map fun e => (e.1, view e.1 e.2)).Nodup := by
    intro entries view hnames
    apply List.Nodup.of_map Prod.fst
    simpa [List.map_map, Function.comp_def] using hnames
  rw [List.perm_ext_iff_of_nodup (hnodup hnames') (hnodup hnames)]
  rintro ⟨n, visits⟩
  rw [mem_groups_iff hnames', mem_groups_iff hnames]
  have hentry := hsame n
  cases hlookup : entries.lookup n <;> cases hlookup' : entries'.lookup n <;>
    rw [hlookup, hlookup'] at hentry <;> cases hentry
  case none.none => simp
  case some.some child child' heq => simp [heq]

/-- Matching entries have the same visits if related ones have. -/
theorem EntryMatches.visits_eq {p q : Path} {n : Name} {child child' : Node}
    (hmatch : EntryMatches rules Rel p q n child child')
    (hvisits : Rel (p.join (Path.ofName n)) child (q.join (Path.ofName n)) child' →
      child'.visits other rules (q.join (Path.ofName n)) n.bytes =
        child.visits fs rules (p.join (Path.ofName n)) n.bytes) :
    visitsOfEntry other rules q n child' = visitsOfEntry fs rules p n child := by
  unfold visitsOfEntry
  rcases hmatch with ⟨hdir, hdir', hprune⟩ | ⟨hdir, hrelated⟩
  · simp [hdir, hdir', hprune]
  · rw [hdir, hvisits hrelated]

/-- Directories that can be listed alike have the same visits if entries of one name have.  The
groups of visits are then the same, so sorting them gives one list. -/
theorem Node.visits_dir_eq {p q : Path} {mode mode' : Mode} {entries entries' : List (Name × Node)}
    (hnames : (entries.map Prod.fst).Nodup) (hnames' : (entries'.map Prod.fst).Nodup)
    (hlist : (other.list q).map (fun _ => ()) = (fs.list p).map (fun _ => ()))
    (hentries : ∀ listed, fs.list p = .ok listed → ∀ n,
      Option.Rel (fun child child' =>
          visitsOfEntry other rules q n child' = visitsOfEntry fs rules p n child)
        (entries.lookup n) (entries'.lookup n)) (name : Bytes) :
    (dir mode' entries').visits other rules q name = (dir mode entries).visits fs rules p name := by
  rw [visits_dir, visits_dir]
  cases hp : fs.list p with
  | error e =>
      rw [hp] at hlist
      cases hq : other.list q <;> simp_all [Except.map]
  | ok listed =>
      rw [hp] at hlist
      cases hq : other.list q with
      | error e => simp [hq, Except.map] at hlist
      | ok listed' =>
          have hperm := groups_perm hnames hnames' (hentries listed hp)
          have hgroupNames : ((entries'.map fun e =>
              (e.1, visitsOfEntry other rules q e.1 e.2)).map Prod.fst).Nodup := by
            simpa [List.map_map, Function.comp_def] using hnames'
          simp only [inNameOrder_congr hperm hgroupNames]

/-- Corresponding nodes have the same visits. -/
theorem Correspondence.visits_eq (hrel : Correspondence fs other rules Rel) {node : Node}
    (hwf : node.WellFormed) {node' : Node} (hwf' : node'.WellFormed) {p q : Path}
    (hnodes : Rel p node q node') (name : Bytes) :
    node'.visits other rules q name = node.visits fs rules p name := by
  induction hwf generalizing node' p q name with
  | dir mode entries hnames hchildren ih =>
      cases hrel _ _ _ _ hnodes with
      | @dir _ mode' _ entries' hlist hentries =>
          cases hwf' with
          | dir _ _ hnames' hchildren' =>
              apply Node.visits_dir_eq hnames hnames' hlist
              intro listed hlisted n
              have hentry := hentries listed hlisted n
              cases hlookup : entries.lookup n <;> cases hlookup' : entries'.lookup n <;>
                rw [hlookup, hlookup'] at hentry <;> cases hentry
              case none.none => exact .none
              case some.some child child' hmatch =>
                have hmem := (Node.mem_entries_iff_lookup hnames n child).2 hlookup
                have hmem' := (Node.mem_entries_iff_lookup hnames' n child').2 hlookup'
                exact .some (hmatch.visits_eq fun hrelated =>
                  ih _ hmem (hchildren' _ hmem') hrelated n.bytes)
  | file mode data =>
      cases hrel _ _ _ _ hnodes with
      | file => simp [Node.visits]
  | link target =>
      cases hrel _ _ _ _ hnodes with
      | link hdir => simp [Node.visits, hdir]
  | fifo mode =>
      cases hrel _ _ _ _ hnodes with
      | fifo => simp [Node.visits]
  | device kind =>
      cases hrel _ _ _ _ hnodes with
      | device => simp [Node.visits]

end TreePack
