import Mathlib.Tactic
import TreePack.Proofs.Selection

/-!
# What a survey meets

A survey meets its root, and it meets an entry of a directory that it has met and enters: the root,
or a directory whose name is not ignored, if it can be listed.  The relation `Meets` says so without
mention of the order of the visits.  Every entry that is met has one verdict, which depends on the
entry alone, and the visits below the root are exactly the entries met with their verdicts.

A pruned directory is met, but nothing beneath it is.
-/

namespace TreePack

/-- The name at the end of the trail does not keep a survey from entering. -/
def Rules.Enters (rules : Rules) (trail : List Name) : Prop :=
  ∀ n, trail.getLast? = some n → rules.prunes n.display = false

theorem Rules.enters_nil (rules : Rules) : rules.Enters [] := by
  intro n hn
  contradiction

theorem Rules.enters_concat (rules : Rules) (trail : List Name) (n : Name) :
    rules.Enters (trail ++ [n]) ↔ rules.prunes n.display = false := by
  simp [Enters]

theorem Rules.enters_of_kept (rules : Rules) {child : Node} {n : Name}
    (hkept : ¬(child.isDir = true ∧ rules.prunes n.display = true)) (trail : List Name) :
    child.isDir = true → rules.Enters (trail ++ [n]) := by
  intro hdir
  rw [rules.enters_concat]
  by_contra hname
  exact hkept ⟨hdir, by simpa using hname⟩

theorem Path.descend_concat (root : Path) (trail : List Name) (n : Name) :
    root.descend (trail ++ [n]) = (root.descend trail).join (ofName n) := by
  simp [descend, List.foldl_append]

theorem Node.exists_eq_dir_of_entry {node child : Node} {n : Name}
    (hentry : node.entry? n = some child) :
    ∃ mode entries, node = .dir mode entries ∧ entries.lookup n = some child := by
  cases node with
  | dir mode entries => exact ⟨mode, entries, rfl, hentry⟩
  | file mode data => simp [Node.entry?] at hentry
  | link target => simp [Node.entry?] at hentry
  | fifo mode => simp [Node.entry?] at hentry
  | device kind => simp [Node.entry?] at hentry

theorem Node.exists_eq_dir_of_get? {top node : Node} {trail : List Name} (htrail : trail ≠ [])
    (hfound : top.get? trail = some node) : ∃ mode entries, top = .dir mode entries := by
  obtain ⟨n, rest, rfl⟩ := List.exists_cons_of_ne_nil htrail
  obtain ⟨child, hchild, -⟩ := Option.bind_eq_some_iff.1 hfound
  obtain ⟨mode, entries, hdir, -⟩ := exists_eq_dir_of_entry hchild
  exact ⟨mode, entries, hdir⟩

namespace FileSystem

/-- The survey of `root`, which leads to the directory `top`, meets this node at the trail. -/
inductive Meets (fs : FileSystem) (rules : Rules) (root : Path) (top : Node) :
    List Name → Node → Prop
  | start : Meets fs rules root top [] top
  | entry {trail : List Name} {mode : Mode} {entries : List (Name × Node)} {n : Name}
      {child : Node} :
      Meets fs rules root top trail (.dir mode entries) → rules.Enters trail →
      fs.Listable (root.descend trail) → entries.lookup n = some child →
      Meets fs rules root top (trail ++ [n]) child

end FileSystem

/-- What a survey says of an entry that it meets by the name `n` at `path`. -/
def Node.verdict (fs : FileSystem) (rules : Rules) (path : Path) (n : Name) : Node → Verdict
  | .file _ _ => rules.judge n.bytes
  | .link _ => if fs.isDir path then .passedOver else rules.judge n.bytes
  | .fifo _ => .passedOver
  | .device _ => .passedOver
  | .dir _ _ =>
      if rules.prunes n.display then .pruned
      else match fs.list path with
        | .error e => .unlistable e
        | .ok _ => .entered

theorem Rules.judge_ne_pruned (rules : Rules) (name : Bytes) : rules.judge name ≠ .pruned := by
  unfold judge
  split <;> simp

theorem Node.verdict_eq_pruned_iff {fs : FileSystem} {rules : Rules} {path : Path} {n : Name}
    {node : Node} :
    node.verdict fs rules path n = .pruned ↔
      node.isDir = true ∧ rules.prunes n.display = true := by
  cases node with
  | dir mode entries =>
      cases hlist : fs.list path <;> simp [verdict, isDir, hlist]
  | file mode data => simp [verdict, isDir, rules.judge_ne_pruned]
  | link target =>
      cases hdir : fs.isDir path <;> simp [verdict, isDir, hdir, rules.judge_ne_pruned]
  | fifo mode => simp [verdict, isDir]
  | device kind => simp [verdict, isDir]

namespace FileSystem

variable {fs : FileSystem} {rules : Rules} {root : Path} {top : Node}

theorem Meets.get? {trail : List Name} {node : Node}
    (hmeets : fs.Meets rules root top trail node) :
    top.get? trail = some node := by
  induction hmeets with
  | start => rfl
  | @entry trail mode entries n child _ _ _ hlookup ih =>
      rw [Node.get?_append, ih, Option.bind_some, Node.get?_singleton]
      exact hlookup

theorem Meets.node?_eq {other : FileSystem} {here : Location} {trail : List Name} {node : Node}
    (hmeets : fs.Meets rules root top trail node) (htop : other.node? here = some top) :
    other.node? (here ++ trail) = some node := by
  rw [node?_append, htop]
  exact hmeets.get?

theorem Meets.unique {trail : List Name} {node other : Node}
    (hmeets : fs.Meets rules root top trail node) (hother : fs.Meets rules root top trail other) :
    node = other := by
  have hsame := hmeets.get?.symm.trans hother.get?
  exact Option.some.inj hsame

theorem Meets.wellFormed (hwf : top.WellFormed) {trail : List Name} {node : Node}
    (hmeets : fs.Meets rules root top trail node) :
    node.WellFormed :=
  hwf.get hmeets.get?

theorem Meets.parent {trail : List Name} {n : Name} {child : Node}
    (hmeets : fs.Meets rules root top (trail ++ [n]) child) :
    ∃ mode entries, fs.Meets rules root top trail (.dir mode entries) ∧ rules.Enters trail ∧
      fs.Listable (root.descend trail) ∧ entries.lookup n = some child := by
  generalize htrail : trail ++ [n] = whole at hmeets
  cases hmeets with
  | start => simp at htrail
  | @entry trail' mode entries n' _ hparent henters hlist hlookup =>
      obtain ⟨rfl, hn⟩ := List.append_inj' htrail rfl
      cases hn
      exact ⟨mode, entries, hparent, henters, hlist, hlookup⟩

/-- Every directory on the way to an entry that is met has been entered. -/
theorem Meets.enters {trail : List Name} {node : Node}
    (hmeets : fs.Meets rules root top trail node) {before after : List Name}
    (htrail : trail = before ++ after) (hafter : after ≠ []) :
    rules.Enters before := by
  induction hmeets generalizing after with
  | start =>
      have hnil : before = [] ∧ after = [] := by simpa using htrail.symm
      exact absurd hnil.2 hafter
  | @entry trail mode entries n child _ henters _ _ ih =>
      obtain ⟨init, last, rfl⟩ := List.eq_nil_or_concat after |>.resolve_left hafter
      rw [List.concat_eq_append, ← List.append_assoc] at htrail
      obtain ⟨hinit, _⟩ := List.append_inj' htrail rfl
      by_cases hempty : init = []
      · subst init
        rwa [hinit, List.append_nil] at henters
      · exact ih hinit hempty

/-! ## Visits and verdicts -/

theorem nil_mem_visitsOfEntry_iff (path : Path) (n : Name) (child : Node) (verdict : Verdict) :
    ⟨[], verdict⟩ ∈ visitsOfEntry fs rules path n child ↔
      verdict = child.verdict fs rules (path.join (Path.ofName n)) n := by
  unfold visitsOfEntry
  cases child with
  | dir mode entries =>
      simp only [Node.isDir, Bool.true_and, Node.verdict]
      split
      next => simp
      next =>
        rw [Node.visits_dir]
        cases fs.list (path.join (Path.ofName n)) with
        | error e => simp
        | ok listed => simp [mem_inNameOrder, Visit.under]
  | file mode data => simp [Node.isDir, Node.visits, Node.verdict]
  | link target => simp [Node.isDir, Node.visits, Node.verdict]
  | fifo mode => simp [Node.isDir, Node.visits, Node.verdict]
  | device kind => simp [Node.isDir, Node.visits, Node.verdict]

/-- Below a directory that has been met and entered, the visits are those of its entries. -/
theorem mem_visits_iff_of_meets (hwf : top.WellFormed) (name : Bytes) {trail : List Name}
    {node : Node} (hmeets : fs.Meets rules root top trail node) (henters : rules.Enters trail)
    (n : Name) (rest : List Name) (verdict : Verdict) :
    ⟨trail ++ n :: rest, verdict⟩ ∈ top.visits fs rules root name ↔
      fs.Listable (root.descend trail) ∧ ∃ child, node.entry? n = some child ∧
        ⟨rest, verdict⟩ ∈ visitsOfEntry fs rules (root.descend trail) n child := by
  induction hmeets generalizing n rest with
  | start => exact Node.mem_visits_cons hwf root name n rest verdict
  | @entry trail mode entries m child hparent hentersParent hlist hlookup ih =>
      have hkept : rules.prunes m.display = false := (rules.enters_concat trail m).1 henters
      have hchild : child.WellFormed :=
        (hparent.entry hentersParent hlist hlookup).wellFormed hwf
      have hentry : Node.entry? m (.dir mode entries) = some child := hlookup
      rw [List.append_assoc, List.singleton_append, ih hentersParent, hentry]
      simp only [Option.some.injEq, exists_eq_left', hlist, true_and]
      rw [mem_visitsOfEntry_iff hchild (by simp), Path.descend_concat]
      simp only [hkept, true_and]
      exact Node.mem_visits_cons hchild _ _ n rest verdict

theorem meets_of_mem_visits (hwf : top.WellFormed) (name : Bytes) {trail rest : List Name}
    (hrest : rest ≠ []) {verdict : Verdict}
    (hmem : ⟨trail ++ rest, verdict⟩ ∈ top.visits fs rules root name) :
    ∃ node, fs.Meets rules root top trail node ∧ rules.Enters trail := by
  induction trail using List.reverseRecOn generalizing rest with
  | nil => exact ⟨top, .start, rules.enters_nil⟩
  | append_singleton trail m ih =>
      rw [List.append_assoc, List.singleton_append] at hmem
      obtain ⟨node, hmeets, henters⟩ := ih (by simp) hmem
      rw [mem_visits_iff_of_meets hwf name hmeets henters] at hmem
      obtain ⟨hlist, child, hchild, hbelow⟩ := hmem
      obtain ⟨mode, entries, rfl, hlookup⟩ := Node.exists_eq_dir_of_entry hchild
      have hmeetsChild := hmeets.entry henters hlist hlookup
      have hkept := (mem_visitsOfEntry_iff (hmeetsChild.wellFormed hwf) hrest verdict).1 hbelow
      exact ⟨child, hmeetsChild, (rules.enters_concat trail m).2 hkept.1⟩

theorem mem_visits_concat_iff (hwf : top.WellFormed) (name : Bytes) (trail : List Name) (n : Name)
    (verdict : Verdict) :
    ⟨trail ++ [n], verdict⟩ ∈ top.visits fs rules root name ↔
      ∃ node, fs.Meets rules root top (trail ++ [n]) node ∧
        verdict = node.verdict fs rules (root.descend (trail ++ [n])) n := by
  constructor
  · intro hmem
    obtain ⟨node, hmeets, henters⟩ := meets_of_mem_visits hwf name (by simp) hmem
    rw [mem_visits_iff_of_meets hwf name hmeets henters] at hmem
    obtain ⟨hlist, child, hchild, hverdict⟩ := hmem
    rw [nil_mem_visitsOfEntry_iff] at hverdict
    obtain ⟨mode, entries, rfl, hlookup⟩ := Node.exists_eq_dir_of_entry hchild
    exact ⟨child, hmeets.entry henters hlist hlookup, by rw [Path.descend_concat, hverdict]⟩
  · rintro ⟨child, hmeets, hverdict⟩
    obtain ⟨mode, entries, hparent, henters, hlist, hlookup⟩ := hmeets.parent
    rw [mem_visits_iff_of_meets hwf name hparent henters]
    rw [Path.descend_concat] at hverdict
    exact ⟨hlist, child, hlookup, (nil_mem_visitsOfEntry_iff _ n child verdict).2 hverdict⟩

theorem Meets.visited (hinput : root.isStandardInput = false) (htop : fs.stat root = .ok top)
    (hdir : top.isDir = true) {trail : List Name} {node : Node}
    (hmeets : fs.Meets rules root top trail node) :
    ∃ visits, fs.survey rules root = .ok visits ∧ ∃ visit ∈ visits, visit.trail = trail := by
  obtain ⟨here, _, hnode⟩ := (stat_eq_ok_iff fs root top).1 htop
  refine ⟨_, survey_eq_visits hinput htop hdir, ?_⟩
  rcases List.eq_nil_or_concat trail with rfl | ⟨init, n, rfl⟩
  · cases top <;> simp only [Node.isDir, Bool.false_eq_true] at hdir
    rw [Node.visits_dir]
    cases fs.list root <;> exact ⟨_, List.mem_cons_self, rfl⟩
  · rw [List.concat_eq_append] at hmeets ⊢
    have hvisit := (mem_visits_concat_iff (fs.wellFormed.get hnode) (rootName root) init n _).2
      ⟨_, hmeets, rfl⟩
    exact ⟨_, hvisit, rfl⟩

/-- A file is packed if it is met and judged a candidate. -/
theorem mem_candidates_iff (hinput : root.isStandardInput = false) (htop : fs.stat root = .ok top)
    (hdir : top.isDir = true) (c : Candidate) :
    c ∈ fs.candidates rules root ↔
      ∃ trail n node, c = Candidate.below root (trail ++ [n]) ∧
        fs.Meets rules root top (trail ++ [n]) node ∧
        node.verdict fs rules (root.descend (trail ++ [n])) n = .candidate := by
  obtain ⟨here, _, hnode⟩ := (stat_eq_ok_iff fs root top).1 htop
  have hwf : top.WellFormed := fs.wellFormed.get hnode
  rw [candidates_eq_map hinput htop hdir, List.mem_map]
  simp only [mem_packedTrails]
  constructor
  · rintro ⟨trail, hmem, rfl⟩
    rcases List.eq_nil_or_concat trail with rfl | ⟨init, n, rfl⟩
    · exact absurd hmem (candidate_not_mem_visits_of_isDir hdir _ _)
    · rw [List.concat_eq_append] at hmem ⊢
      obtain ⟨node, hmeets, hverdict⟩ := (mem_visits_concat_iff hwf _ init n _).1 hmem
      exact ⟨init, n, node, rfl, hmeets, hverdict.symm⟩
  · rintro ⟨trail, n, node, rfl, hmeets, hverdict⟩
    exact ⟨trail ++ [n], (mem_visits_concat_iff hwf _ trail n _).2 ⟨node, hmeets, hverdict.symm⟩,
      rfl⟩

end FileSystem

end TreePack
