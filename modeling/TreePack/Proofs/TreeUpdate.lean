import Mathlib.Tactic
import TreePack.FileSystem.Basic

/-!
# A tree after a change at one location

Two changes are made to a tree while a job runs: a file is made in a directory, and a file is
rewritten.  This file says what can be found in the tree afterwards.

The resolution of paths sees of a node only its `outline`: what kind of node it is, the permissions
of a directory and the target of a link.  Rewriting files changes no outline anywhere in the tree,
and away from the rewritten file not even a `surface`, which is all of a node except the entries of
a directory.  Making an entry keeps the outline of everything that was there before.
-/

namespace TreePack

namespace Node

/-- All of a node except the entries of a directory. -/
def surface : Node → Node
  | dir mode _ => dir mode []
  | node => node

/-- What the resolution of paths sees of a node. -/
def outline : Node → Node
  | file _ _ => file ⟨0⟩ []
  | dir mode _ => dir mode []
  | node => node

@[simp] theorem outline_surface (node : Node) :
    node.surface.outline = node.outline := by
  cases node <;> rfl

theorem outline_eq_of_surface_eq {node other : Node} (h : node.surface = other.surface) :
    node.outline = other.outline := by
  rw [← outline_surface node, h, outline_surface]

theorem isDir_eq_of_outline_eq {node other : Node}
    (h : node.outline = other.outline) :
    node.isDir = other.isDir := by
  cases node <;> cases other <;> simp_all [outline, isDir]

theorem eq_link_of_outline_eq {node : Node} {target : Path}
    (h : node.outline = (link target).outline) :
    node = link target := by
  cases node <;> simp_all [outline]

theorem get?_append (node : Node) (here rest : Location) :
    node.get? (here ++ rest) = (node.get? here).bind (·.get? rest) := by
  induction here generalizing node with
  | nil => simp [get?]
  | cons n here ih =>
      simp only [List.cons_append, get?]
      cases node.entry? n with
      | none => rfl
      | some child => simpa using ih child

theorem get?_singleton (node : Node) (n : Name) :
    node.get? [n] = node.entry? n := by
  simp only [get?]
  cases node.entry? n <;> rfl

/-! ## Entries by name -/

theorem mem_entries_iff_lookup {entries : List (Name × Node)}
    (hnames : (entries.map Prod.fst).Nodup) (n : Name) (child : Node) :
    (n, child) ∈ entries ↔ entries.lookup n = some child := by
  constructor
  · intro hmem
    obtain ⟨before, after, rfl⟩ := List.append_of_mem hmem
    rw [List.map_append, List.nodup_append] at hnames
    rw [List.lookup_eq_some_iff]
    have hbefore : ∀ e ∈ before, (n == e.1) = false := by
      intro e he
      have hne : e.1 ≠ n :=
        hnames.2.2 e.1 (List.mem_map_of_mem he) n (by simp)
      simpa using Ne.symm hne
    exact ⟨before, after, rfl, by simpa using hbefore⟩
  · intro hlookup
    obtain ⟨before, after, rfl, _⟩ := List.lookup_eq_some_iff.1 hlookup
    simp

theorem lookup_map_at (entries : List (Name × Node)) (n other : Name) (g : Node → Node) :
    (entries.map fun e => if e.1 = n then (e.1, g e.2) else e).lookup other =
      if other = n then (entries.lookup other).map g else entries.lookup other := by
  induction entries with
  | nil => simp
  | cons e entries ih =>
      rcases e with ⟨m, child⟩
      by_cases hother : other = m
      · subst other
        by_cases hm : m = n
        · simp [hm]
        · simp [hm]
      · have hbeq : (other == m) = false := by simpa using hother
        by_cases hm : m = n
        · simpa [List.lookup_cons, hm, hm ▸ hbeq] using ih
        · simpa [List.lookup_cons, hm, hbeq] using ih

/-! ## Rewriting the node at a location -/

theorem get?_update_self (f : Node → Node) (location : Location) (node : Node) :
    (node.update f location).get? location = (node.get? location).map f := by
  induction location generalizing node with
  | nil => rfl
  | cons n rest ih =>
      cases node with
      | dir mode entries =>
          simp only [update, get?, entry?, lookup_map_at, if_true]
          cases entries.lookup n with
          | none => rfl
          | some child => simpa using ih child
      | file mode data => rfl
      | link target => rfl
      | fifo mode => rfl
      | device kind => rfl

theorem update_update (f g : Node → Node) (location : Location) (node : Node) :
    (node.update g location).update f location =
      node.update (fun inner => f (g inner)) location := by
  induction location generalizing node with
  | nil => rfl
  | cons n rest ih =>
      cases node with
      | dir mode entries =>
          simp only [update, List.map_map, dir.injEq, true_and]
          apply List.map_congr_left
          intro e _
          by_cases he : e.1 = n <;> simp [he, ih]
      | file mode data => rfl
      | link target => rfl
      | fifo mode => rfl
      | device kind => rfl

theorem update_eq_self {f : Node → Node} {location : Location} {node inner : Node}
    (hwf : node.WellFormed) (hinner : node.get? location = some inner)
    (hf : f inner = inner) :
    node.update f location = node := by
  induction location generalizing node with
  | nil =>
      simp only [get?, Option.some.injEq] at hinner
      subst inner
      exact hf
  | cons n rest ih =>
      obtain ⟨child, hchild, hrest⟩ := Option.bind_eq_some_iff.1 hinner
      cases hwf with
      | dir mode entries hnames hchildren =>
          simp only [update, dir.injEq, true_and]
          apply (List.map_congr_left _).trans (List.map_id entries)
          intro e he
          by_cases hn : e.1 = n
          · have hsome : entries.lookup e.1 = some e.2 :=
              (mem_entries_iff_lookup hnames e.1 e.2).1 he
            have heq : e.2 = child := by
              rw [hn] at hsome
              exact Option.some.inj (hsome.symm.trans hchild)
            rw [if_pos hn, heq, ih (heq ▸ hchildren e he) hrest, ← heq, id_eq]
          · rw [if_neg hn, id_eq]
      | file mode data => simp [ entry?] at hchild
      | link target => simp [ entry?] at hchild
      | fifo mode => simp [ entry?] at hchild
      | device kind => simp [ entry?] at hchild

def RewritesFiles (f : Node → Node) : Prop :=
  ∀ node, f node = node ∨ node.isFile = true ∧ (f node).isFile = true

theorem rewritesFiles_setData (data : Bytes) : RewritesFiles (setData data) := by
  intro node
  cases node <;> simp [setData, isFile]

theorem rewritesFiles_append (bytes : Bytes) : RewritesFiles (append bytes) := by
  intro node
  cases node <;> simp [append, isFile]

theorem outline_eq_of_isFile {node other : Node}
    (hnode : node.isFile = true) (hother : other.isFile = true) :
    node.outline = other.outline := by
  cases node <;> cases other <;> simp_all [isFile, outline]

theorem RewritesFiles.outline {f : Node → Node} (hf : RewritesFiles f) (node : Node) :
    (f node).outline = node.outline := by
  rcases hf node with heq | ⟨hnode, hfile⟩
  · rw [heq]
  · exact outline_eq_of_isFile hfile hnode

theorem RewritesFiles.surface_congr {f : Node → Node} (hf : RewritesFiles f) {node other : Node}
    (hsame : other.surface = node.surface) :
    (f other).surface = (f node).surface := by
  rcases hf node with heq | ⟨hnode, _⟩
  · rcases hf other with heq' | ⟨hother, _⟩
    · rw [heq, heq', hsame]
    · cases node <;> cases other <;> simp_all [surface, isFile]
  · cases node <;> cases other <;> simp_all [surface, isFile]

theorem get?_cons_of_isFile {node : Node} (hnode : node.isFile = true)
    (n : Name) (rest : Location) :
    node.get? (n :: rest) = none := by
  cases node <;> simp_all [isFile, get?, entry?]

/-- A change that shows only at one place of the changed node shows only there in the tree. -/
theorem surface_get?_update_of_surface {f : Node → Node} {place : Location}
    (hf : ∀ (node : Node) (other : Location), other ≠ place →
      ((f node).get? other).map surface = (node.get? other).map surface)
    {location other : Location} (hne : other ≠ location ++ place) (node : Node) :
    ((node.update f location).get? other).map surface =
      (node.get? other).map surface := by
  induction location generalizing node other with
  | nil => exact hf node other hne
  | cons n rest ih =>
      cases node with
      | dir mode entries =>
          cases other with
          | nil => rfl
          | cons m tail =>
              simp only [update, get?, entry?, lookup_map_at]
              by_cases hm : m = n
              · subst m
                have htail : tail ≠ rest ++ place := fun h => hne (by rw [h, List.cons_append])
                rw [if_pos rfl]
                cases entries.lookup n with
                | none => rfl
                | some child => simpa using ih htail child
              · rw [if_neg hm]
      | file mode data => rfl
      | link target => rfl
      | fifo mode => rfl
      | device kind => rfl

/-- Whatever is done to a node, it shows only at its location and beneath. -/
theorem surface_get?_update_elsewhere (f : Node → Node) {location other : Location}
    (helsewhere : ¬ location <+: other) (node : Node) :
    ((node.update f location).get? other).map surface = (node.get? other).map surface := by
  induction location generalizing node other with
  | nil => exact absurd List.nil_prefix helsewhere
  | cons n rest ih =>
      cases node with
      | dir mode entries =>
          cases other with
          | nil => rfl
          | cons m tail =>
              simp only [update, get?, entry?, lookup_map_at]
              by_cases hm : m = n
              · subst m
                have htail : ¬ rest <+: tail := by
                  intro hbefore
                  exact helsewhere (List.cons_prefix_cons.2 ⟨rfl, hbefore⟩)
                rw [if_pos rfl]
                cases entries.lookup n with
                | none => rfl
                | some child => simpa using ih htail child
              · rw [if_neg hm]
      | file mode data => rfl
      | link target => rfl
      | fifo mode => rfl
      | device kind => rfl

theorem surface_get?_update {f : Node → Node} (hf : RewritesFiles f)
    {location other : Location} (hne : other ≠ location) (node : Node) :
    ((node.update f location).get? other).map surface =
      (node.get? other).map surface := by
  have hbelow : ∀ (node : Node) (other : Location), other ≠ [] →
      ((f node).get? other).map surface = (node.get? other).map surface := by
    intro node other hother
    obtain ⟨m, tail, rfl⟩ := List.exists_cons_of_ne_nil hother
    rcases hf node with heq | ⟨hnode, hfile⟩
    · rw [heq]
    · rw [get?_cons_of_isFile hfile, get?_cons_of_isFile hnode]
  exact surface_get?_update_of_surface hbelow (by simpa using hne) node

theorem outline_get?_update {f : Node → Node} (hf : RewritesFiles f)
    (location other : Location) (node : Node) :
    ((node.update f location).get? other).map outline =
      (node.get? other).map outline := by
  by_cases heq : other = location
  · subst other
    rw [get?_update_self, Option.map_map]
    congr 1
    funext inner
    exact hf.outline inner
  · have hsurface := congrArg (Option.map outline) (surface_get?_update hf heq node)
    simpa [Option.map_map, Function.comp_def] using hsurface

theorem exists_update_eq_self {f : Node → Node} (hf : RewritesFiles f) (n : Name) (node : Node) :
    ∃ rest, node.update f rest = node := by
  rcases hf node with heq | ⟨hnode, _⟩
  · exact ⟨[], heq⟩
  · have hstays : node.update f [n] = node := by
      cases node <;> simp_all [isFile, update]
    exact ⟨[n], hstays⟩

theorem exists_get?_update {f : Node → Node} (hf : RewritesFiles f)
    {location other : Location} {node inner : Node} (hinner : node.get? other = some inner) :
    ∃ rest, (node.update f location).get? other = some (inner.update f rest) := by
  induction location generalizing node other with
  | nil =>
      cases other with
      | nil =>
          simp only [get?, Option.some.injEq] at hinner
          subst inner
          exact ⟨[], rfl⟩
      | cons m tail =>
          have hsame : f node = node := by
            rcases hf node with heq | ⟨hnode, _⟩
            · exact heq
            · rw [get?_cons_of_isFile hnode] at hinner
              contradiction
          obtain ⟨rest, hrest⟩ := exists_update_eq_self hf m inner
          have hfound : (node.update f []).get? (m :: tail) = some inner := by
            simpa only [update, hsame] using hinner
          exact ⟨rest, by rw [hrest, hfound]⟩
  | cons n location ih =>
      cases other with
      | nil =>
          simp only [get?, Option.some.injEq] at hinner
          subst inner
          exact ⟨n :: location, rfl⟩
      | cons m tail =>
          obtain ⟨child, hchild, htail⟩ := Option.bind_eq_some_iff.1 hinner
          cases node with
          | dir mode entries =>
              simp only [ entry?] at hchild
              simp only [update, get?, entry?, lookup_map_at, hchild]
              by_cases hm : m = n
              · rw [if_pos hm]
                exact ih htail
              · obtain ⟨rest, hrest⟩ := exists_update_eq_self hf n inner
                rw [if_neg hm]
                exact ⟨rest, by rw [hrest]; exact htail⟩
          | file mode data => simp [ entry?] at hchild
          | link target => simp [ entry?] at hchild
          | fifo mode => simp [ entry?] at hchild
          | device kind => simp [ entry?] at hchild

/-! ## Making an entry -/

/-- Everything found in one tree is found in the other, with the same outline. -/
def Within (node other : Node) : Prop :=
  ∀ location inner, node.get? location = some inner →
    ∃ inner', other.get? location = some inner' ∧ inner'.outline = inner.outline

theorem within_insert (node child : Node) (n : Name) :
    node.Within (node.insert n child) := by
  intro location inner hinner
  cases node with
  | dir mode entries =>
      cases hlookup : entries.lookup n with
      | some old =>
          have hstays : (insert (dir mode entries) n child).get? location = some inner := by
            simpa [insert, hlookup] using hinner
          exact ⟨inner, hstays, rfl⟩
      | none =>
          simp only [insert, hlookup, Option.isNone_none, if_true]
          cases location with
          | nil =>
              simp only [get?, Option.some.injEq] at hinner
              subst inner
              exact ⟨_, rfl, rfl⟩
          | cons m tail =>
              obtain ⟨old, hold, htail⟩ := Option.bind_eq_some_iff.1 hinner
              have hfound : (entries ++ [(n, child)]).lookup m = some old := by
                rw [List.lookup_append]
                simp only [ entry?] at hold
                simp [hold]
              have hstays :
                  (dir mode (entries ++ [(n, child)])).get? (m :: tail) = some inner := by
                simp [get?, entry?, hfound, htail]
              exact ⟨inner, hstays, rfl⟩
  | file mode data => exact ⟨inner, hinner, rfl⟩
  | link target => exact ⟨inner, hinner, rfl⟩
  | fifo mode => exact ⟨inner, hinner, rfl⟩
  | device kind => exact ⟨inner, hinner, rfl⟩

theorem surface_get?_insert {child : Node} (hchild : child.isFile = true) (n : Name) (node : Node)
    (location : Location) (hne : location ≠ [n]) :
    ((node.insert n child).get? location).map surface = (node.get? location).map surface := by
  cases node with
  | dir mode entries =>
      cases hlookup : entries.lookup n with
      | some old => simp [insert, hlookup]
      | none =>
          simp only [insert, hlookup, Option.isNone_none, if_true]
          cases location with
          | nil => rfl
          | cons m tail =>
              simp only [get?, entry?, List.lookup_append]
              by_cases hm : m = n
              · subst m
                have htail : tail ≠ [] := fun h => hne (by rw [h])
                obtain ⟨k, rest, rfl⟩ := List.exists_cons_of_ne_nil htail
                simp [hlookup, get?_cons_of_isFile hchild]
              · have hbeq : (m == n) = false := by simpa using hm
                simp [List.lookup_cons, hbeq]
  | file mode data => rfl
  | link target => rfl
  | fifo mode => rfl
  | device kind => rfl

theorem within_update {f : Node → Node} (hf : ∀ node : Node, node.Within (f node))
    (location : Location) (node : Node) :
    node.Within (node.update f location) := by
  induction location generalizing node with
  | nil => exact hf node
  | cons n rest ih =>
      intro other inner hinner
      cases node with
      | dir mode entries =>
          cases other with
          | nil =>
              simp only [get?, Option.some.injEq] at hinner
              subst inner
              exact ⟨_, rfl, rfl⟩
          | cons m tail =>
              obtain ⟨child, hchild, htail⟩ := Option.bind_eq_some_iff.1 hinner
              simp only [ entry?] at hchild
              simp only [update, get?, entry?, lookup_map_at, hchild]
              by_cases hm : m = n
              · rw [if_pos hm]
                exact ih child tail inner htail
              · rw [if_neg hm]
                exact ⟨inner, htail, rfl⟩
      | file mode data => exact ⟨inner, hinner, rfl⟩
      | link target => exact ⟨inner, hinner, rfl⟩
      | fifo mode => exact ⟨inner, hinner, rfl⟩
      | device kind => exact ⟨inner, hinner, rfl⟩

end Node

namespace FileSystem

theorem eq_of_root_eq {fs other : FileSystem} (hroot : fs.root = other.root)
    (hdir : fs.workingDir = other.workingDir) :
    fs = other := by
  cases fs
  cases other
  simp_all

theorem node?_append (fs : FileSystem) (here rest : Location) :
    fs.node? (here ++ rest) = (fs.node? here).bind (·.get? rest) :=
  Node.get?_append fs.root here rest

theorem node?_entry {fs : FileSystem} {here : Location} {mode : Mode}
    {entries : List (Name × Node)} (hdir : fs.node? here = some (.dir mode entries)) (n : Name) :
    fs.node? (here ++ [n]) = entries.lookup n := by
  rw [node?_append, hdir]
  exact Node.get?_singleton (.dir mode entries) n

/-! ## Rewriting a file -/

theorem node?_setData_self {fs : FileSystem} {location : Location} {mode : Mode} {data : Bytes}
    (hfile : fs.node? location = some (.file mode data)) (newData : Bytes) :
    (fs.setData location newData).node? location = some (.file mode newData) := by
  have hself := Node.get?_update_self (Node.setData newData) location fs.root
  rw [show fs.root.get? location = some (.file mode data) from hfile] at hself
  exact hself

theorem surface_node?_setData (fs : FileSystem) {location other : Location}
    (hne : other ≠ location) (data : Bytes) :
    ((fs.setData location data).node? other).map Node.surface =
      (fs.node? other).map Node.surface :=
  Node.surface_get?_update (Node.rewritesFiles_setData data) hne fs.root

theorem outline_node?_setData (fs : FileSystem) (location other : Location) (data : Bytes) :
    ((fs.setData location data).node? other).map Node.outline =
      (fs.node? other).map Node.outline :=
  Node.outline_get?_update (Node.rewritesFiles_setData data) location other fs.root

theorem update_update_eq (fs : FileSystem) (location : Location) {first second both : Node → Node}
    {hfirst : ∀ node, node.WellFormed → (first node).WellFormed}
    {hsecond : ∀ node, node.WellFormed → (second node).WellFormed}
    {hboth : ∀ node, node.WellFormed → (both node).WellFormed}
    (heq : ∀ node, second (first node) = both node) :
    (fs.update location first hfirst).update location second hsecond =
      fs.update location both hboth := by
  have hcompose : (fun node => second (first node)) = both := funext heq
  have hroot := Node.update_update second first location fs.root
  rw [hcompose] at hroot
  exact eq_of_root_eq hroot rfl

@[simp] theorem setData_setData (fs : FileSystem) (location : Location) (old new : Bytes) :
    (fs.setData location old).setData location new = fs.setData location new := by
  apply update_update_eq
  intro node
  cases node <;> rfl

theorem append_setData (fs : FileSystem) (location : Location) (old more : Bytes) :
    (fs.setData location old).append location more = fs.setData location (old ++ more) := by
  apply update_update_eq
  intro node
  cases node <;> rfl

theorem setData_eq_self {fs : FileSystem} {location : Location} {mode : Mode} {data : Bytes}
    (hfile : fs.node? location = some (.file mode data)) :
    fs.setData location data = fs := by
  have hroot := Node.update_eq_self fs.wellFormed hfile (f := Node.setData data) rfl
  exact eq_of_root_eq hroot rfl

/-! ## Making a file -/

theorem within_root_insert (fs : FileSystem) (dir : Location) (n : Name) (child : Node)
    (hchild : child.WellFormed) :
    fs.root.Within (fs.insert dir n child hchild).root :=
  Node.within_update (fun node => Node.within_insert node child n) dir fs.root

theorem node?_insert_new {fs : FileSystem} {dir : Location} {mode : Mode}
    {entries : List (Name × Node)} (hdir : fs.node? dir = some (.dir mode entries))
    {n : Name} (hfree : entries.lookup n = none) (child : Node) (hchild : child.WellFormed) :
    (fs.insert dir n child hchild).node? (dir ++ [n]) = some child := by
  have hself := Node.get?_update_self (·.insert n child) dir fs.root
  rw [show fs.root.get? dir = some (.dir mode entries) from hdir] at hself
  have hnew : (fs.insert dir n child hchild).node? dir =
      some (.dir mode (entries ++ [(n, child)])) := by
    apply hself.trans
    simp [Node.insert, hfree]
  rw [node?_entry hnew, List.lookup_append, hfree]
  simp

theorem surface_node?_insert (fs : FileSystem) {dir location : Location} {n : Name}
    (hne : location ≠ dir ++ [n]) {child : Node} (hfile : child.isFile = true)
    (hchild : child.WellFormed) :
    ((fs.insert dir n child hchild).node? location).map Node.surface =
      (fs.node? location).map Node.surface :=
  Node.surface_get?_update_of_surface (Node.surface_get?_insert hfile n) hne fs.root

end FileSystem

end TreePack
