import TreePack.Path

/-!
# Nodes of a file tree

A node is a file, a directory with named entries, a symbolic link, a named pipe or a device.  A
node inside a tree is found by its location, the list of names that leads to it through real
directories.  In a well-formed tree no directory has two entries of one name, so a location finds
at most one node.

The order of a directory's entries is the order in which they were made and means nothing.
-/

namespace TreePack

/-- The permission bits of a node.  Only those of the owner are ever asked for.  The set-user-ID and
set-group-ID bits, which a system may clear when a file is written, are not among them. -/
structure Mode where
  bits : Nat
  deriving DecidableEq, Repr

namespace Mode

def ordinaryFile : Mode := ⟨0o644⟩

def ordinaryDir : Mode := ⟨0o755⟩

def mayRead (mode : Mode) : Bool := mode.bits.testBit 8

def mayWrite (mode : Mode) : Bool := mode.bits.testBit 7

/-- The permission to look a name up in a directory. -/
def maySearch (mode : Mode) : Bool := mode.bits.testBit 6

end Mode

inductive Device where
  /-- Takes every byte and has none. -/
  | null
  /-- Takes every byte; reading it never ends. -/
  | zero
  /-- Refuses every byte; reading it never ends. -/
  | full
  deriving DecidableEq, Repr

abbrev Location := List Name

inductive Node where
  | file (mode : Mode) (data : Bytes)
  | dir (mode : Mode) (entries : List (Name × Node))
  | link (target : Path)
  | fifo (mode : Mode)
  | device (kind : Device)

namespace Node

def isDir : Node → Bool
  | dir _ _ => true
  | _ => false

def isFile : Node → Bool
  | file _ _ => true
  | _ => false

def entry? (n : Name) : Node → Option Node
  | dir _ entries => entries.lookup n
  | _ => none

def get? : Node → Location → Option Node
  | node, [] => some node
  | node, n :: rest => (node.entry? n).bind (·.get? rest)

/-- Applies `f` to the node at a location, and changes nothing if there is none. -/
def update (f : Node → Node) : Location → Node → Node
  | [], node => f node
  | n :: rest, dir mode entries =>
      dir mode (entries.map fun e => if e.1 = n then (e.1, update f rest e.2) else e)
  | _ :: _, node => node

def insert : Node → Name → Node → Node
  | dir mode entries, n, child =>
      if (entries.lookup n).isNone then dir mode (entries ++ [(n, child)]) else dir mode entries
  | node, _, _ => node

def erase (n : Name) : Node → Node
  | dir mode entries => dir mode (entries.filter fun e => e.1 ≠ n)
  | node => node

def setMode (mode : Mode) : Node → Node
  | file _ data => file mode data
  | dir _ entries => dir mode entries
  | fifo _ => fifo mode
  | node => node

def setData (data : Bytes) : Node → Node
  | file mode _ => file mode data
  | node => node

def append (bytes : Bytes) : Node → Node
  | file mode data => file mode (data ++ bytes)
  | node => node

/-- In every directory of the tree the entries have different names. -/
inductive WellFormed : Node → Prop
  | file (mode : Mode) (data : Bytes) : WellFormed (file mode data)
  | dir (mode : Mode) (entries : List (Name × Node)) :
      (entries.map Prod.fst).Nodup → (∀ e ∈ entries, WellFormed e.2) →
      WellFormed (dir mode entries)
  | link (target : Path) : WellFormed (link target)
  | fifo (mode : Mode) : WellFormed (fifo mode)
  | device (kind : Device) : WellFormed (device kind)

namespace WellFormed

theorem of_empty_dir (mode : Mode) : WellFormed (Node.dir mode []) :=
  .dir mode [] .nil (by simp)

theorem update {f : Node → Node} (hf : ∀ node, WellFormed node → WellFormed (f node)) :
    ∀ (location : Location) {node : Node}, WellFormed node → WellFormed (node.update f location)
  | [], _, h => hf _ h
  | n :: rest, _, .dir mode entries hnames hchildren => by
      have names : (entries.map fun e => if e.1 = n then (e.1, Node.update f rest e.2) else e).map
          Prod.fst = entries.map Prod.fst := by
        rw [List.map_map]
        apply List.map_congr_left
        intro e _
        by_cases he : e.1 = n <;> simp [he]
      refine .dir mode _ (names ▸ hnames) ?_
      intro e he
      rcases List.mem_map.1 he with ⟨e', he', rfl⟩
      by_cases hn : e'.1 = n
      · simpa [hn] using update hf rest (hchildren e' he')
      · simpa [hn] using hchildren e' he'
  | _ :: _, _, .file mode data => .file mode data
  | _ :: _, _, .link target => .link target
  | _ :: _, _, .fifo mode => .fifo mode
  | _ :: _, _, .device kind => .device kind

theorem insert {n : Name} {child : Node} (hchild : WellFormed child) :
    ∀ {node : Node}, WellFormed node → WellFormed (node.insert n child)
  | _, .dir mode entries hnames hchildren => by
      simp only [Node.insert]
      by_cases hnone : (entries.lookup n).isNone
      · rw [if_pos hnone]
        have hfresh : n ∉ entries.map Prod.fst := by
          intro hmem
          rcases List.mem_map.1 hmem with ⟨e, he, rfl⟩
          rw [Option.isNone_iff_eq_none, List.lookup_eq_none_iff] at hnone
          simpa using hnone e he
        refine .dir mode _ ?_ ?_
        · rw [List.map_append, List.nodup_append]
          refine ⟨hnames, by simp, ?_⟩
          intro a ha b hb hab
          simp only [List.map_cons, List.map_nil, List.mem_singleton] at hb
          exact hfresh (hb ▸ hab ▸ ha)
        · intro e he
          rcases List.mem_append.1 he with he | he
          · exact hchildren e he
          · rw [List.mem_singleton.1 he]; exact hchild
      · rw [if_neg hnone]; exact .dir mode entries hnames hchildren
  | _, .file mode data => .file mode data
  | _, .link target => .link target
  | _, .fifo mode => .fifo mode
  | _, .device kind => .device kind

theorem erase (n : Name) :
    ∀ {node : Node}, WellFormed node → WellFormed (node.erase n)
  | _, .dir mode entries hnames hchildren =>
      .dir mode _ (hnames.sublist (List.filter_sublist.map _))
        fun e he => hchildren e (List.mem_filter.1 he).1
  | _, .file mode data => .file mode data
  | _, .link target => .link target
  | _, .fifo mode => .fifo mode
  | _, .device kind => .device kind

theorem setMode (mode : Mode) :
    ∀ {node : Node}, WellFormed node → WellFormed (node.setMode mode)
  | _, .dir _ entries hnames hchildren => .dir mode entries hnames hchildren
  | _, .file _ data => .file mode data
  | _, .link target => .link target
  | _, .fifo _ => .fifo mode
  | _, .device kind => .device kind

theorem setData (data : Bytes) :
    ∀ {node : Node}, WellFormed node → WellFormed (node.setData data)
  | _, .dir mode entries hnames hchildren => .dir mode entries hnames hchildren
  | _, .file mode _ => .file mode data
  | _, .link target => .link target
  | _, .fifo mode => .fifo mode
  | _, .device kind => .device kind

theorem append (bytes : Bytes) :
    ∀ {node : Node}, WellFormed node → WellFormed (node.append bytes)
  | _, .dir mode entries hnames hchildren => .dir mode entries hnames hchildren
  | _, .file mode data => .file mode (data ++ bytes)
  | _, .link target => .link target
  | _, .fifo mode => .fifo mode
  | _, .device kind => .device kind

theorem entry {n : Name} {child : Node} :
    ∀ {node : Node}, WellFormed node → node.entry? n = some child → WellFormed child
  | _, .dir _ entries _ hchildren, h => by
      rcases List.lookup_eq_some_iff.1 h with ⟨before, _, rfl, _⟩
      exact hchildren (n, child) (by simp)

theorem get {node child : Node} (h : WellFormed node) :
    ∀ {location : Location}, node.get? location = some child → WellFormed child := by
  intro location
  induction location generalizing node with
  | nil => intro heq; cases heq; exact h
  | cons n rest ih =>
      intro heq
      rcases Option.bind_eq_some_iff.1 heq with ⟨next, hnext, hrest⟩
      exact ih (h.entry hnext) hrest

end WellFormed

end Node

end TreePack
