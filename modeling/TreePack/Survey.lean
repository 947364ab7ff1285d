import TreePack.Candidate
import TreePack.FileSystem.Access
import TreePack.Rules

/-!
# Surveying a tree

A survey visits the entries below a root depth first, those of one directory in the order of their
names as bytes, and gives each visited entry one verdict.  A directory that is pruned or cannot be
listed is visited, but nothing in it is.  Links are never entered: a link that leads to a directory
is passed over, as is what is neither a file nor a directory, and any other link counts as a file,
also one that leads nowhere.

A visit is recorded with its trail, the names that lead to the entry from the root; the root itself
has the empty trail.  The candidates and the reports of a survey are views of its visits.
-/

namespace TreePack

inductive Verdict where
  | entered
  | pruned
  | unlistable (error : IoError)
  | candidate
  | rejected
  | passedOver
  deriving DecidableEq

structure Visit where
  trail : List Name
  verdict : Verdict
  deriving DecidableEq

/-- A visit below the entry `n`, seen from the directory that holds this entry. -/
def Visit.under (n : Name) (visit : Visit) : Visit :=
  { visit with trail := n :: visit.trail }

def Rules.judge (rules : Rules) (name : Bytes) : Verdict :=
  if rules.accepts (Utf8.lossy name) then .candidate else .rejected

/-- Adds a group of visits before the first group whose name is not smaller. -/
def insertGroup (group : Name × List Visit) :
    List (Name × List Visit) → List (Name × List Visit)
  | [] => [group]
  | first :: rest =>
      if group.1.bytes ≤ first.1.bytes then group :: first :: rest
      else first :: insertGroup group rest

def inNameOrder (groups : List (Name × List Visit)) : List Visit :=
  (groups.foldr insertGroup []).flatMap fun group => group.2.map (Visit.under group.1)

mutual

def Node.visits (fs : FileSystem) (rules : Rules) (path : Path) (name : Bytes) :
    Node → List Visit
  | .file _ _ => [⟨[], rules.judge name⟩]
  | .link _ => [⟨[], if fs.isDir path then .passedOver else rules.judge name⟩]
  | .fifo _ => [⟨[], .passedOver⟩]
  | .device _ => [⟨[], .passedOver⟩]
  | .dir _ entries =>
      match fs.list path with
      | .error e => [⟨[], .unlistable e⟩]
      | .ok _ => ⟨[], .entered⟩ :: inNameOrder (visitsOfEntries fs rules path entries)

def visitsOfEntries (fs : FileSystem) (rules : Rules) (path : Path) :
    List (Name × Node) → List (Name × List Visit)
  | [] => []
  | (n, child) :: rest =>
      (n, if child.isDir && rules.prunes n.display then [⟨[], .pruned⟩]
          else child.visits fs rules (path.join (Path.ofName n)) n.bytes)
        :: visitsOfEntries fs rules path rest

end

/-- Whether a root stands for the standard input, which holds no files. -/
def Path.isStandardInput (root : Path) : Bool :=
  root.components = (Path.ofText "-").components

namespace FileSystem

/-- The name that a root is judged by if it is itself a file. -/
def rootName (root : Path) : Bytes :=
  match root.fileName? with
  | some n => n.bytes
  | none => root.bytes

/-- The visits of a survey of `root`, or the error for which it cannot begin.  A root that is a
link to a directory is entered; one that is any other link counts as a file. -/
def survey (fs : FileSystem) (rules : Rules) (root : Path) : Except IoError (List Visit) :=
  if root.isStandardInput then .ok []
  else match fs.linkStat root with
    | .error e => .error e
    | .ok (.link _) =>
        match fs.stat root with
        | .error e => .error e
        | .ok (.dir mode entries) =>
            .ok ((Node.dir mode entries).visits fs rules root (rootName root))
        | .ok _ => .ok [⟨[], rules.judge (rootName root)⟩]
    | .ok node => .ok (node.visits fs rules root (rootName root))

end FileSystem

def Visit.candidate? (root : Path) (visit : Visit) : Option Candidate :=
  match visit.verdict with
  | .candidate =>
      let path := root.descend visit.trail
      some ⟨path, Path.displayBelow root path⟩
  | _ => none

namespace FileSystem

def candidates (fs : FileSystem) (rules : Rules) (root : Path) : List Candidate :=
  match fs.survey rules root with
  | .ok visits => visits.filterMap (Visit.candidate? root)
  | .error _ => []

def readCandidate (fs : FileSystem) (c : Candidate) : Except SkipReason PackedFile :=
  match fs.read c.path with
  | .ok bytes => PackedFile.ofBytes c.display bytes
  | .error e => .error (.io e)

end FileSystem

end TreePack
