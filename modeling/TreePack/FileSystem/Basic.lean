import TreePack.FileSystem.Node

/-!
# File systems

A file system is a well-formed tree as a process sees it: the tree itself and the working
directory, from which relative paths start.  Everything that changes the tree goes through
`FileSystem.update`, which rewrites the node at one location.
-/

namespace TreePack

structure FileSystem where
  root : Node
  wellFormed : root.WellFormed
  /-- The location of the working directory.  If the directory has been removed, there is nothing at
  its location, and relative paths lead nowhere.  A system would still resolve `.` and `..` from
  there; paths that start in a removed directory are not modelled. -/
  workingDir : Location

namespace FileSystem

def node? (fs : FileSystem) (location : Location) : Option Node :=
  fs.root.get? location

def update (fs : FileSystem) (location : Location) (f : Node → Node)
    (hf : ∀ node, node.WellFormed → (f node).WellFormed) : FileSystem :=
  { fs with root := fs.root.update f location, wellFormed := fs.wellFormed.update hf location }

def insert (fs : FileSystem) (location : Location) (n : Name) (child : Node)
    (hchild : child.WellFormed) : FileSystem :=
  fs.update location (·.insert n child) fun _ => Node.WellFormed.insert hchild

def erase (fs : FileSystem) (location : Location) (n : Name) : FileSystem :=
  fs.update location (Node.erase n) fun _ => Node.WellFormed.erase n

def setMode (fs : FileSystem) (location : Location) (mode : Mode) : FileSystem :=
  fs.update location (Node.setMode mode) fun _ => Node.WellFormed.setMode mode

def setData (fs : FileSystem) (location : Location) (data : Bytes) : FileSystem :=
  fs.update location (Node.setData data) fun _ => Node.WellFormed.setData data

def append (fs : FileSystem) (location : Location) (bytes : Bytes) : FileSystem :=
  fs.update location (Node.append bytes) fun _ => Node.WellFormed.append bytes

def enter (fs : FileSystem) (location : Location) : FileSystem :=
  { fs with workingDir := location }

@[simp] theorem node?_enter (fs : FileSystem) (here location : Location) :
    (fs.enter here).node? location = fs.node? location := rfl

end FileSystem

def Path.ofLocation (location : Location) : Path :=
  ⟨Bytes.slash :: (Path.ofSegments (location.map Name.bytes)).bytes⟩

end TreePack
