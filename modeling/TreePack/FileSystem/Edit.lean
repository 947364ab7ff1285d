import TreePack.FileSystem.Access

/-!
# Building trees

Operations that lay out a tree before it is packed or change it between two runs.  Where an
operation has nothing to work on, it leaves the tree as it is.
-/

namespace TreePack.FileSystem

/-- A tree that is an empty directory, entered as the working directory. -/
def bare : FileSystem := ⟨.dir .ordinaryDir [], .of_empty_dir _, []⟩

def built (edits : List (FileSystem → FileSystem)) : FileSystem :=
  edits.foldl (fun fs edit => edit fs) bare

/-- The name of the directory below the root that a built tree keeps its project in. -/
def projName : Name := ⟨Bytes.ofText "proj", by decide +kernel⟩

/-- Adds a node where a path leads to a vacant place. -/
def putNew (fs : FileSystem) (p : Path) (node : Node) (hnode : node.WellFormed) : FileSystem :=
  match fs.resolve .entry p with
  | .ok (.vacant dir n) => fs.insert dir n node hnode
  | _ => fs

/-- The paths on the way to `p`, outermost first, without `p` itself. -/
def ancestors (p : Path) : List Path :=
  let segments := p.segments
  (List.range segments.length).tail.map fun k => Path.ofSegments (segments.take k)

def makeDirs (fs : FileSystem) (p : Path) : FileSystem :=
  (ancestors p ++ [p]).foldl
    (fun fs p => fs.putNew p (.dir .ordinaryDir []) (.of_empty_dir _)) fs

def makeParents (fs : FileSystem) (p : Path) : FileSystem :=
  (ancestors p).foldl
    (fun fs p => fs.putNew p (.dir .ordinaryDir []) (.of_empty_dir _)) fs

def putFile (fs : FileSystem) (p : Path) (data : Bytes) : FileSystem :=
  match (fs.makeParents p).create p with
  | .ok (fs, location) => fs.setData location data
  | .error _ => fs.makeParents p

/-- Makes a symbolic link.  Its target need not exist, but it must be a possible path. -/
def putLink (fs : FileSystem) (p target : Path) : FileSystem :=
  if target.bytes = [] ∨ pathLimit < target.bytes.length ∨ target.bytes.contains 0 then
    fs.makeParents p
  else (fs.makeParents p).putNew p (.link target) (.link target)

def putFifo (fs : FileSystem) (p : Path) : FileSystem :=
  (fs.makeParents p).putNew p (.fifo .ordinaryFile) (.fifo _)

def changeMode (fs : FileSystem) (p : Path) (mode : Mode) : FileSystem :=
  match fs.locate .use p with
  | .ok location => fs.setMode location mode
  | .error _ => fs

def remove (fs : FileSystem) (p : Path) : FileSystem :=
  match fs.locate .entry p with
  | .ok location =>
      match location.getLast? with
      | some n => fs.erase location.dropLast n
      | none => fs
  | .error _ => fs

def rename (fs : FileSystem) (p q : Path) : FileSystem :=
  match fs.locate .entry p with
  | .error _ => fs
  | .ok source =>
      match hnode : fs.node? source with
      | none => fs
      | some node =>
          have hwf : node.WellFormed := fs.wellFormed.get hnode
          match fs.resolve .entry q with
          | .ok (.vacant dir n) => (fs.remove p).insert dir n node hwf
          | .ok (.found target) =>
              match target.getLast? with
              | some n =>
                  if target = source then fs
                  else ((fs.erase target.dropLast n).remove p).insert target.dropLast n node hwf
              | none => fs
          | .error _ => fs

end TreePack.FileSystem
