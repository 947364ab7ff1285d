import TreePack.FileSystem.Resolve

/-!
# Access to files

The operations through which a tree is read and an artifact is written.  Each of them starts by
resolving a path; only `create` and `write` change the tree, and they change one node.
-/

namespace TreePack.FileSystem

def lookUp (fs : FileSystem) (purpose : Purpose) (p : Path) : Except IoError (Location × Node) :=
  match fs.locate purpose p with
  | .error e => .error e
  | .ok location =>
      match fs.node? location with
      | some node => .ok (location, node)
      | none => .error .notFound

def stat (fs : FileSystem) (p : Path) : Except IoError Node :=
  (fs.lookUp .use p).map Prod.snd

/-- What a path names, which may be a link. -/
def linkStat (fs : FileSystem) (p : Path) : Except IoError Node :=
  (fs.lookUp .entry p).map Prod.snd

def isDir (fs : FileSystem) (p : Path) : Bool :=
  match fs.stat p with
  | .ok node => node.isDir
  | .error _ => false

def list (fs : FileSystem) (p : Path) : Except IoError (List (Name × Node)) :=
  match fs.stat p with
  | .ok (.dir mode entries) => if mode.mayRead then .ok entries else .error .accessDenied
  | .ok _ => .error .notADirectory
  | .error e => .error e

/-- The contents of the file that a path leads to.  A read that would never return counts as a
failed one. -/
def read (fs : FileSystem) (p : Path) : Except IoError Bytes :=
  match fs.stat p with
  | .ok (.file mode data) => if mode.mayRead then .ok data else .error .accessDenied
  | .ok (.dir mode _) => .error (if mode.mayRead then .isADirectory else .accessDenied)
  | .ok (.device .null) => .ok []
  | .ok (.device _) => .error (.other "endless input")
  | .ok (.fifo mode) => .error (if mode.mayRead then .other "endless input" else .accessDenied)
  | .ok (.link _) => .error .tooManyLinks
  | .error e => .error e

/-- The path of the working directory, which may have been removed. -/
def workingPath (fs : FileSystem) : Except IoError Path :=
  match fs.node? fs.workingDir with
  | some (.dir _ _) => .ok (Path.ofLocation fs.workingDir)
  | _ => .error .notFound

/-- Makes the file that a path leads to, or empties the one that is there, and returns its location
for writing.  A new file is an ordinary one; that its owner may read and write it supposes that the
process masks only permissions of others, as under the usual mask `0o022`. -/
def create (fs : FileSystem) (p : Path) : Except IoError (FileSystem × Location) :=
  match fs.resolve .make p with
  | .error e => .error e
  | .ok (.vacant dir n) =>
      match fs.node? dir with
      | some (.dir mode _) =>
          if mode.mayWrite then
            .ok (fs.insert dir n (.file .ordinaryFile []) (.file _ _), dir ++ [n])
          else .error .accessDenied
      | _ => .error .notADirectory
  | .ok (.found location) =>
      match fs.node? location with
      | some (.file mode _) =>
          if mode.mayWrite then .ok (fs.setData location [], location) else .error .accessDenied
      | some (.device _) => .ok (fs, location)
      | some (.fifo mode) =>
          if mode.mayWrite then .ok (fs, location) else .error .accessDenied
      | some (.dir _ _) => .error .isADirectory
      | some (.link _) => .error .tooManyLinks
      | none => .error .notFound

def write (fs : FileSystem) (location : Location) (bytes : Bytes) : Except IoError FileSystem :=
  match fs.node? location with
  | some (.device .full) => .error .noSpaceLeft
  | some (.file _ _) => .ok (fs.append location bytes)
  | _ => .ok fs

end TreePack.FileSystem
