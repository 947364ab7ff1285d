import TreePack.FileSystem.Basic
import TreePack.IoError

/-!
# Resolving paths

To resolve a path is to take its steps one by one from the root or from the working directory.
Every step needs a directory in which names may be looked up.  A symbolic link met on the way is
replaced by the steps of its target, up to `linkLimit` times in one resolution; the last step of a
path may also leave a link alone, depending on what the place is wanted for.  A relative path is
resolved only from a working directory that exists.

The recursion is on the number of links that may still be followed and, between two links, on the
steps that are left.
-/

namespace TreePack

inductive Step where
  | stay
  | up
  | down (n : Name)
  deriving DecidableEq

structure Route where
  fromRoot : Bool
  steps : List Step
  /-- The path ends in `/`, so its last step must lead to a directory. -/
  intoDir : Bool

namespace Route

def step? (segment : Bytes) : Option Step :=
  if segment = [] then none
  else match Component.ofSegment? segment with
    | some (.name n) => some (.down n)
    | some .parent => some .up
    | _ => some .stay

def ofPath (p : Path) : Route where
  fromRoot := p.isAbsolute
  steps := p.segments.filterMap step?
  intoDir := p.bytes.getLast? = some Bytes.slash

end Route

inductive Purpose where
  /-- To use what is there; a link at the end is followed. -/
  | use
  /-- To make a file there unless one exists; a link at the end is followed. -/
  | make
  /-- To look at or change the entry itself; a link at the end is left alone. -/
  | entry
  deriving DecidableEq

inductive Place where
  | found (location : Location)
  /-- The directory exists and has no entry of this name. -/
  | vacant (dir : Location) (n : Name)
  deriving DecidableEq

def linkLimit : Nat := 40

def nameLimit : Nat := 255

def pathLimit : Nat := 4095

namespace FileSystem

/-- Takes steps from `here`.  Links are handed over to `follow`, with the location that holds the
link, its target and the steps after it. -/
def advance (fs : FileSystem) (purpose : Purpose) (intoDir : Bool)
    (follow : Location → Path → List Step → Except IoError Place) :
    Location → List Step → Except IoError Place
  | here, [] => .ok (.found here)
  | here, step :: rest =>
      match fs.node? here with
      | none => .error .notFound
      | some (.dir mode entries) =>
          if !mode.maySearch then .error .accessDenied
          else match step with
            | .stay => advance fs purpose intoDir follow here rest
            | .up => advance fs purpose intoDir follow here.dropLast rest
            | .down n =>
                if rest = [] ∧ intoDir ∧ purpose = .make then .error .isADirectory
                else if nameLimit < n.bytes.length then .error .nameTooLong
                else match entries.lookup n with
                  | none => if rest = [] then .ok (.vacant here n) else .error .notFound
                  | some (.link target) =>
                      if rest = [] ∧ !intoDir ∧ purpose = .entry then
                        .ok (.found (here ++ [n]))
                      else follow here target rest
                  | some node =>
                      if rest = [] ∧ intoDir ∧ !node.isDir then .error .notADirectory
                      else advance fs purpose intoDir follow (here ++ [n]) rest
      | some _ => .error .notADirectory

def travel (fs : FileSystem) (purpose : Purpose) :
    (links : Nat) → (intoDir : Bool) → Location → List Step → Except IoError Place
  | 0, intoDir => fs.advance purpose intoDir fun _ _ _ => .error .tooManyLinks
  | links + 1, intoDir =>
      fs.advance purpose intoDir fun here target rest =>
        let route := Route.ofPath target
        fs.travel purpose links (if rest = [] then intoDir || route.intoDir else intoDir)
          (if route.fromRoot then [] else here) (route.steps ++ rest)

def resolve (fs : FileSystem) (purpose : Purpose) (p : Path) : Except IoError Place :=
  if p.bytes.contains 0 then .error .nulInPath
  else if p.bytes = [] then .error .notFound
  else if pathLimit < p.bytes.length then .error .nameTooLong
  else
    let route := Route.ofPath p
    fs.travel purpose linkLimit route.intoDir (if route.fromRoot then [] else fs.workingDir)
      route.steps

def locate (fs : FileSystem) (purpose : Purpose) (p : Path) : Except IoError Location :=
  match fs.resolve purpose p with
  | .ok (.found location) => .ok location
  | .ok (.vacant _ _) => .error .notFound
  | .error e => .error e

end FileSystem

end TreePack
