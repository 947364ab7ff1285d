import TreePack.FileSystem.Access

/-!
# Canonical paths

The canonical path of a place is absolute, has neither `.` nor `..` in it and passes through no
link.  It is found by spelling: a path is followed step by step, and what has been reached is
written down as an absolute path.  Every entry on the way is looked at by the path written so far;
a link is replaced by its target.

So spelling is not resolution.  It never asks whether a directory may be searched from where it
stands, but each look does, and begins at the root of the tree even if the path is relative.  And a
look fails once the written path is longer than a path may be, however short the one that is
followed.
-/

namespace TreePack.FileSystem

/-- Takes steps from `here`, which is where the written path leads.  Links are handed over to
`follow` as in `advance`. -/
def spell (fs : FileSystem) (intoDir : Bool)
    (follow : Location → Path → List Step → Option Location) :
    Location → List Step → Option Location
  | here, [] => some here
  | here, .stay :: rest => spell fs intoDir follow here rest
  | here, .up :: rest => spell fs intoDir follow here.dropLast rest
  | here, .down n :: rest =>
      match fs.linkStat (Path.ofLocation (here ++ [n])) with
      | .error _ => none
      | .ok (.link target) => follow here target rest
      | .ok node =>
          if (rest ≠ [] ∨ intoDir) ∧ !node.isDir then none
          else spell fs intoDir follow (here ++ [n]) rest

def spellOut (fs : FileSystem) : (links : Nat) → (intoDir : Bool) → Location → List Step →
    Option Location
  | 0, intoDir => fs.spell intoDir fun _ _ _ => none
  | links + 1, intoDir =>
      fs.spell intoDir fun here target rest =>
        let route := Route.ofPath target
        fs.spellOut links (if rest = [] then intoDir || route.intoDir else intoDir)
          (if route.fromRoot then [] else here) (route.steps ++ rest)

/-- The place from which a path is spelled.  A relative one needs the path of the working
directory. -/
def spellingStart? (fs : FileSystem) (p : Path) : Option Location :=
  if p.isAbsolute then some []
  else fs.workingPath.toOption.map fun _ => fs.workingDir

def canonical? (fs : FileSystem) (p : Path) : Option Path :=
  if p.bytes.contains 0 ∨ p.bytes = [] then none
  else
    let route := Route.ofPath p
    ((fs.spellingStart? p).bind fun here =>
      fs.spellOut linkLimit route.intoDir here route.steps).map Path.ofLocation

end TreePack.FileSystem
