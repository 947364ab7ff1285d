import TreePack.Text.Utf8

/-!
# Paths

A path is a byte string.  Read as a place, it is a sequence of components: the root, a `.` that
opens the path, `..`, and names.  Empty segments and other segments `.` are silent, so two paths
with the same components are the same place although their texts may differ.

`Path.join` works on the text and `Path.stripPrefix?` on the components: what is left of a path
after its first components keeps its own spelling, apart from silent segments at either end.

A path is shown by reading its bytes lossily.  Below a root it is shown relative to that root and
with a leading `./`; a path that does not lie below the root is shown whole.
-/

namespace TreePack

/-- The name of an entry in a directory: one segment of a path that is neither empty, `.` nor
`..`. -/
structure Name where
  bytes : Bytes
  valid : bytes ≠ [] ∧ bytes ≠ [Bytes.dot] ∧ bytes ≠ [Bytes.dot, Bytes.dot]
    ∧ Bytes.slash ∉ bytes
  deriving DecidableEq

inductive Component where
  | root
  | here
  | parent
  | name (n : Name)
  deriving DecidableEq

/-- The component that a segment of a path stands for; a silent segment stands for none. -/
def Component.ofSegment? (segment : Bytes) : Option Component :=
  if valid : segment ≠ [] ∧ segment ≠ [Bytes.dot] ∧ segment ≠ [Bytes.dot, Bytes.dot]
      ∧ Bytes.slash ∉ segment then
    some (.name ⟨segment, valid⟩)
  else if segment = [Bytes.dot, Bytes.dot] then some .parent
  else none

structure Path where
  bytes : Bytes
  deriving DecidableEq

namespace Path

def ofText (text : String) : Path := ⟨Bytes.ofText text⟩

def ofName (n : Name) : Path := ⟨n.bytes⟩

def split : Bytes → List Bytes
  | [] => [[]]
  | b :: rest => if b = Bytes.slash then [] :: split rest else (split rest).modifyHead (b :: ·)

def ofSegments (segments : List Bytes) : Path :=
  ⟨List.intercalate [Bytes.slash] segments⟩

def segments (p : Path) : List Bytes := split p.bytes

def isAbsolute (p : Path) : Bool := p.bytes.head? = some Bytes.slash

/-- The path `p` seen from `base`.  An absolute path replaces the base. -/
def join (base p : Path) : Path :=
  if p.isAbsolute then p
  else if base.bytes = [] ∨ base.bytes.getLast? = some Bytes.slash then ⟨base.bytes ++ p.bytes⟩
  else ⟨base.bytes ++ Bytes.slash :: p.bytes⟩

def descend (base : Path) (trail : List Name) : Path :=
  trail.foldl (fun p n => p.join (ofName n)) base

/-- The component that only the beginning of a path can hold, and the segments after it. -/
def head (p : Path) : Option Component × List Bytes :=
  match p.segments with
  | [] :: rest@(_ :: _) => (some .root, rest)
  | first :: rest => if first = [Bytes.dot] then (some .here, rest) else (none, first :: rest)
  | [] => (none, [])

def components (p : Path) : List Component :=
  p.head.1.toList ++ p.head.2.filterMap Component.ofSegment?

def isSilent (segment : Bytes) : Bool := (Component.ofSegment? segment).isNone

def dropSilentEnd (segments : List Bytes) : List Bytes :=
  (segments.reverse.dropWhile isSilent).reverse

/-- The segments that are left after the given components have been taken from the front. -/
def afterComponents? : List Component → List Bytes → Option (List Bytes)
  | [], segments => some segments
  | _ :: _, [] => none
  | c :: cs, segment :: segments =>
      match Component.ofSegment? segment with
      | none => afterComponents? (c :: cs) segments
      | some d => if c = d then afterComponents? cs segments else none

def trimEnd (p : Path) : Path :=
  match p.head with
  | (some .root, rest) => ⟨Bytes.slash :: (ofSegments (dropSilentEnd rest)).bytes⟩
  | (some .here, rest) => ofSegments ([Bytes.dot] :: dropSilentEnd rest)
  | (_, rest) => ofSegments (dropSilentEnd rest)

/-- What is left of `p` below `base`, if the components of `base` are the first ones of `p`. -/
def stripPrefix? (base p : Path) : Option Path :=
  let body (cs : List Component) :=
    (afterComponents? cs p.head.2).map fun rest =>
      ofSegments (dropSilentEnd (rest.dropWhile isSilent))
  match base.components, p.head.1 with
  | [], _ => some p.trimEnd
  | c :: cs, some d => if c = d then body cs else none
  | cs, none => body cs

def fileName? (p : Path) : Option Name :=
  match p.components.getLast? with
  | some (.name n) => some n
  | _ => none

def display (p : Path) : String := Utf8.lossy p.bytes

def displayBelow (root p : Path) : String :=
  ((Path.mk [Bytes.dot]).join ((stripPrefix? root p).getD p)).display

end Path

def Name.display (n : Name) : String := Utf8.lossy n.bytes

end TreePack
