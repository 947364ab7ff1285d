import Mathlib.Tactic
import TreePack.Proofs.Resolution

/-!
# What access to files depends on

Looking a path up is resolving it and taking the node at the place where it leads.  So what `stat`,
`list` and `read` answer after a file has been rewritten is what they answered before, except that
a path which leads to the rewritten file reads the new contents.

A file that `create` has opened is empty and may be written, and its path leads to it.  Therefore
`create` can be used again, whatever was written to the file in between, and ends in the same tree.
-/

namespace TreePack

/-! ## Answers that can be checked by running -/

instance decidableExistsOk {ε α : Type} (answer : Except ε α) : Decidable (∃ a, answer = .ok a) :=
  match answer with
  | .ok a => .isTrue ⟨a, rfl⟩
  | .error _ => .isFalse nofun

instance decidableExistsOkAnd {ε α : Type} (answer : Except ε α) (p : α → Prop) [DecidablePred p] :
    Decidable (∃ a, answer = .ok a ∧ p a) :=
  match answer with
  | .ok a => decidable_of_iff (p a) (by simp)
  | .error _ => .isFalse nofun

namespace FileSystem

theorem lookUp_eq_ok_iff (fs : FileSystem) (purpose : Purpose) (p : Path) (location : Location)
    (node : Node) :
    fs.lookUp purpose p = .ok (location, node) ↔
      fs.locate purpose p = .ok location ∧ fs.node? location = some node := by
  unfold lookUp
  cases fs.locate purpose p with
  | error e => simp
  | ok found =>
      cases hnode : fs.node? found with
      | none =>
          simp only [hnode, reduceCtorEq, Except.ok.injEq, false_iff, not_and]
          rintro rfl
          simp [hnode]
      | some other =>
          simp only [hnode, Except.ok.injEq, Prod.mk.injEq, and_congr_right_iff]
          rintro rfl
          simp [hnode]

theorem node_of_lookUp_iff (fs : FileSystem) (purpose : Purpose) (p : Path) (node : Node) :
    (fs.lookUp purpose p).map Prod.snd = .ok node ↔
      ∃ location, fs.locate purpose p = .ok location ∧ fs.node? location = some node := by
  constructor
  · intro hnode
    cases hlook : fs.lookUp purpose p with
    | error e =>
        rw [hlook] at hnode
        contradiction
    | ok found =>
        rw [hlook] at hnode
        cases hnode
        exact ⟨found.1, (lookUp_eq_ok_iff fs purpose p found.1 found.2).1 hlook⟩
  · rintro ⟨location, hlocate⟩
    rw [(lookUp_eq_ok_iff fs purpose p location node).2 hlocate]
    rfl

theorem stat_eq_ok_iff (fs : FileSystem) (p : Path) (node : Node) :
    fs.stat p = .ok node ↔
      ∃ location, fs.locate .use p = .ok location ∧ fs.node? location = some node :=
  node_of_lookUp_iff fs .use p node

theorem linkStat_eq_ok_iff (fs : FileSystem) (p : Path) (node : Node) :
    fs.linkStat p = .ok node ↔
      ∃ location, fs.locate .entry p = .ok location ∧ fs.node? location = some node :=
  node_of_lookUp_iff fs .entry p node

theorem list_eq_ok_iff (fs : FileSystem) (p : Path) (entries : List (Name × Node)) :
    fs.list p = .ok entries ↔
      ∃ mode, fs.stat p = .ok (.dir mode entries) ∧ mode.mayRead = true := by
  unfold list
  cases fs.stat p with
  | error e => simp
  | ok node =>
      cases node with
      | dir mode listed =>
          cases hread : mode.mayRead with
          | false =>
              simp only [hread, Bool.false_eq_true, if_false, reduceCtorEq, Except.ok.injEq,
                Node.dir.injEq, false_iff, not_exists, not_and]
              rintro mode' ⟨rfl, _⟩
              simp [hread]
          | true => simp [hread]
      | file mode data => simp
      | link target => simp
      | fifo mode => simp
      | device kind => simp

theorem isDir_eq_true_iff (fs : FileSystem) (p : Path) :
    fs.isDir p = true ↔ ∃ mode entries, fs.stat p = .ok (.dir mode entries) := by
  unfold isDir
  cases fs.stat p with
  | error e => simp
  | ok node => cases node <;> simp [Node.isDir]

theorem linkStat_of_stat {fs : FileSystem} {p : Path} {node : Node}
    (hstat : fs.stat p = .ok node) :
    fs.linkStat p = .ok node ∨ ∃ target, fs.linkStat p = .ok (.link target) := by
  obtain ⟨location, hlocate, hnode⟩ := (stat_eq_ok_iff fs p node).1 hstat
  rw [locate_eq_ok_iff, resolve_eq_ok_iff] at hlocate
  rcases hlocate.2.entry_of_use with ⟨stop, hstop, hwhere⟩
  have hentry : fs.locate .entry p = .ok stop := by
    rw [locate_eq_ok_iff, resolve_eq_ok_iff]
    exact ⟨hlocate.1, hstop⟩
  rcases hwhere with rfl | ⟨target, hlink⟩
  · exact .inl ((linkStat_eq_ok_iff fs p node).2 ⟨stop, hentry, hnode⟩)
  · exact .inr ⟨target, (linkStat_eq_ok_iff fs p _).2 ⟨stop, hentry, hlink⟩⟩

/-! ## After a file has been rewritten -/

theorem map_lookUp_congr {fs other : FileSystem} {purpose : Purpose} {p : Path}
    {view : Node → Node} (hlocate : other.locate purpose p = fs.locate purpose p)
    (hview : ∀ location, fs.locate purpose p = .ok location →
      (other.node? location).map view = (fs.node? location).map view) :
    ((other.lookUp purpose p).map Prod.snd).map view =
      ((fs.lookUp purpose p).map Prod.snd).map view := by
  unfold lookUp
  rw [hlocate]
  cases hfound : fs.locate purpose p with
  | error e => rfl
  | ok location =>
      have hnode := hview location hfound
      cases hother : other.node? location <;> cases hfs : fs.node? location <;>
        simp_all [Except.map]

theorem map_stat_congr {fs other : FileSystem} {p : Path} {view : Node → Node}
    (hlocate : other.locate .use p = fs.locate .use p)
    (hview : ∀ location, fs.locate .use p = .ok location →
      (other.node? location).map view = (fs.node? location).map view) :
    (other.stat p).map view = (fs.stat p).map view :=
  map_lookUp_congr hlocate hview

theorem outline_stat_setData (fs : FileSystem) (location : Location) (data : Bytes) (p : Path) :
    ((fs.setData location data).stat p).map Node.outline = (fs.stat p).map Node.outline :=
  map_stat_congr (locate_setData fs location data .use p) fun other _ =>
    outline_node?_setData fs location other data

theorem isDir_congr {fs other : FileSystem} {p : Path}
    (hstat : (other.stat p).map Node.outline = (fs.stat p).map Node.outline) :
    other.isDir p = fs.isDir p := by
  unfold isDir
  cases hother : other.stat p <;> cases hfs : fs.stat p <;>
    simp_all only [Except.map, Except.ok.injEq, reduceCtorEq]
  exact Node.isDir_eq_of_outline_eq hstat

theorem isDir_setData (fs : FileSystem) (location : Location) (data : Bytes) (p : Path) :
    (fs.setData location data).isDir p = fs.isDir p :=
  isDir_congr (outline_stat_setData fs location data p)

theorem list_congr {fs other : FileSystem} {p : Path}
    (hstat : (other.stat p).map Node.outline = (fs.stat p).map Node.outline) :
    (other.list p).map (fun _ => ()) = (fs.list p).map (fun _ => ()) := by
  unfold list
  cases hother : other.stat p with
  | error e =>
      cases hfs : fs.stat p <;> simp_all [Except.map]
  | ok node =>
      cases hfs : fs.stat p with
      | error e => simp_all [Except.map]
      | ok node' =>
          rw [hother, hfs] at hstat
          cases node <;> cases node' <;> try simp_all [Except.map, Node.outline]
          case dir.dir mode entries mode' entries' =>
            cases mode'.mayRead <;> rfl

theorem read_congr {fs other : FileSystem} {p : Path}
    (hstat : (other.stat p).map Node.surface = (fs.stat p).map Node.surface) :
    other.read p = fs.read p := by
  unfold read
  cases hnew : other.stat p with
  | error e => cases hold : fs.stat p <;> simp_all [Except.map]
  | ok node =>
      cases hold : fs.stat p with
      | error e => simp_all [Except.map]
      | ok node' =>
          rw [hnew, hold] at hstat
          cases node <;> cases node' <;> simp_all [Except.map, Node.surface]

theorem outline_stat_of_surface {fs other : FileSystem} {p : Path}
    (hstat : (other.stat p).map Node.surface = (fs.stat p).map Node.surface) :
    (other.stat p).map Node.outline = (fs.stat p).map Node.outline := by
  cases hnew : other.stat p with
  | error e => cases hold : fs.stat p <;> simp_all [Except.map]
  | ok node =>
      cases hold : fs.stat p with
      | error e => simp_all [Except.map]
      | ok node' =>
          rw [hnew, hold] at hstat
          simp only [Except.map, Except.ok.injEq] at hstat ⊢
          exact Node.outline_eq_of_surface_eq hstat

theorem read_setData_of_ne {fs : FileSystem} {location : Location} {p : Path}
    (hne : fs.locate .use p ≠ .ok location) (data : Bytes) :
    (fs.setData location data).read p = fs.read p := by
  apply read_congr
  apply map_stat_congr (locate_setData fs location data .use p)
  intro other hother
  apply surface_node?_setData
  rintro rfl
  exact hne hother

/-! ## Creating a file -/

/-- The ways in which `create` comes to a result: it makes a file, empties one, or opens a device or
a named pipe, which leaves the tree as it is. -/
inductive Creates (fs : FileSystem) (p : Path) : FileSystem → Location → Prop
  | makes {dir : Location} {n : Name} {mode : Mode} {entries : List (Name × Node)} :
      fs.resolve .make p = .ok (.vacant dir n) → fs.node? dir = some (.dir mode entries) →
      entries.lookup n = none →
      Creates fs p (fs.insert dir n (.file .ordinaryFile []) (.file _ _)) (dir ++ [n])
  | empties {location : Location} {mode : Mode} {data : Bytes} :
      fs.resolve .make p = .ok (.found location) → fs.node? location = some (.file mode data) →
      mode.mayWrite = true → Creates fs p (fs.setData location []) location
  | opens {location : Location} {node : Node} :
      fs.resolve .make p = .ok (.found location) → fs.node? location = some node →
      node.isDir = false → node.isFile = false → (∀ target, node ≠ .link target) →
      Creates fs p fs location

theorem creates_of_create {fs made : FileSystem} {p : Path} {artifact : Location}
    (hcreate : fs.create p = .ok (made, artifact)) :
    fs.Creates p made artifact := by
  unfold create at hcreate
  cases hplace : fs.resolve .make p with
  | error e => simp [hplace] at hcreate
  | ok place =>
      rw [hplace] at hcreate
      cases place with
      | vacant dir n =>
          have hjourney := (resolve_eq_ok_iff fs .make p _).1 hplace
          obtain ⟨⟨mode, entries, hdir, _⟩, hnone⟩ := hjourney.2.vacant
          have hfree : entries.lookup n = none := by
            rw [← node?_entry hdir n]
            exact hnone
          simp only [hdir] at hcreate
          split at hcreate
          next =>
            cases hcreate
            exact .makes hplace hdir hfree
          next => contradiction
      | found location =>
          simp only at hcreate
          split at hcreate
          next mode data hfile =>
            split at hcreate
            next hwrite =>
              cases hcreate
              exact .empties hplace hfile hwrite
            next => contradiction
          next kind hdevice =>
            cases hcreate
            exact .opens hplace hdevice rfl rfl (by simp)
          next mode hfifo =>
            split at hcreate
            next =>
              cases hcreate
              exact .opens hplace hfifo rfl rfl (by simp)
            next => contradiction
          next => contradiction
          next => contradiction
          next => contradiction

theorem Creates.leads {fs made : FileSystem} {p : Path} {artifact : Location}
    (hcreates : fs.Creates p made artifact) :
    made.resolve .make p = .ok (.found artifact) := by
  cases hcreates with
  | @makes dir n mode entries hplace hdir hfree =>
      have hjourney := (resolve_eq_ok_iff fs .make p _).1 hplace
      have hnew := node?_insert_new hdir hfree (.file .ordinaryFile []) (.file _ _)
      have hwithin := within_root_insert fs dir n (.file .ordinaryFile []) (.file _ _)
      rw [resolve_eq_ok_iff]
      exact ⟨hjourney.1, Travels.arrive_made hwithin hnew rfl hjourney.2⟩
  | empties hplace _ _ =>
      rw [resolve_setData]
      exact hplace
  | opens hplace => exact hplace

/-- What is known of a regular file that has been opened for writing. -/
structure Opened (fs : FileSystem) (p : Path) (artifact : Location) : Prop where
  isEmpty : ∃ mode, fs.node? artifact = some (.file mode []) ∧ mode.mayWrite = true
  leads : fs.resolve .make p = .ok (.found artifact)

theorem opened_of_create {fs made : FileSystem} {p : Path} {artifact : Location}
    {mode : Mode} {data : Bytes}
    (hcreate : fs.create p = .ok (made, artifact))
    (hfile : made.node? artifact = some (.file mode data)) :
    made.Opened p artifact := by
  have hcreates := creates_of_create hcreate
  have hleads := hcreates.leads
  cases hcreates with
  | makes _ hdir hfree =>
      have hwrite : Mode.ordinaryFile.mayWrite = true := by decide
      exact ⟨⟨_, node?_insert_new hdir hfree _ _, hwrite⟩, hleads⟩
  | empties _ hold hwrite => exact ⟨⟨_, node?_setData_self hold [], hwrite⟩, hleads⟩
  | opens _ hnode _ hnotFile =>
      rw [hnode] at hfile
      cases hfile
      simp [Node.isFile] at hnotFile

/-- Whether a path can be opened for writing, its old contents dropped, as a regular file. -/
def opensFile (fs : FileSystem) (p : Path) : Bool :=
  match fs.create p with
  | .error _ => false
  | .ok (made, artifact) =>
      match made.node? artifact with
      | some (.file _ _) => true
      | _ => false

theorem opensFile_eq_true_iff (fs : FileSystem) (p : Path) :
    fs.opensFile p = true ↔
      ∃ made artifact mode data, fs.create p = .ok (made, artifact) ∧
        made.node? artifact = some (.file mode data) := by
  unfold opensFile
  constructor
  · intro hopens
    cases hcreate : fs.create p with
    | error e => simp [hcreate] at hopens
    | ok opened =>
        rw [hcreate] at hopens
        simp only at hopens
        split at hopens
        next mode data hfile => exact ⟨opened.1, opened.2, mode, data, rfl, hfile⟩
        next => contradiction
  · intro hopened
    rcases hopened with ⟨made, artifact, mode, data, hcreate, hfile⟩
    simp [hcreate, hfile]

theorem create_again {made : FileSystem} {p : Path} {artifact : Location}
    (hopened : made.Opened p artifact) (data : Bytes) :
    (made.setData artifact data).create p = .ok (made, artifact) := by
  rcases hopened.isEmpty with ⟨mode, hfile, hwrite⟩
  have hresolve : (made.setData artifact data).resolve .make p = .ok (.found artifact) := by
    rw [resolve_setData]
    exact hopened.leads
  unfold create
  simp only [hresolve, node?_setData_self hfile, hwrite, if_true]
  rw [setData_setData, setData_eq_self hfile]

/-! ## Writing to a file -/

theorem sight_of_write {fs written : FileSystem} {location : Location} {bytes : Bytes}
    (hwrite : fs.write location bytes = .ok written) :
    written.sight = fs.sight ∧ written.workingDir = fs.workingDir := by
  unfold write at hwrite
  split at hwrite
  next => contradiction
  next =>
    cases hwrite
    exact ⟨sight_update fs (Node.rewritesFiles_append bytes) location _, rfl⟩
  next =>
    cases hwrite
    exact ⟨rfl, rfl⟩

end FileSystem

end TreePack
