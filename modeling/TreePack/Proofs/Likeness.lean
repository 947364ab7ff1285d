import Mathlib.Tactic
import TreePack.Proofs.Creation
import TreePack.Proofs.Lockstep

/-!
# Trees that are alike outside some directories

Every operation on files has the same result in trees that are alike outside some directories, if
the resolution of its path stays outside: reading and listing, opening an artifact, writing to it.
After the last two the trees are alike again.
-/

namespace TreePack.FileSystem

section Access

variable {dirs : Set Location} {fs other : FileSystem} (halike : AlikeOutside dirs fs other)
  {p : Path} (hstays : fs.StaysOutside dirs p)

include halike hstays

theorem AlikeOutside.stat :
    (other.stat p).map Node.surface = (fs.stat p).map Node.surface := by
  apply map_stat_congr (halike.locate_eq hstays .use)
  intro location hlocate
  rw [locate_eq_ok_iff] at hlocate
  exact halike.surface location (hstays.stop (by simp) hlocate)

theorem AlikeOutside.isDir_eq : other.isDir p = fs.isDir p :=
  isDir_congr (outline_stat_of_surface (halike.stat hstays))

theorem AlikeOutside.list :
    (other.list p).map (fun _ => ()) = (fs.list p).map (fun _ => ()) :=
  list_congr (outline_stat_of_surface (halike.stat hstays))

theorem AlikeOutside.read_eq : other.read p = fs.read p :=
  read_congr (halike.stat hstays)

end Access

/-! ## Changes that keep trees alike -/

section Changes

variable {dirs : Set Location} {fs other : FileSystem} (halike : AlikeOutside dirs fs other)
  {location : Location}

include halike

theorem AlikeOutside.update (houtside : Outside dirs location) {f : Node → Node}
    (hf : Node.RewritesFiles f) (hwf : ∀ node, node.WellFormed → (f node).WellFormed) :
    AlikeOutside dirs (fs.update location f hwf) (other.update location f hwf) := by
  have hself : ∀ fs : FileSystem,
      (fs.update location f hwf).node? location = (fs.node? location).map f :=
    fun fs => Node.get?_update_self f location fs.root
  have helsewhere : ∀ (fs : FileSystem) (place : Location), place ≠ location →
      ((fs.update location f hwf).node? place).map Node.surface =
        (fs.node? place).map Node.surface :=
    fun fs place hne => Node.surface_get?_update hf hne fs.root
  have hkept : ∀ (fs : FileSystem) (dir : Location), (fs.node? dir).any Node.isDir = true →
      ((fs.update location f hwf).node? dir).any Node.isDir = true :=
    fun fs _ => any_isDir_of_within (within_of_sight_eq (sight_update fs hf location hwf))
  refine ⟨halike.workingDir, ?_, ?_⟩
  · intro place hplace
    by_cases heq : place = location
    · subst place
      have hsurface := halike.surface location houtside
      rw [hself, hself]
      cases hnode : fs.node? location <;> cases hnode' : other.node? location <;>
        rw [hnode, hnode'] at hsurface <;> simp only [Option.map_some, Option.map_none,
          reduceCtorEq, Option.some.injEq] at hsurface ⊢
      case some.some node node' => exact Node.RewritesFiles.surface_congr hf hsurface
    · rw [helsewhere fs place heq, helsewhere other place heq]
      exact halike.surface place hplace
  · intro dir hdir
    exact ⟨hkept fs dir (halike.isDir dir hdir).1, hkept other dir (halike.isDir dir hdir).2⟩

theorem AlikeOutside.write_agree (houtside : Outside dirs location) (bytes : Bytes) :
    Agree (AlikeOutside dirs) (fs.write location bytes) (other.write location bytes) := by
  have hsurface := halike.surface location houtside
  have happended := halike.update houtside (Node.rewritesFiles_append bytes)
    fun _ => Node.WellFormed.append bytes
  unfold write
  cases hnode : fs.node? location <;> cases hnode' : other.node? location <;>
    rw [hnode, hnode'] at hsurface <;> simp only [Option.map_some, Option.map_none,
      reduceCtorEq, Option.some.injEq] at hsurface
  case none.none => exact .ok halike
  case some.some node node' =>
    cases node <;> cases node' <;> simp only [Node.surface, reduceCtorEq] at hsurface
    case file.file => exact .ok happended
    case dir.dir => exact .ok halike
    case link.link => exact .ok halike
    case fifo.fifo => exact .ok halike
    case device.device kind kind' =>
      cases hsurface
      cases kind
      case full => exact .error .noSpaceLeft
      all_goals exact .ok halike

theorem AlikeOutside.insert {mode mode' : Mode} {entries entries' : List (Name × Node)} {n : Name}
    (hdir : fs.node? location = some (.dir mode entries)) (hfree : entries.lookup n = none)
    (hdir' : other.node? location = some (.dir mode' entries'))
    (hfree' : entries'.lookup n = none) {child : Node} (hchild : child.WellFormed)
    (hfile : child.isFile = true) :
    AlikeOutside dirs (fs.insert location n child hchild) (other.insert location n child hchild) := by
  have hkept : ∀ (fs : FileSystem) (dir : Location), (fs.node? dir).any Node.isDir = true →
      ((fs.insert location n child hchild).node? dir).any Node.isDir = true :=
    fun fs _ => any_isDir_of_within (within_root_insert fs location n child hchild)
  refine ⟨halike.workingDir, ?_, ?_⟩
  · intro place hplace
    by_cases heq : place = location ++ [n]
    · subst place
      rw [node?_insert_new hdir hfree, node?_insert_new hdir' hfree']
    · rw [surface_node?_insert fs heq hfile, surface_node?_insert other heq hfile]
      exact halike.surface place hplace
  · intro dir hmem
    exact ⟨hkept fs dir (halike.isDir dir hmem).1, hkept other dir (halike.isDir dir hmem).2⟩

end Changes

/-! ## Opening an artifact -/

/-- Both trees are alike again, and the artifact lies in one place outside. -/
def OpenAlike (dirs : Set Location) (x y : FileSystem × Location) : Prop :=
  AlikeOutside dirs x.1 y.1 ∧ y.2 = x.2 ∧ Outside dirs x.2

section Opening

variable {dirs : Set Location} {fs other : FileSystem} (halike : AlikeOutside dirs fs other)
  {p : Path}

include halike

theorem AlikeOutside.create_vacant {dir : Location} {n : Name} (houtside : Outside dirs dir)
    (hplace : fs.resolve .make p = .ok (.vacant dir n))
    (hplace' : other.resolve .make p = .ok (.vacant dir n)) :
    Agree (OpenAlike dirs) (fs.create p) (other.create p) := by
  have hsurface := halike.surface dir houtside
  have hnone := ((resolve_eq_ok_iff fs .make p _).1 hplace).2.vacant.2
  have hnone' := ((resolve_eq_ok_iff other .make p _).1 hplace').2.vacant.2
  have hnew : Outside dirs (dir ++ [n]) := by
    by_contra hinside
    have hdir := (halike.isDir _ (mem_of_not_outside_concat houtside hinside)).1
    rw [hnone] at hdir
    contradiction
  unfold create
  simp only [hplace, hplace']
  cases hnode : fs.node? dir <;> cases hnode' : other.node? dir <;>
    rw [hnode, hnode'] at hsurface <;> simp only [Option.map_some, Option.map_none,
      reduceCtorEq, Option.some.injEq] at hsurface
  case none.none => exact .error .notADirectory
  case some.some node node' =>
    cases node <;> cases node' <;> simp only [Node.surface, reduceCtorEq] at hsurface
    case dir.dir mode entries mode' entries' =>
      simp only [Node.dir.injEq, and_true] at hsurface
      subst mode'
      rw [node?_entry hnode] at hnone
      rw [node?_entry hnode'] at hnone'
      simp only
      split
      next => exact .ok ⟨halike.insert hnode hnone hnode' hnone' (.file _ _) rfl, rfl, hnew⟩
      next => exact .error .accessDenied
    all_goals exact .error .notADirectory

theorem AlikeOutside.create_found {location : Location} (houtside : Outside dirs location)
    (hplace : fs.resolve .make p = .ok (.found location))
    (hplace' : other.resolve .make p = .ok (.found location)) :
    Agree (OpenAlike dirs) (fs.create p) (other.create p) := by
  have hsurface := halike.surface location houtside
  have hemptied := halike.update houtside (Node.rewritesFiles_setData [])
    fun _ => Node.WellFormed.setData []
  unfold create
  simp only [hplace, hplace']
  cases hnode : fs.node? location <;> cases hnode' : other.node? location <;>
    rw [hnode, hnode'] at hsurface <;> simp only [Option.map_some, Option.map_none,
      reduceCtorEq, Option.some.injEq] at hsurface
  case none.none => exact .error .notFound
  case some.some node node' =>
    cases node <;> cases node' <;> simp only [Node.surface, reduceCtorEq] at hsurface
    case file.file mode data mode' data' =>
      cases hsurface
      simp only
      split
      next => exact .ok ⟨hemptied, rfl, houtside⟩
      next => exact .error .accessDenied
    case dir.dir => exact .error .isADirectory
    case link.link => exact .error .tooManyLinks
    case fifo.fifo =>
      cases hsurface
      simp only
      split
      next => exact .ok ⟨halike, rfl, houtside⟩
      next => exact .error .accessDenied
    case device.device => exact .ok ⟨halike, rfl, houtside⟩

theorem AlikeOutside.create_agree (hstays : fs.StaysOutside dirs p) :
    Agree (OpenAlike dirs) (fs.create p) (other.create p) := by
  have hresolve := halike.resolve_eq hstays .make
  cases hplace : fs.resolve .make p with
  | error e =>
      rw [hplace] at hresolve
      unfold create
      rw [hplace, hresolve]
      exact .error e
  | ok place =>
      rw [hplace] at hresolve
      have houtside := hstays.stop (by simp) hplace
      cases place with
      | vacant dir n => exact halike.create_vacant houtside hplace hresolve
      | found location => exact halike.create_found houtside hplace hresolve

end Opening

end TreePack.FileSystem
