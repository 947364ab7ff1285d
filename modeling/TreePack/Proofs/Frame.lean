import Mathlib.Tactic
import TreePack.Proofs.Completion
import TreePack.Proofs.Creation

/-!
# What a run changes

While a run writes to its artifact the tree is `base`, the tree in which the artifact was opened,
but for the contents of the artifact; and if the artifact is no regular file, it is `base` itself.
The relation `Rewritten` says so.  It is kept by every write, whether or not the writes after it
fail, so it holds of the tree that a run leaves behind, whatever the outcome.

Together with what opening does this is the frame of a run: at every place other than that of the
artifact the tree is what it was.
-/

namespace TreePack

namespace FileSystem

/-- The tree is `base`, except that a regular file at this location may hold other contents. -/
inductive Rewritten (base : FileSystem) (artifact : Location) : FileSystem → Prop
  | unchanged : Rewritten base artifact base
  | changed {mode : Mode} {old : Bytes} (new : Bytes) :
      base.node? artifact = some (.file mode old) →
      Rewritten base artifact (base.setData artifact new)

section Rewritten

variable {base fs written : FileSystem} {artifact : Location}

theorem append_eq_setData {mode : Mode} {data : Bytes}
    (hfile : base.node? artifact = some (.file mode data)) (bytes : Bytes) :
    base.append artifact bytes = base.setData artifact (data ++ bytes) := by
  have happended := append_setData base artifact data bytes
  rwa [setData_eq_self hfile] at happended

theorem Rewritten.write (hfs : base.Rewritten artifact fs) {bytes : Bytes}
    (hwrite : fs.write artifact bytes = .ok written) :
    base.Rewritten artifact written := by
  unfold FileSystem.write at hwrite
  split at hwrite
  next => contradiction
  next mode data hfile =>
    cases hwrite
    cases hfs with
    | unchanged =>
        rw [append_eq_setData hfile]
        exact .changed _ hfile
    | changed new hold =>
        rw [append_setData]
        exact .changed _ hold
  next =>
    cases hwrite
    exact hfs

/-- A candidate that does not lead to the artifact is read as in `base`. -/
theorem Rewritten.readCandidate (hfs : base.Rewritten artifact fs) {c : Candidate}
    (hclear : base.locate .use c.path ≠ .ok artifact) :
    fs.readCandidate c = base.readCandidate c := by
  cases hfs with
  | unchanged => rfl
  | changed new _ =>
      unfold FileSystem.readCandidate
      rw [read_setData_of_ne hclear]

theorem Rewritten.sight (hfs : base.Rewritten artifact fs) :
    fs.sight = base.sight ∧ fs.workingDir = base.workingDir := by
  cases hfs with
  | unchanged => exact ⟨rfl, rfl⟩
  | changed new _ => exact ⟨sight_setData base artifact new, rfl⟩

theorem Rewritten.exists_file (hfs : base.Rewritten artifact fs) {mode : Mode} {data : Bytes}
    (hfile : base.node? artifact = some (.file mode data)) :
    ∃ data', fs.node? artifact = some (.file mode data') := by
  cases hfs with
  | unchanged => exact ⟨data, hfile⟩
  | changed new _ => exact ⟨new, node?_setData_self hfile new⟩

theorem Rewritten.eq_of_not_file (hfs : base.Rewritten artifact fs) {node : Node}
    (hnode : base.node? artifact = some node) (hnotFile : node.isFile = false) :
    fs = base := by
  cases hfs with
  | unchanged => rfl
  | changed new hfile =>
      rw [hnode] at hfile
      cases hfile
      simp [Node.isFile] at hnotFile

/-- Writing to the place that was made changes no other place. -/
theorem Rewritten.madeAt (hfs : base.Rewritten artifact written)
    (hmade : fs.MadeAt base artifact) :
    fs.MadeAt written artifact := by
  cases hfs with
  | unchanged => exact hmade
  | changed new hfile =>
      refine ⟨hmade.workingDir, ?_, ?_, ?_⟩
      · intro location hne
        rw [surface_node?_setData base hne]
        exact hmade.elsewhere location hne
      · intro location node hnode
        obtain ⟨inner, hinner, houtline⟩ := hmade.within location node hnode
        have hsight := within_of_sight_eq (sight_setData base artifact new)
        obtain ⟨inner', hinner', houtline'⟩ := hsight location inner hinner
        exact ⟨inner', hinner', houtline'.trans houtline⟩
      · exact ⟨_, node?_setData_self hfile new, rfl, by simp⟩

end Rewritten

end FileSystem

/-! ## Through the loop -/

namespace Sink

variable {base fs fs' : FileSystem} {artifact : Location} {sink sink' : Sink}

theorem flush_rewritten (hfs : base.Rewritten artifact fs) (hfile : sink.file = artifact)
    (hflush : sink.flush fs = .ok (fs', sink')) :
    base.Rewritten artifact fs' ∧ sink'.file = artifact := by
  unfold flush at hflush
  split at hflush
  next =>
    cases hflush
    exact ⟨hfs, hfile⟩
  next =>
    rw [hfile] at hflush
    cases hwrite : fs.write artifact sink.pending with
    | error e => simp [hwrite] at hflush
    | ok written =>
        simp only [hwrite, Except.ok.injEq, Prod.mk.injEq] at hflush
        obtain ⟨rfl, rfl⟩ := hflush
        exact ⟨hfs.write hwrite, rfl⟩

theorem write_rewritten (hfs : base.Rewritten artifact fs) (hfile : sink.file = artifact)
    {bytes : Bytes} (hwrite : sink.write fs bytes = .ok (fs', sink')) :
    base.Rewritten artifact fs' ∧ sink'.file = artifact := by
  unfold write at hwrite
  split at hwrite
  next =>
    cases hwrite
    exact ⟨hfs, hfile⟩
  next =>
    cases hflush : sink.flush fs with
    | error e => simp [hflush] at hwrite
    | ok flushed =>
        have hkept := flush_rewritten hfs hfile hflush
        simp only [hflush] at hwrite
        split at hwrite
        next =>
          cases hwrite
          exact hkept
        next =>
          rw [hkept.2] at hwrite
          cases hdirect : flushed.1.write artifact bytes with
          | error e => simp [hdirect] at hwrite
          | ok written =>
              simp only [hdirect, Except.ok.injEq, Prod.mk.injEq] at hwrite
              obtain ⟨rfl, rfl⟩ := hwrite
              exact ⟨hkept.1.write hdirect, hkept.2⟩

end Sink

namespace FileSystem

variable {base fs : FileSystem} {artifact : Location} {sink : Sink}

theorem packEach_rewritten (hfs : base.Rewritten artifact fs) (hfile : sink.file = artifact)
    (candidates : List Candidate) :
    base.Rewritten artifact (fs.packEach sink candidates).files ∧
      ∀ sink', (fs.packEach sink candidates).sink = .ok sink' → sink'.file = artifact := by
  induction candidates generalizing fs sink with
  | nil =>
      refine ⟨hfs, ?_⟩
      intro sink' hsink
      cases hsink
      exact hfile
  | cons c rest ih =>
      unfold packEach
      cases fs.readCandidate c with
      | error reason => exact ih hfs hfile
      | ok file =>
          cases hwrite : sink.write fs (Bytes.ofText file.record) with
          | error e =>
              simp only [hwrite]
              exact ⟨hfs, by simp⟩
          | ok next =>
              have hkept := Sink.write_rewritten hfs hfile hwrite
              simp only [hwrite]
              exact ih hkept.1 hkept.2

/-- The loop takes the candidates in their order, and all of them unless a record cannot be
written. -/
theorem packEach_candidates (fs : FileSystem) (sink : Sink) (candidates : List Candidate) :
    (fs.packEach sink candidates).entries.map Entry.candidate <+: candidates ∧
      ∀ sink', (fs.packEach sink candidates).sink = .ok sink' →
        (fs.packEach sink candidates).entries.map Entry.candidate = candidates := by
  induction candidates generalizing fs sink with
  | nil => simp [packEach]
  | cons c rest ih =>
      unfold packEach
      cases fs.readCandidate c with
      | error reason =>
          obtain ⟨hinitial, hall⟩ := ih fs sink
          simp only [List.map_cons, List.cons_prefix_cons, true_and, List.cons.injEq]
          exact ⟨hinitial, hall⟩
      | ok file =>
          cases hwrite : sink.write fs (Bytes.ofText file.record) with
          | error e => simp [hwrite]
          | ok next =>
              obtain ⟨hinitial, hall⟩ := ih next.1 next.2
              simp only [hwrite, List.map_cons, List.cons_prefix_cons, true_and, List.cons.injEq]
              exact ⟨hinitial, hall⟩

/-- The entry of a candidate that does not lead to the artifact says how it is read in `base`. -/
theorem packEach_outcome (hfs : base.Rewritten artifact fs) (hfile : sink.file = artifact)
    (candidates : List Candidate) :
    ∀ entry ∈ (fs.packEach sink candidates).entries,
      base.locate .use entry.candidate.path ≠ .ok artifact →
      entry.outcome = base.readCandidate entry.candidate := by
  induction candidates generalizing fs sink with
  | nil => simp [packEach]
  | cons c rest ih =>
      unfold packEach
      cases hread : fs.readCandidate c with
      | error reason =>
          simp only [List.mem_cons, forall_eq_or_imp]
          exact ⟨fun hclear => hread.symm.trans (hfs.readCandidate hclear), ih hfs hfile⟩
      | ok file =>
          cases hwrite : sink.write fs (Bytes.ofText file.record) with
          | error e => simp [hwrite]
          | ok next =>
              have hkept := Sink.write_rewritten hfs hfile hwrite
              simp only [hwrite, List.mem_cons, forall_eq_or_imp]
              exact ⟨fun hclear => hread.symm.trans (hfs.readCandidate hclear), ih hkept.1 hkept.2⟩

/-- If no candidate leads to the artifact, each entry says how its candidate is read in `base`. -/
theorem packEach_outcomes (hfs : base.Rewritten artifact fs) (hfile : sink.file = artifact)
    {candidates : List Candidate}
    (hclear : ∀ c ∈ candidates, base.locate .use c.path ≠ .ok artifact) :
    ∀ entry ∈ (fs.packEach sink candidates).entries,
      entry.outcome = base.readCandidate entry.candidate := by
  intro entry hentry
  have hmem : entry.candidate ∈ candidates :=
    (packEach_candidates fs sink candidates).1.subset (List.mem_map_of_mem hentry)
  exact packEach_outcome hfs hfile candidates entry hentry (hclear _ hmem)

end FileSystem

/-! ## Whole runs -/

namespace Job

variable {job : Job} {fs made : FileSystem} {artifact : Location}

theorem fill_rewritten (job : Job) (made : FileSystem) (artifact : Location) :
    made.Rewritten artifact (job.fill made artifact).files := by
  have hstart : made.Rewritten artifact made := .unchanged
  have hfile : Sink.file ⟨artifact, Bytes.ofText introduction⟩ = artifact := rfl
  have hloop := FileSystem.packEach_rewritten hstart hfile (made.candidates job.rules job.root)
  unfold fill
  dsimp only
  split
  next => exact hloop.1
  next sink hsink =>
    split
    next => exact hloop.1
    next files sink' hflush => exact (Sink.flush_rewritten hloop.1 (hloop.2 sink hsink) hflush).1

/-- What is known of a run that has completed.  Its summary and the lines that it printed are views
of its entries, which hold every candidate once. -/
structure Completes (job : Job) (fs made : FileSystem) (artifact : Location) (summary : Summary) :
    Prop where
  create : fs.create job.outputPath = .ok (made, artifact)
  candidates : (job.entries made artifact).map Entry.candidate =
    made.candidates job.rules job.root
  summary : summary = Job.summary summary.output (job.entries made artifact)
  lines : (job.run fs).lines = (job.entries made artifact).map Entry.line

theorem completes_of_fill {summary : Summary}
    (hresult : (job.fill made artifact).result = .ok summary) :
    (job.entries made artifact).map Entry.candidate = made.candidates job.rules job.root ∧
      summary = Job.summary summary.output (job.entries made artifact) := by
  have hall := (FileSystem.packEach_candidates made ⟨artifact, Bytes.ofText introduction⟩
    (made.candidates job.rules job.root)).2
  unfold fill at hresult
  dsimp only at hresult
  split at hresult
  next => contradiction
  next sink hsink =>
    split at hresult
    next => contradiction
    next =>
      cases hresult
      exact ⟨hall sink hsink, rfl⟩

theorem exists_completes {summary : Summary} (hresult : (job.run fs).result = .ok summary) :
    ∃ made artifact, job.Completes fs made artifact summary := by
  cases hcreate : fs.create job.outputPath with
  | error e =>
      rw [run_of_create_error hcreate] at hresult
      contradiction
  | ok opened =>
      obtain ⟨made, artifact⟩ := opened
      have hrun := run_of_create hcreate
      rw [hrun] at hresult
      obtain ⟨hcandidates, hsummary⟩ := completes_of_fill hresult
      exact ⟨made, artifact, hcreate, hcandidates, hsummary, by rw [hrun, lines_fill]⟩

end Job

/-! ## The tree afterwards -/

namespace FileSystem

theorem not_mem_names_iff {fs : FileSystem} {dir : Location} {mode : Mode}
    {entries : List (Name × Node)} (hdir : fs.node? dir = some (.dir mode entries)) (n : Name) :
    n ∉ entries.map Prod.fst ↔ fs.node? (dir ++ [n]) = none := by
  rw [node?_entry hdir, List.lookup_eq_none_iff]
  simp only [List.mem_map, not_exists, not_and, bne_iff_ne, ne_eq]
  constructor
  · intro hnone e he hn
    exact hnone e he hn.symm
  · intro hnone e he hn
    exact hnone e he hn.symm

/-- A place at which a file is opened for writing when this path is given: it holds a regular file,
or nothing yet, and the path leads to it through whatever links there are. -/
inductive OpensAt (fs : FileSystem) (p : Path) : Location → Prop
  | file {location : Location} {mode : Mode} {data : Bytes} :
      fs.resolve .make p = .ok (.found location) →
      fs.node? location = some (.file mode data) → OpensAt fs p location
  | vacant {dir : Location} {n : Name} :
      fs.resolve .make p = .ok (.vacant dir n) → fs.node? (dir ++ [n]) = none →
      OpensAt fs p (dir ++ [n])

/-- The second tree has a regular file at this location, which the first has too or has not, and is
otherwise the same: every other entry has the same contents, target and permissions, and every
directory has the same names, the file's own name apart. -/
structure SameButFor (fs after : FileSystem) (location : Location) : Prop where
  workingDir : after.workingDir = fs.workingDir
  file : ∃ mode data, after.node? location = some (.file mode data) ∧
    ((∃ old, fs.node? location = some (.file mode old)) ∨ fs.node? location = none)
  elsewhere : ∀ other, other ≠ location →
    (after.node? other).map Node.surface = (fs.node? other).map Node.surface
  names : ∀ dir mode entries, fs.node? dir = some (.dir mode entries) →
    ∃ entries', after.node? dir = some (.dir mode entries') ∧
      ∀ n, dir ++ [n] ≠ location → (n ∈ entries'.map Prod.fst ↔ n ∈ entries.map Prod.fst)

theorem MadeAt.names {fs made : FileSystem} {artifact : Location} (hmade : fs.MadeAt made artifact)
    {dir : Location} {mode : Mode} {entries : List (Name × Node)}
    (hdir : fs.node? dir = some (.dir mode entries)) :
    ∃ entries', made.node? dir = some (.dir mode entries') ∧
      ∀ n, dir ++ [n] ≠ artifact → (n ∈ entries'.map Prod.fst ↔ n ∈ entries.map Prod.fst) := by
  obtain ⟨node, hnode, houtline⟩ := hmade.within dir _ hdir
  cases node <;> simp only [Node.outline, Node.dir.injEq, reduceCtorEq] at houtline
  case dir mode' entries' =>
    obtain ⟨rfl, _⟩ := houtline
    refine ⟨entries', hnode, ?_⟩
    intro n hne
    have hsurface := hmade.elsewhere (dir ++ [n]) hne
    rw [← not_iff_not, not_mem_names_iff hnode, not_mem_names_iff hdir,
      ← Option.map_eq_none_iff (f := Node.surface), hsurface, Option.map_eq_none_iff]

/-- The tree after writing to an artifact that has been opened as a regular file. -/
theorem Rewritten.sameButFor {fs base after : FileSystem} {artifact : Location}
    (hafter : base.Rewritten artifact after) (hmade : fs.MadeAt base artifact) {mode : Mode}
    {data : Bytes} (hfile : base.node? artifact = some (.file mode data))
    (hbefore : (∃ old, fs.node? artifact = some (.file mode old)) ∨ fs.node? artifact = none) :
    fs.SameButFor after artifact := by
  have hwritten := hafter.madeAt hmade
  obtain ⟨data', hfile'⟩ := hafter.exists_file hfile
  exact ⟨hwritten.workingDir, ⟨mode, data', hfile', hbefore⟩, hwritten.elsewhere,
    fun dir mode entries hdir => hwritten.names hdir⟩

end FileSystem

/-- However a run ends, it leaves the tree as it was, or changes it at the one place that the path
of the artifact leads to: the contents of the file there are other ones, or the file is new.  A run
that cannot open its artifact leaves the tree as it was. -/
theorem Job.run_changes_artifact_only (job : Job) (fs : FileSystem) :
    ((job.run fs).files = fs ∨
        ∃ artifact, fs.OpensAt job.outputPath artifact ∧
          (job.run fs).files.locate .use job.outputPath = .ok artifact ∧
          fs.SameButFor (job.run fs).files artifact) ∧
      ∀ e, fs.create job.outputPath = .error e → (job.run fs).files = fs := by
  constructor
  · cases hcreate : fs.create job.outputPath with
    | error e =>
        left
        rw [run_of_create_error hcreate]
    | ok opened =>
        obtain ⟨made, artifact⟩ := opened
        have hmade := FileSystem.madeAt_of_create hcreate
        have hafter := job.fill_rewritten made artifact
        have hleads : (job.fill made artifact).files.locate .use job.outputPath = .ok artifact := by
          rw [FileSystem.locate_congr hafter.sight.1 hafter.sight.2]
          exact FileSystem.locate_of_create hcreate
        rw [run_of_create hcreate]
        cases FileSystem.creates_of_create hcreate with
        | @makes dir n mode entries hplace hdir hfree =>
            have hvacant : fs.node? (dir ++ [n]) = none := by
              rw [FileSystem.node?_entry hdir, hfree]
            have hnew := FileSystem.node?_insert_new hdir hfree (.file .ordinaryFile []) (.file _ _)
            exact .inr ⟨dir ++ [n], .vacant hplace hvacant, hleads,
              hafter.sameButFor hmade hnew (.inr hvacant)⟩
        | empties hplace hold _ =>
            have hempty := FileSystem.node?_setData_self hold []
            exact .inr ⟨artifact, .file hplace hold, hleads,
              hafter.sameButFor hmade hempty (.inl ⟨_, hold⟩)⟩
        | opens _ hnode _ hnotFile _ => exact .inl (hafter.eq_of_not_file hnode hnotFile)
  · intro e hcreate
    rw [run_of_create_error hcreate]

end TreePack
