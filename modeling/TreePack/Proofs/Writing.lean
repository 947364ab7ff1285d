import Mathlib.Tactic
import TreePack.Proofs.Access
import TreePack.Run

/-!
# Writing an artifact

While a run writes a regular file, the tree differs from the tree at the start of the run, called
`base` here, in the contents of that file alone.  The bytes that have reached the file and those
that the sink still holds back make up the text written so far; as long as this text fits the
buffer, nothing has reached the file.  This invariant, `Sink.Holds`, is kept by each operation of
the sink, and so by the loop over the candidates.

Therefore no operation of the sink fails, the loop reaches its end, and the artifact ends up with
the introduction and the records of the files that were read.  A candidate that does not lead to
the artifact is read as it would be read in `base`, and so is every candidate if all that is written
fits the buffer.
-/

namespace TreePack

def recordBytes (files : List PackedFile) : Bytes :=
  files.flatMap fun file => Bytes.ofText file.record

/-- The contents of the artifact of these files. -/
def artifactBytes (files : List PackedFile) : Bytes :=
  Bytes.ofText introduction ++ recordBytes files

@[simp] theorem recordBytes_nil : recordBytes [] = [] := rfl

@[simp] theorem recordBytes_cons (file : PackedFile) (rest : List PackedFile) :
    recordBytes (file :: rest) = Bytes.ofText file.record ++ recordBytes rest := rfl

theorem recordBytes_append (before after : List PackedFile) :
    recordBytes (before ++ after) = recordBytes before ++ recordBytes after := by
  unfold recordBytes
  rw [List.flatMap_append]

@[simp] theorem Entry.packed?_ok (c : Candidate) (file : PackedFile) :
    Entry.packed? ⟨c, .ok file⟩ = some file := rfl

@[simp] theorem Entry.packed?_error (c : Candidate) (reason : SkipReason) :
    Entry.packed? ⟨c, .error reason⟩ = none := rfl

namespace FileSystem

/-- The candidates with what becomes of them if all are read in one tree. -/
def outcomes (fs : FileSystem) (candidates : List Candidate) : List Entry :=
  candidates.map fun c => ⟨c, fs.readCandidate c⟩

def filesRead (fs : FileSystem) (candidates : List Candidate) : List PackedFile :=
  candidates.filterMap fun c => (fs.readCandidate c).toOption

theorem filesRead_cons_of_ok {fs : FileSystem} {c : Candidate} {file : PackedFile}
    (hread : fs.readCandidate c = .ok file) (rest : List Candidate) :
    fs.filesRead (c :: rest) = file :: fs.filesRead rest := by
  simp [filesRead, hread, Except.toOption]

theorem filesRead_cons_of_error {fs : FileSystem} {c : Candidate} {reason : SkipReason}
    (hread : fs.readCandidate c = .error reason) (rest : List Candidate) :
    fs.filesRead (c :: rest) = fs.filesRead rest := by
  simp [filesRead, hread, Except.toOption]

theorem filesRead_append (fs : FileSystem) (before after : List Candidate) :
    fs.filesRead (before ++ after) = fs.filesRead before ++ fs.filesRead after := by
  unfold filesRead
  rw [List.filterMap_append]

theorem filterMap_packed?_outcomes (fs : FileSystem) (candidates : List Candidate) :
    (fs.outcomes candidates).filterMap Entry.packed? = fs.filesRead candidates := by
  unfold outcomes filesRead
  rw [List.filterMap_map]
  rfl

end FileSystem

/-- The tree is `base` with part of `text` written to the artifact, and the sink holds the rest. -/
structure Sink.Holds (base : FileSystem) (artifact : Location) (text : Bytes)
    (fs : FileSystem) (sink : Sink) : Prop where
  file : sink.file = artifact
  notEmpty : text ≠ []
  split : ∃ written, fs = base.setData artifact written ∧ written ++ sink.pending = text ∧
    (text.length ≤ Sink.capacity → written = [])

section RegularFile

variable {base : FileSystem} {artifact : Location} {mode : Mode}
  (hartifact : base.node? artifact = some (.file mode []))

include hartifact

theorem FileSystem.write_setData (written bytes : Bytes) :
    (base.setData artifact written).write artifact bytes =
      .ok (base.setData artifact (written ++ bytes)) := by
  unfold FileSystem.write
  rw [FileSystem.node?_setData_self hartifact]
  simp only [FileSystem.append_setData]

namespace Sink

variable {text : Bytes} {fs : FileSystem} {sink : Sink}

theorem holds_start (htext : text ≠ []) :
    Holds base artifact text base ⟨artifact, text⟩ := by
  have hempty : base.setData artifact [] = base := FileSystem.setData_eq_self hartifact
  exact ⟨rfl, htext, [], hempty.symm, rfl, fun _ => rfl⟩

theorem Holds.flush_eq (hholds : Holds base artifact text fs sink) :
    sink.flush fs = .ok (base.setData artifact text, ⟨artifact, []⟩) := by
  rcases hholds.split with ⟨written, hfs, htext, _⟩
  have hfile := hholds.file
  subst fs artifact
  unfold Sink.flush
  by_cases hpending : sink.pending = []
  · rw [if_pos hpending]
    rw [hpending, List.append_nil] at htext
    rw [htext, ← hpending]
  · rw [if_neg hpending, FileSystem.write_setData hartifact, htext]

theorem Holds.write_ok (hholds : Holds base artifact text fs sink) (bytes : Bytes) :
    ∃ fs' sink', sink.write fs bytes = .ok (fs', sink') ∧
      Holds base artifact (text ++ bytes) fs' sink' := by
  have hmore : text ++ bytes ≠ [] := by simp [hholds.notEmpty]
  unfold Sink.write
  by_cases hfits : sink.pending.length + bytes.length ≤ capacity ∧ bytes.length < capacity
  · rw [if_pos hfits]
    rcases hholds.split with ⟨written, hfs, htext, hsmall⟩
    have htext' : written ++ (sink.pending ++ bytes) = text ++ bytes := by
      rw [← List.append_assoc, htext]
    have hsmall' : (text ++ bytes).length ≤ capacity → written = [] := by
      intro hlength
      apply hsmall
      rw [List.length_append] at hlength
      omega
    exact ⟨_, _, rfl, hholds.file, hmore, written, hfs, htext', hsmall'⟩
  · have hlarge : ¬(text ++ bytes).length ≤ capacity := by
      intro hlength
      rcases hholds.split with ⟨written, _, htext, hsmall⟩
      have hpositive : 0 < text.length := List.length_pos_iff.2 hholds.notEmpty
      rw [List.length_append] at hlength
      rw [hsmall (by omega), List.nil_append] at htext
      rw [htext] at hfits
      omega
    rw [if_neg hfits, hholds.flush_eq hartifact]
    by_cases hshort : bytes.length < capacity
    · have hholds' : Holds base artifact (text ++ bytes) (base.setData artifact text)
          ⟨artifact, bytes⟩ :=
        ⟨rfl, hmore, text, rfl, rfl, fun hlength => absurd hlength hlarge⟩
      exact ⟨_, _, by simp [hshort], hholds'⟩
    · have hwrite := FileSystem.write_setData hartifact text bytes
      have hholds' : Holds base artifact (text ++ bytes) (base.setData artifact (text ++ bytes))
          ⟨artifact, []⟩ :=
        ⟨rfl, hmore, text ++ bytes, rfl, by simp, fun hlength => absurd hlength hlarge⟩
      exact ⟨_, _, by simp [hshort, hwrite], hholds'⟩

end Sink

/-! ## The loop over the candidates -/

namespace FileSystem

variable {text : Bytes} {fs : FileSystem} {sink : Sink}

/-- The loop reaches the end of the candidates and writes the records of the files it reads. -/
theorem packEach_holds (hholds : Sink.Holds base artifact text fs sink)
    (candidates : List Candidate) :
    (fs.packEach sink candidates).entries.map Entry.candidate = candidates ∧
      ∃ sink', (fs.packEach sink candidates).sink = .ok sink' ∧
        Sink.Holds base artifact
          (text ++ recordBytes ((fs.packEach sink candidates).entries.filterMap Entry.packed?))
          (fs.packEach sink candidates).files sink' := by
  -- The text grows along the list, so the invariant is carried for every text.
  induction candidates generalizing text fs sink with
  | nil =>
      simp only [packEach, List.map_nil, List.filterMap_nil, recordBytes_nil, List.append_nil,
        true_and]
      exact ⟨sink, rfl, hholds⟩
  | cons c rest ih =>
      unfold packEach
      cases hread : fs.readCandidate c with
      | error reason =>
          have hrest := ih hholds
          rcases hrest with ⟨hentries, sink', hsink, hlater⟩
          simp only [List.map_cons, hentries, true_and]
          exact ⟨sink', hsink, by simpa [List.filterMap_cons] using hlater⟩
      | ok file =>
          have hwrite := hholds.write_ok hartifact (Bytes.ofText file.record)
          rcases hwrite with ⟨fs', sink', hwrite, hnext⟩
          have hrest := ih hnext
          rcases hrest with ⟨hentries, sink'', hsink, hlater⟩
          simp only [hwrite, List.map_cons, hentries, true_and]
          exact ⟨sink'', hsink, by simpa [List.filterMap_cons] using hlater⟩

theorem readCandidate_of_holds (hholds : Sink.Holds base artifact text fs sink) {c : Candidate}
    (hcase : base.locate .use c.path ≠ .ok artifact ∨ text.length ≤ Sink.capacity) :
    fs.readCandidate c = base.readCandidate c := by
  rcases hholds.split with ⟨written, hfs, _, hsmall⟩
  subst fs
  rcases hcase with hne | hfits
  · unfold readCandidate
    rw [read_setData_of_ne hne]
  · rw [hsmall hfits, setData_eq_self hartifact]

theorem packEach_entries (hholds : Sink.Holds base artifact text fs sink)
    (candidates : List Candidate)
    (hcase : (∀ c ∈ candidates, base.locate .use c.path ≠ .ok artifact) ∨
      (text ++ recordBytes (base.filesRead candidates)).length ≤ Sink.capacity) :
    (fs.packEach sink candidates).entries = base.outcomes candidates := by
  induction candidates generalizing text fs sink with
  | nil => rfl
  | cons c rest ih =>
      have hread : fs.readCandidate c = base.readCandidate c := by
        apply readCandidate_of_holds hartifact hholds
        rcases hcase with hne | hfits
        · left
          exact hne c (by simp)
        · right
          rw [List.length_append] at hfits
          omega
      have hlater : ∀ later, text ++ recordBytes (base.filesRead (c :: rest)) =
            later ++ recordBytes (base.filesRead rest) →
          (∀ d ∈ rest, base.locate .use d.path ≠ .ok artifact) ∨
            (later ++ recordBytes (base.filesRead rest)).length ≤ Sink.capacity := by
        intro later hsame
        rcases hcase with hne | hfits
        · left
          intro d hd
          exact hne d (List.mem_cons_of_mem c hd)
        · right
          rw [← hsame]
          exact hfits
      unfold packEach
      rw [hread]
      cases hbase : base.readCandidate c with
      | error reason =>
          have hrest := ih hholds (hlater text (by rw [filesRead_cons_of_error hbase]))
          simpa [outcomes, hbase] using hrest
      | ok file =>
          have hwrite := hholds.write_ok hartifact (Bytes.ofText file.record)
          rcases hwrite with ⟨fs', sink', hwrite, hnext⟩
          have hmore := hlater (text ++ Bytes.ofText file.record) (by
            rw [filesRead_cons_of_ok hbase, recordBytes_cons, List.append_assoc])
          have hrest := ih hnext hmore
          simp only [hwrite]
          simpa [outcomes, hbase] using hrest

end FileSystem

end RegularFile

end TreePack
