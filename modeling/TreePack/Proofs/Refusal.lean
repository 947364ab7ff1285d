import Mathlib.Order.Bounds.Basic
import Mathlib.Tactic
import TreePack.FileSystem.Edit
import TreePack.Proofs.Accounting
import TreePack.Proofs.Creation
import TreePack.Proofs.Decoding

/-!
# An artifact that refuses every byte

A full device can be opened, but nothing can be written to it.  A run does not notice as long as its
text fits the buffer, since until then the text is only held back.  So all depends on how long the
text has become: a run whose text outgrows the buffer stops at the first record that no longer fits,
and it has told of the candidates before that record and of no other; a run whose text fits tells of
every candidate and fails at the end, when the text is handed over.

In both cases nothing is told of a record that the device refused.
-/

namespace TreePack

namespace Sink

variable (fs : FileSystem) (sink : Sink) {bytes : Bytes}

theorem write_of_fits (hpending : sink.pending ≠ [])
    (hfits : (sink.pending ++ bytes).length ≤ capacity) :
    sink.write fs bytes = .ok (fs, ⟨sink.file, sink.pending ++ bytes⟩) := by
  have hpositive : 0 < sink.pending.length := List.length_pos_iff.2 hpending
  have hlength : (sink.pending ++ bytes).length = sink.pending.length + bytes.length :=
    List.length_append
  unfold write
  rw [if_pos (by omega)]

variable {fs} (hfull : fs.node? sink.file = some (.device .full)) (hpending : sink.pending ≠ [])

include hfull hpending

theorem flush_full : sink.flush fs = .error .noSpaceLeft := by
  unfold flush
  rw [if_neg hpending]
  simp only [FileSystem.write, hfull]

theorem write_full_of_overflow (hover : capacity < (sink.pending ++ bytes).length) :
    sink.write fs bytes = .error .noSpaceLeft := by
  have hlength : (sink.pending ++ bytes).length = sink.pending.length + bytes.length :=
    List.length_append
  unfold write
  rw [if_neg (by omega), flush_full sink hfull hpending]

end Sink

/-! ## Through the loop -/

namespace FileSystem

variable {fs : FileSystem} (artifact : Location) {text : Bytes} {before : List Candidate}

/-- As long as the text fits, the loop only adds to it and goes on with the candidates after. -/
theorem packEach_append_of_fits (htext : text ≠ [])
    (hfits : (text ++ recordBytes (fs.filesRead before)).length ≤ Sink.capacity)
    (after : List Candidate) :
    fs.packEach ⟨artifact, text⟩ (before ++ after) =
      let later := fs.packEach ⟨artifact, text ++ recordBytes (fs.filesRead before)⟩ after
      { later with entries := fs.outcomes before ++ later.entries } := by
  induction before generalizing text with
  | nil => simp [outcomes, filesRead]
  | cons c rest ih =>
      rw [List.cons_append, packEach]
      cases hread : fs.readCandidate c with
      | error reason =>
          rw [filesRead_cons_of_error hread] at hfits ⊢
          simp only [ih htext hfits, outcomes, List.map_cons, hread, List.cons_append]
      | ok file =>
          rw [filesRead_cons_of_ok hread, recordBytes_cons, ← List.append_assoc] at hfits ⊢
          have hrecord : (text ++ Bytes.ofText file.record).length ≤ Sink.capacity := by
            rw [List.length_append] at hfits
            omega
          have hmore : text ++ Bytes.ofText file.record ≠ [] := by simp [htext]
          have hwrite := Sink.write_of_fits fs ⟨artifact, text⟩ htext hrecord
          simp only [hwrite, ih hmore hfits, outcomes, List.map_cons, hread, List.cons_append]

theorem packEach_of_fits (htext : text ≠ [])
    (hfits : (text ++ recordBytes (fs.filesRead before)).length ≤ Sink.capacity) :
    fs.packEach ⟨artifact, text⟩ before =
      ⟨fs.outcomes before, fs, .ok ⟨artifact, text ++ recordBytes (fs.filesRead before)⟩⟩ := by
  have happend := packEach_append_of_fits artifact htext hfits []
  simpa [packEach] using happend

variable {artifact}

/-- The loop stops at the first record that does not fit, whatever comes after it. -/
theorem packEach_full_of_overflow (hfull : fs.node? artifact = some (.device .full))
    (htext : text ≠ [])
    (hfits : (text ++ recordBytes (fs.filesRead before)).length ≤ Sink.capacity)
    {c : Candidate}
    (hover : Sink.capacity < (text ++ recordBytes (fs.filesRead (before ++ [c]))).length)
    (after : List Candidate) :
    (∃ file, fs.readCandidate c = .ok file) ∧
      fs.packEach ⟨artifact, text⟩ (before ++ c :: after) =
        ⟨fs.outcomes before, fs, .error .noSpaceLeft⟩ := by
  rw [filesRead_append, recordBytes_append, ← List.append_assoc] at hover
  rw [packEach_append_of_fits artifact htext hfits, packEach]
  cases hread : fs.readCandidate c with
  | error reason =>
      -- A candidate without a record leaves the text as long as it was.
      rw [filesRead_cons_of_error hread] at hover
      have hsame : (text ++ recordBytes (fs.filesRead before) ++
          recordBytes (fs.filesRead [])).length =
          (text ++ recordBytes (fs.filesRead before)).length := by
        simp [filesRead]
      omega
  | ok file =>
      rw [filesRead_cons_of_ok hread, recordBytes_cons] at hover
      have hpending : text ++ recordBytes (fs.filesRead before) ≠ [] := by simp [htext]
      have hover : Sink.capacity <
          (text ++ recordBytes (fs.filesRead before) ++ Bytes.ofText file.record).length := by
        simpa [filesRead] using hover
      have hwrite := Sink.write_full_of_overflow
        ⟨artifact, text ++ recordBytes (fs.filesRead before)⟩ hfull hpending hover
      simp only [hwrite, List.append_nil, Except.ok.injEq, exists_eq', and_self]

end FileSystem

/-! ## Whole runs -/

namespace FileSystem

/-- How long the text of the artifact is once the first `k` candidates are done. -/
def textLength (fs : FileSystem) (candidates : List Candidate) (k : ℕ) : ℕ :=
  (artifactBytes (fs.filesRead (candidates.take k))).length

theorem textLength_zero_le (fs : FileSystem) (candidates : List Candidate) :
    fs.textLength candidates 0 ≤ Sink.capacity := by
  have hintroduction : (Bytes.ofText introduction).length ≤ Sink.capacity := by
    decide +kernel
  simpa [textLength, artifactBytes, filesRead] using hintroduction

theorem textLength_of_length_le (fs : FileSystem) {candidates : List Candidate} {k : ℕ}
    (hk : candidates.length ≤ k) :
    fs.textLength candidates k = (artifactBytes (fs.filesRead candidates)).length := by
  unfold textLength
  rw [List.take_of_length_le hk]

/-- The first candidate with whose record the text outgrows the buffer. -/
theorem exists_first_overflow {fs : FileSystem} {candidates : List Candidate} {k : ℕ}
    (hleast : IsLeast {k | Sink.capacity < fs.textLength candidates k} k) :
    ∃ c, 0 < k ∧ candidates[k - 1]? = some c ∧
      candidates = candidates.take (k - 1) ++ c :: candidates.drop k ∧
      candidates.take k = candidates.take (k - 1) ++ [c] ∧
      (artifactBytes (fs.filesRead (candidates.take (k - 1)))).length ≤ Sink.capacity := by
  obtain ⟨hover, hfirst⟩ := hleast
  have hpositive : 0 < k := by
    have hzero := fs.textLength_zero_le candidates
    by_contra hk
    have hk : k = 0 := by omega
    subst k
    exact absurd hover (by simpa using hzero)
  have hbelow : fs.textLength candidates (k - 1) ≤ Sink.capacity := by
    by_contra hlarge
    have hle := hfirst (show Sink.capacity < fs.textLength candidates (k - 1) by omega)
    omega
  have hinside : k - 1 < candidates.length := by
    by_contra hbeyond
    have hall : fs.textLength candidates k = _ := fs.textLength_of_length_le (by omega)
    have hall' : fs.textLength candidates (k - 1) = _ := fs.textLength_of_length_le (by omega)
    have hlarge : Sink.capacity < fs.textLength candidates k := hover
    omega
  have hsucc : k - 1 + 1 = k := by omega
  have htake : candidates.take k = candidates.take (k - 1) ++ [candidates[k - 1]] := by
    rw [← List.take_succ_eq_append_getElem hinside, hsucc]
  refine ⟨candidates[k - 1], hpositive, List.getElem?_eq_getElem hinside, ?_, htake, hbelow⟩
  have hdrop := List.drop_eq_getElem_cons hinside
  rw [hsucc] at hdrop
  rw [← hdrop, List.take_append_drop]

theorem eq_of_create_device {fs made : FileSystem} {p : Path} {artifact : Location} {kind : Device}
    (hcreate : fs.create p = .ok (made, artifact))
    (hdevice : made.node? artifact = some (.device kind)) :
    made = fs := by
  cases creates_of_create hcreate with
  | makes _ hdir hfree =>
      have hnew := node?_insert_new hdir hfree (.file .ordinaryFile []) (.file _ _)
      rw [hnew] at hdevice
      cases hdevice
  | empties _ hold _ =>
      have hempty := node?_setData_self hold []
      rw [hempty] at hdevice
      cases hdevice
  | opens => rfl

end FileSystem

namespace Job

/-- The run fails with this chain.  It has told of these candidates, one after the other, and of no
other, and the tree is as it was. -/
structure FailsAfter (job : Job) (fs : FileSystem) (done : List Candidate) (chain : List String) :
    Prop where
  result : ∃ failure, (job.run fs).result = .error failure ∧ failure.chain = chain
  output : (job.run fs).output = fs.told done
  events : (job.run fs).events = job.eventsUpTo fs (fs.outcomes done)
  files : (job.run fs).files = fs

variable {job : Job} {fs made : FileSystem} {artifact : Location}

theorem message_noSpaceLeft :
    IoError.noSpaceLeft.message = "No space left on device (os error 28)" := by
  decide +kernel

/-- A report of a failed run is what `FailsAfter` says, if its parts are. -/
theorem failsAfter_of_run_eq {done : List Candidate} (failure : Failure)
    (hrun : job.run fs =
      ⟨fs, (fs.outcomes done).map Entry.line, job.eventsUpTo fs (fs.outcomes done),
        .error failure⟩) :
    job.FailsAfter fs done failure.chain := by
  constructor
  · exact ⟨failure, by rw [hrun], rfl⟩
  · apply FileSystem.output_of_outcomes
    rw [hrun]
  · rw [hrun]
  · rw [hrun]

section Opened

variable (hcreate : fs.create job.outputPath = .ok (fs, artifact))
  (hfull : fs.node? artifact = some (.device .full))

include hcreate hfull

theorem failsAfter_of_overflow {before : List Candidate} {c : Candidate} {after : List Candidate}
    (hcandidates : fs.candidates job.rules job.root = before ++ c :: after)
    (hfits : (artifactBytes (fs.filesRead before)).length ≤ Sink.capacity)
    (hover : Sink.capacity < (artifactBytes (fs.filesRead (before ++ [c]))).length) :
    job.FailsAfter fs before
      ["writing " ++ job.outputPath.display, "No space left on device (os error 28)"] := by
  have hloop := (FileSystem.packEach_full_of_overflow hfull introduction_ne_nil hfits hover after).2
  rw [← message_noSpaceLeft]
  apply failsAfter_of_run_eq (.writing job.outputPath .noSpaceLeft)
  rw [run_of_create hcreate]
  unfold fill
  simp only [hcandidates, hloop]

theorem failsAfter_of_fits
    (hfits : (artifactBytes (fs.filesRead (fs.candidates job.rules job.root))).length ≤
      Sink.capacity) :
    job.FailsAfter fs (fs.candidates job.rules job.root)
      ["flushing " ++ job.outputPath.display, "No space left on device (os error 28)"] := by
  have hloop := FileSystem.packEach_of_fits artifact introduction_ne_nil hfits
  have hpending : artifactBytes (fs.filesRead (fs.candidates job.rules job.root)) ≠ [] := by
    simp [artifactBytes, introduction_ne_nil]
  have hflush := Sink.flush_full ⟨artifact, _⟩ hfull hpending
  rw [← message_noSpaceLeft]
  apply failsAfter_of_run_eq (.flushing job.outputPath .noSpaceLeft)
  rw [run_of_create hcreate]
  unfold fill
  simp only [hloop, hflush]

/-- The candidate at which the text first outgrows the buffer has a record, and the run ends with
it, whatever the candidates after it are. -/
theorem fails_at_first_overflow {k : ℕ}
    (hleast : IsLeast
      {k | Sink.capacity < fs.textLength (fs.candidates job.rules job.root) k} k) :
    let candidates := fs.candidates job.rules job.root
    let start : Sink := ⟨artifact, Bytes.ofText introduction⟩
    0 < k ∧ (∃ c file, candidates[k - 1]? = some c ∧ fs.readCandidate c = .ok file) ∧
      job.FailsAfter fs (candidates.take (k - 1))
        ["writing " ++ job.outputPath.display, "No space left on device (os error 28)"] ∧
      ∀ others, fs.packEach start (candidates.take k ++ others) = fs.packEach start candidates := by
  intro candidates start
  obtain ⟨c, hpositive, hc, hsplit, htake, hbelow⟩ := FileSystem.exists_first_overflow hleast
  have hover : Sink.capacity <
      (artifactBytes (fs.filesRead (candidates.take (k - 1) ++ [c]))).length := by
    rw [← htake]
    exact hleast.1
  have hloop := FileSystem.packEach_full_of_overflow hfull introduction_ne_nil hbelow hover
  obtain ⟨file, hread⟩ := (hloop []).1
  refine ⟨hpositive, ⟨c, file, hc, hread⟩,
    failsAfter_of_overflow hcreate hfull hsplit hbelow hover, ?_⟩
  intro others
  have hwhole : fs.packEach start candidates =
      ⟨fs.outcomes (candidates.take (k - 1)), fs, .error .noSpaceLeft⟩ := by
    have hlater := (hloop (candidates.drop k)).2
    rwa [← hsplit] at hlater
  rw [hwhole, htake, List.append_assoc]
  exact (hloop others).2

end Opened

theorem FailsAfter.not_ok {done : List Candidate} {chain : List String}
    (hfails : job.FailsAfter fs done chain) (summary : Summary) :
    (job.run fs).result ≠ .ok summary := by
  obtain ⟨failure, hfailure, _⟩ := hfails.result
  rw [hfailure]
  simp

/-- A run that writes to a full device never completes.  If its text outgrows the buffer, it fails
at the first candidate whose record no longer fits, having told of the candidates before this one,
and what comes after it makes no difference.  Otherwise it fails at the end, having told of all. -/
theorem run_into_full_device (hcreate : fs.create job.outputPath = .ok (made, artifact))
    (hfull : made.node? artifact = some (.device .full)) :
    let candidates := fs.candidates job.rules job.root
    let start : Sink := ⟨artifact, Bytes.ofText introduction⟩
    (∀ summary, (job.run fs).result ≠ .ok summary) ∧
      (∀ k, IsLeast {k | Sink.capacity < fs.textLength candidates k} k →
        0 < k ∧
          (∃ c file, candidates[k - 1]? = some c ∧ fs.readCandidate c = .ok file) ∧
          job.FailsAfter fs (candidates.take (k - 1))
            ["writing " ++ job.outputPath.display, "No space left on device (os error 28)"] ∧
          ∀ others, fs.packEach start (candidates.take k ++ others) =
            fs.packEach start candidates) ∧
      ((∀ k, fs.textLength candidates k ≤ Sink.capacity) →
        job.FailsAfter fs candidates
          ["flushing " ++ job.outputPath.display, "No space left on device (os error 28)"]) := by
  intro candidates start
  have hunchanged := FileSystem.eq_of_create_device hcreate hfull
  subst made
  have hfits : (∀ k, fs.textLength candidates k ≤ Sink.capacity) →
      job.FailsAfter fs candidates
        ["flushing " ++ job.outputPath.display, "No space left on device (os error 28)"] := by
    intro hall
    apply failsAfter_of_fits hcreate hfull
    rw [← fs.textLength_of_length_le (le_refl candidates.length)]
    exact hall candidates.length
  refine ⟨?_, fun k hleast => fails_at_first_overflow hcreate hfull hleast, hfits⟩
  by_cases hall : ∀ k, fs.textLength candidates k ≤ Sink.capacity
  · exact (hfits hall).not_ok
  · have hsome : ∃ k, Sink.capacity < fs.textLength candidates k := by
      obtain ⟨k, hk⟩ := not_forall.1 hall
      exact ⟨k, by omega⟩
    have hleast : IsLeast {k | Sink.capacity < fs.textLength candidates k} (Nat.find hsome) :=
      ⟨Nat.find_spec hsome, fun j hj => Nat.find_min' hsome hj⟩
    obtain ⟨_, _, hfails, _⟩ := fails_at_first_overflow hcreate hfull hleast
    exact hfails.not_ok

end Job

/-! ## A project that outgrows the buffer -/

theorem Bytes.ofText_replicate_space (n : ℕ) :
    Bytes.ofText (String.ofList (List.replicate n ' ')) = List.replicate n 0x20 := by
  have hspace : String.utf8EncodeChar ' ' = [0x20] := by
    decide +kernel
  unfold Bytes.ofText
  rw [String.toList_ofList, List.flatMap_replicate, hspace]
  simp

namespace Job

/-- A project with a file that alone fills the buffer, between other files, and a small project
beside it. -/
def crowdedProjects (filling : Bytes) : FileSystem :=
  FileSystem.built
    [(·.putFile (Path.ofText "/proj/a.c") (Bytes.ofText "int a;")),
      (·.putFile (Path.ofText "/proj/b.c") [0x6f, 0xff]),
      (·.putFile (Path.ofText "/proj/c.c") filling),
      (·.putFile (Path.ofText "/proj/d.c") []),
      (·.putFile (Path.ofText "/tiny/e.c") (Bytes.ofText "int e;")),
      (·.makeDirs (Path.ofText "/dev")),
      (·.putNew (Path.ofText "/dev/full") (.device .full) (.device _))]

theorem read_crowdedProjects (filling : Bytes) :
    (crowdedProjects filling).read (Path.ofText "/proj/c.c") = .ok filling := by
  rfl

theorem readCandidate_crowdedProjects (n : ℕ) :
    (crowdedProjects (List.replicate n 0x20)).readCandidate ⟨Path.ofText "/proj/c.c", "./c.c"⟩ =
      .ok ⟨"./c.c", String.ofList (List.replicate n ' ')⟩ := by
  have hnormal : Newline.isNormal (String.ofList (List.replicate n ' ')) = true := by
    simp [Newline.isNormal]
  unfold FileSystem.readCandidate
  simp only [read_crowdedProjects]
  unfold PackedFile.ofBytes
  rw [← Bytes.ofText_replicate_space, Utf8.decode_ofText]
  simp only [Newline.normalize, hnormal, if_true]

theorem run_into_full_device_of_crowdedProjects :
    let fs := crowdedProjects (List.replicate Sink.capacity 0x20)
    let large : Job := ⟨Path.ofText "/proj", "/dev/full", Rules.standard⟩
    let small : Job := ⟨Path.ofText "/tiny", "../dev/full", Rules.standard⟩
    let candidates := fs.candidates large.rules large.root
    ∃ artifact, fs.node? artifact = some (.device .full) ∧
      fs.create large.outputPath = .ok (fs, artifact) ∧
      fs.create small.outputPath = .ok (fs, artifact) ∧
      candidates.map Candidate.display = ["./a.c", "./b.c", "./c.c", "./d.c"] ∧
      IsLeast {k | Sink.capacity < fs.textLength candidates k} 3 ∧
      large.FailsAfter fs (candidates.take 2)
        ["writing /dev/full", "No space left on device (os error 28)"] ∧
      (candidates.take 2).map fs.progress =
        ["Packed: ./a.c",
          "Skipped ./b.c due to error: 'utf-8' codec can't decode byte at position 1"] ∧
      (∀ k, fs.textLength (fs.candidates small.rules small.root) k ≤ Sink.capacity) ∧
      small.FailsAfter fs (fs.candidates small.rules small.root)
        ["flushing /tiny/../dev/full", "No space left on device (os error 28)"] := by
  intro fs large small candidates
  let artifact : Location :=
    [⟨Bytes.ofText "dev", by decide +kernel⟩, ⟨Bytes.ofText "full", by decide +kernel⟩]
  have hfull : fs.node? artifact = some (.device .full) := by rfl
  have hlargeLeads : fs.resolve .make large.outputPath = .ok (.found artifact) := by
    decide +kernel
  have hsmallLeads : fs.resolve .make small.outputPath = .ok (.found artifact) := by
    decide +kernel
  have hlarge : fs.create large.outputPath = .ok (fs, artifact) := by
    simp only [FileSystem.create, hlargeLeads, hfull]
  have hsmall : fs.create small.outputPath = .ok (fs, artifact) := by
    simp only [FileSystem.create, hsmallLeads, hfull]
  have hdisplays : candidates.map Candidate.display = ["./a.c", "./b.c", "./c.c", "./d.c"] := by
    decide +kernel
  have hthree : candidates.take 3 =
      candidates.take 2 ++ [⟨Path.ofText "/proj/c.c", "./c.c"⟩] := by
    decide +kernel
  have hprogress : (candidates.take 2).map fs.progress =
      ["Packed: ./a.c",
        "Skipped ./b.c due to error: 'utf-8' codec can't decode byte at position 1"] := by
    decide +kernel
  have hover : Sink.capacity < fs.textLength candidates 3 := by
    have hsome : 0 < (Bytes.ofText introduction).length :=
      List.length_pos_iff.2 introduction_ne_nil
    unfold FileSystem.textLength artifactBytes
    rw [hthree, FileSystem.filesRead_append,
      FileSystem.filesRead_cons_of_ok (readCandidate_crowdedProjects _), recordBytes_append]
    simp only [recordBytes_cons, PackedFile.record, Bytes.ofText_append,
      Bytes.ofText_replicate_space, List.length_append, List.length_replicate]
    omega
  have hleast : IsLeast {k | Sink.capacity < fs.textLength candidates k} 3 := by
    have hnone := fs.textLength_zero_le candidates
    have hone : fs.textLength candidates 1 ≤ Sink.capacity := by
      decide +kernel
    have htwo : fs.textLength candidates 2 ≤ Sink.capacity := by
      decide +kernel
    refine ⟨hover, ?_⟩
    intro k hk
    have hk : Sink.capacity < fs.textLength candidates k := hk
    by_contra hsmaller
    have hcases : k = 0 ∨ k = 1 ∨ k = 2 := by omega
    rcases hcases with rfl | rfl | rfl <;> omega
  have hfits : ∀ k, fs.textLength (fs.candidates small.rules small.root) k ≤ Sink.capacity := by
    intro k
    have hlength : (fs.candidates small.rules small.root).length = 1 := by
      decide +kernel
    have hall : fs.textLength (fs.candidates small.rules small.root) 1 ≤ Sink.capacity := by
      decide +kernel
    have hnone := fs.textLength_zero_le (fs.candidates small.rules small.root)
    rcases Nat.eq_zero_or_pos k with rfl | hk
    · exact hnone
    · rw [fs.textLength_of_length_le (by omega)] at hall ⊢
      exact hall
  have hlargeFails := (run_into_full_device hlarge hfull).2.1 3 hleast
  have hsmallFails := (run_into_full_device hsmall hfull).2.2 hfits
  have hlargePath : "writing " ++ large.outputPath.display = "writing /dev/full" := by
    decide +kernel
  have hsmallPath :
      "flushing " ++ small.outputPath.display = "flushing /tiny/../dev/full" := by
    decide +kernel
  rw [hlargePath] at hlargeFails
  rw [hsmallPath] at hsmallFails
  exact ⟨artifact, hfull, hlarge, hsmall, hdisplays, hleast, hlargeFails.2.2.1, hprogress, hfits,
    hsmallFails⟩

end Job

end TreePack
