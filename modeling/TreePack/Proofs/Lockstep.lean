import Mathlib.Tactic
import TreePack.Run

/-!
# Runs side by side

Two runs that meet different trees, or take their candidates by different paths, tell the same if
they can be kept in step: some relation between their trees is kept by every write to the artifact,
and makes each candidate of the one read as its counterpart of the other.  The relation is a
parameter of this file.  In step the two runs print the same lines, end alike and report the same
events once their surveys are over, and they leave related trees behind.  Each finds the path of its
artifact in the tree that it leaves, so this path is all in which their summaries may differ.

Nothing that a run tells of a candidate depends on the path by which it was read.
-/

namespace TreePack

/-- Both operations fail with one error, or both succeed with related results. -/
def Agree {α β : Type} (rel : α → β → Prop) (x : Except IoError α) (y : Except IoError β) : Prop :=
  (∃ e, x = .error e ∧ y = .error e) ∨ ∃ a b, x = .ok a ∧ y = .ok b ∧ rel a b

theorem Agree.error {α β : Type} {rel : α → β → Prop} (e : IoError) :
    Agree rel (.error e : Except IoError α) (.error e : Except IoError β) :=
  .inl ⟨e, rfl, rfl⟩

theorem Agree.ok {α β : Type} {rel : α → β → Prop} {a : α} {b : β} (hrel : rel a b) :
    Agree rel (.ok a) (.ok b) :=
  .inr ⟨a, b, rfl, rfl, hrel⟩

namespace Entry

def pathless (entry : Entry) : Entry :=
  { entry with candidate := { entry.candidate with path := ⟨[]⟩ } }

variable {entries others : List Entry} (hsame : others.map pathless = entries.map pathless)

include hsame

theorem map_eq_of_pathless {α : Type} {view : Entry → α}
    (hview : ∀ entry, view entry.pathless = view entry) :
    others.map view = entries.map view := by
  have hfactor : ∀ entries : List Entry, entries.map view = (entries.map pathless).map view := by
    intro entries
    rw [List.map_map]
    apply List.map_congr_left
    intro entry _
    exact (hview entry).symm
  rw [hfactor, hfactor entries, hsame]

theorem filterMap_eq_of_pathless {α : Type} {view : Entry → Option α}
    (hview : ∀ entry, view entry.pathless = view entry) :
    others.filterMap view = entries.filterMap view := by
  have hmap := congrArg (List.filterMap id) (map_eq_of_pathless hsame hview)
  simpa [List.filterMap_map, Function.comp_def] using hmap

theorem lines_of_pathless : others.map line = entries.map line :=
  map_eq_of_pathless hsame fun _ => rfl

theorem events_of_pathless : others.filterMap event? = entries.filterMap event? :=
  filterMap_eq_of_pathless hsame fun _ => rfl

theorem summary_of_pathless (output : Path) :
    Job.summary output others = Job.summary output entries := by
  have hpacked : others.filterMap (fun entry => entry.packed?.map PackedFile.display) =
      entries.filterMap fun entry => entry.packed?.map PackedFile.display :=
    filterMap_eq_of_pathless hsame fun _ => rfl
  have hskipped : others.filterMap skipped? = entries.filterMap skipped? :=
    filterMap_eq_of_pathless hsame fun _ => rfl
  unfold Job.summary
  rw [hpacked, hskipped]

end Entry

section InStep

variable (Rel : FileSystem → FileSystem → Prop)

def WritesAgree (artifact : Location) : Prop :=
  ∀ fs other, Rel fs other → ∀ bytes,
    Agree Rel (fs.write artifact bytes) (other.write artifact bytes)

/-- The two candidates are shown alike, and read alike in related trees. -/
structure Candidate.Counterpart (c d : Candidate) : Prop where
  display : d.display = c.display
  read : ∀ fs other, Rel fs other → other.read d.path = fs.read c.path

/-- Trees that are related, and one sink for the artifact. -/
structure InStep (artifact : Location) (x y : FileSystem × Sink) : Prop where
  files : Rel x.1 y.1
  sink : y.2 = x.2
  file : x.2.file = artifact

variable {Rel} {artifact : Location} {fs other : FileSystem} {sink : Sink}

theorem Candidate.Counterpart.readCandidate {c d : Candidate} (hpair : c.Counterpart Rel d)
    (hrel : Rel fs other) :
    other.readCandidate d = fs.readCandidate c := by
  unfold FileSystem.readCandidate
  rw [hpair.read fs other hrel, hpair.display]

theorem Candidate.Counterpart.pathless {c d : Candidate} (hpair : c.Counterpart Rel d)
    (outcome : Except SkipReason PackedFile) :
    Entry.pathless ⟨d, outcome⟩ = Entry.pathless ⟨c, outcome⟩ := by
  simp [Entry.pathless, hpair.display]

theorem Sink.flush_agree (hwrites : WritesAgree Rel artifact) (hrel : Rel fs other)
    (hfile : sink.file = artifact) :
    Agree (InStep Rel artifact) (sink.flush fs) (sink.flush other) := by
  unfold Sink.flush
  by_cases hpending : sink.pending = []
  · rw [if_pos hpending, if_pos hpending]
    exact .ok ⟨hrel, rfl, hfile⟩
  · rw [if_neg hpending, if_neg hpending, hfile]
    obtain ⟨e, hx, hy⟩ | ⟨fs', other', hx, hy, hrel'⟩ := hwrites fs other hrel sink.pending
    · rw [hx, hy]
      exact .error e
    · rw [hx, hy]
      exact .ok ⟨hrel', rfl, rfl⟩

theorem Sink.write_agree (hwrites : WritesAgree Rel artifact) (hrel : Rel fs other)
    (hfile : sink.file = artifact) (bytes : Bytes) :
    Agree (InStep Rel artifact) (sink.write fs bytes) (sink.write other bytes) := by
  unfold Sink.write
  split
  next => exact .ok ⟨hrel, rfl, hfile⟩
  next =>
    obtain ⟨e, hx, hy⟩ | ⟨⟨fs', sink'⟩, ⟨other', _⟩, hx, hy, hrel', rfl, hfile'⟩ :=
      sink.flush_agree hwrites hrel hfile
    · rw [hx, hy]
      exact .error e
    · rw [hx, hy]
      by_cases hshort : bytes.length < capacity
      · simp only [if_pos hshort]
        exact .ok ⟨hrel', rfl, hfile'⟩
      · simp only [if_neg hshort]
        simp only at hfile'
        rw [hfile']
        obtain ⟨e, hx, hy⟩ | ⟨fs'', other'', hx, hy, hrel''⟩ := hwrites fs' other' hrel' bytes
        · rw [hx, hy]
          exact .error e
        · rw [hx, hy]
          exact .ok ⟨hrel'', rfl, hfile'⟩

/-- What the loops over counterparts have in common when they stop. -/
structure Progress.InStep (Rel : FileSystem → FileSystem → Prop) (artifact : Location)
    (progress progress' : Progress) : Prop where
  entries : progress'.entries.map Entry.pathless = progress.entries.map Entry.pathless
  files : Rel progress.files progress'.files
  sink : progress'.sink = progress.sink
  file : ∀ sink, progress.sink = .ok sink → sink.file = artifact

theorem FileSystem.packEach_inStep (hwrites : WritesAgree Rel artifact)
    {candidates others : List Candidate}
    (hpairs : List.Forall₂ (Candidate.Counterpart Rel) candidates others)
    (hrel : Rel fs other) (hfile : sink.file = artifact) :
    Progress.InStep Rel artifact (fs.packEach sink candidates) (other.packEach sink others) := by
  induction hpairs generalizing fs other sink with
  | nil =>
      refine ⟨rfl, hrel, rfl, ?_⟩
      intro sink' hsink
      cases hsink
      exact hfile
  | @cons c d rest rest' hpair _ ih =>
      unfold packEach
      rw [hpair.readCandidate hrel]
      cases fs.readCandidate c with
      | error reason =>
          have hlater := ih hrel hfile
          refine ⟨?_, hlater.files, hlater.sink, hlater.file⟩
          simp only [List.map_cons, hpair.pathless, hlater.entries]
      | ok file =>
          obtain ⟨e, hx, hy⟩ | ⟨⟨fs', sink'⟩, ⟨other', _⟩, hx, hy, hrel', rfl, hfile'⟩ :=
            sink.write_agree hwrites hrel hfile (Bytes.ofText file.record)
          · simp only [hx, hy]
            exact ⟨rfl, hrel, rfl, by simp⟩
          · have hlater := ih hrel' hfile'
            simp only [hx, hy]
            refine ⟨?_, hlater.files, hlater.sink, hlater.file⟩
            simp only [List.map_cons, hpair.pathless, hlater.entries]

/-! ## Whole runs -/

/-- Two runs that left these trees behind completed and tell the same of their candidates, or failed
with one error at the same point. -/
inductive EndsAlike (job job' : Job) (files files' : FileSystem) :
    Except Failure Summary → Except Failure Summary → Prop
  | completed (entries : List Entry) :
      EndsAlike job job' files files' (.ok (Job.summary (job.reported files) entries))
        (.ok (Job.summary (job'.reported files') entries))
  | creating (e : IoError) :
      EndsAlike job job' files files' (.error (.creating job.outputPath e))
        (.error (.creating job'.outputPath e))
  | writing (e : IoError) :
      EndsAlike job job' files files' (.error (.writing job.outputPath e))
        (.error (.writing job'.outputPath e))
  | flushing (e : IoError) :
      EndsAlike job job' files files' (.error (.flushing job.outputPath e))
        (.error (.flushing job'.outputPath e))

namespace EndsAlike

variable {job job' : Job} {files files' : FileSystem} {result result' : Except Failure Summary}
  {summary summary' : Summary}

theorem completes_iff (hends : EndsAlike job job' files files' result result') :
    (∃ summary', result' = .ok summary') ↔ ∃ summary, result = .ok summary := by
  cases hends <;> simp

theorem packed_eq (hends : EndsAlike job job' files files' (.ok summary) (.ok summary')) :
    summary'.packed = summary.packed := by
  cases hends
  rfl

theorem skipped_eq (hends : EndsAlike job job' files files' (.ok summary) (.ok summary')) :
    summary'.skipped = summary.skipped := by
  cases hends
  rfl

theorem outputs_eq (hends : EndsAlike job job' files files' (.ok summary) (.ok summary')) :
    summary.output = job.reported files ∧ summary'.output = job'.reported files' := by
  cases hends
  exact ⟨rfl, rfl⟩

theorem eq (hends : EndsAlike job job files files' result result')
    (hreported : job.reported files' = job.reported files) : result' = result := by
  cases hends
  case completed => rw [hreported]
  all_goals rfl

end EndsAlike

/-- The events of a run that come before those of its candidates. -/
def Job.openingEvents (job : Job) (base : FileSystem) : List Event :=
  .packing job.root job.outputPath :: base.surveyEvents job.rules job.root

theorem Job.eventsUpTo_eq (job : Job) (base : FileSystem) (entries : List Entry) :
    job.eventsUpTo base entries = job.openingEvents base ++ entries.filterMap Entry.event? := rfl

/-- What two runs in step have in common once they are over. -/
structure Report.Parallel (Rel : FileSystem → FileSystem → Prop) (job job' : Job)
    (base base' : FileSystem) (report report' : Report) : Prop where
  files : Rel report.files report'.files
  lines : report'.lines = report.lines
  ends : EndsAlike job job' report.files report'.files report.result report'.result
  events : ∃ later, report.events = job.openingEvents base ++ later ∧
    report'.events = job'.openingEvents base' ++ later

theorem Job.fill_parallel {job job' : Job} (hwrites : WritesAgree Rel artifact)
    (hpairs : List.Forall₂ (Candidate.Counterpart Rel) (fs.candidates job.rules job.root)
      (other.candidates job'.rules job'.root))
    (hrel : Rel fs other) :
    Report.Parallel Rel job job' fs other (job.fill fs artifact) (job'.fill other artifact) := by
  have hfile : Sink.file ⟨artifact, Bytes.ofText introduction⟩ = artifact := rfl
  have hloop := FileSystem.packEach_inStep hwrites hpairs hrel hfile
  have hlines := Entry.lines_of_pathless hloop.entries
  have hevents := Entry.events_of_pathless hloop.entries
  unfold fill
  simp only [hloop.sink, hlines, Job.eventsUpTo_eq, hevents]
  split
  next e _ => exact ⟨hloop.files, rfl, .writing e, _, rfl, rfl⟩
  next sink hsink =>
    obtain ⟨e, hx, hy⟩ | ⟨⟨files, sink'⟩, ⟨files', _⟩, hx, hy, hstep⟩ :=
      sink.flush_agree hwrites hloop.files (hloop.file sink hsink)
    · simp only [hx, hy]
      exact ⟨hloop.files, rfl, .flushing e, _, rfl, rfl⟩
    · simp only [hx, hy, Entry.summary_of_pathless hloop.entries]
      exact ⟨hstep.files, rfl, .completed _, _, List.append_assoc _ _ _,
        List.append_assoc _ _ _⟩

end InStep

end TreePack
