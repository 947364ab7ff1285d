import TreePack.Event
import TreePack.FileSystem.Canonical

/-!
# Running a job

A job says which tree is packed, under which rules, and where the artifact goes.  A run empties the
artifact, surveys the tree and then takes the candidates one by one: each is read and either written
as a record or skipped with a reason.  Only the artifact can make a run fail.

A run is a value: the tree that it leaves behind, what it printed, the events it reported and
how it ended.  Printed lines, events and the summary are views of one list, the entries of the run,
which holds each candidate with what became of it.

The artifact is written through a buffer.  Bytes are held back as long as they fit; a text as large
as the buffer goes to the file directly.
-/

namespace TreePack

structure Job where
  root : Path
  outputName : String
  rules : Rules

namespace Job

def standard (root : Path) : Job := ⟨root, artifactName, Rules.standard⟩

def outputPath (job : Job) : Path := job.root.join (Path.ofText job.outputName)

end Job

/-- A file open for writing, together with the bytes that have been handed over and not yet reached
it. -/
structure Sink where
  file : Location
  pending : Bytes

namespace Sink

def capacity : Nat := 8192

def flush (sink : Sink) (fs : FileSystem) : Except IoError (FileSystem × Sink) :=
  if sink.pending = [] then .ok (fs, sink)
  else
    match fs.write sink.file sink.pending with
    | .ok fs => .ok (fs, { sink with pending := [] })
    | .error e => .error e

def write (sink : Sink) (fs : FileSystem) (bytes : Bytes) : Except IoError (FileSystem × Sink) :=
  if sink.pending.length + bytes.length ≤ capacity ∧ bytes.length < capacity then
    .ok (fs, { sink with pending := sink.pending ++ bytes })
  else
    match sink.flush fs with
    | .error e => .error e
    | .ok (fs, sink) =>
        if bytes.length < capacity then .ok (fs, { sink with pending := bytes })
        else
          match fs.write sink.file bytes with
          | .ok fs => .ok (fs, sink)
          | .error e => .error e

end Sink

structure Entry where
  candidate : Candidate
  outcome : Except SkipReason PackedFile

inductive Line where
  | packed (display : String)
  | skipped (display : String) (reason : SkipReason)
  | blank
  | closing (output : Path)
  deriving DecidableEq

namespace Line

def text : Line → String
  | packed display => "Packed: " ++ display
  | skipped display reason => "Skipped " ++ display ++ " due to error: " ++ reason.message
  | blank => ""
  | closing output => "All files packed into: " ++ output.display

end Line

namespace Entry

def line (entry : Entry) : Line :=
  match entry.outcome with
  | .ok file => .packed file.display
  | .error reason => .skipped entry.candidate.display reason

def event? (entry : Entry) : Option Event :=
  match entry.outcome with
  | .ok _ => none
  | .error reason => some (.skipping entry.candidate.display reason)

def packed? (entry : Entry) : Option PackedFile :=
  entry.outcome.toOption

def skipped? (entry : Entry) : Option (String × SkipReason) :=
  match entry.outcome with
  | .ok _ => none
  | .error reason => some (entry.candidate.display, reason)

end Entry

structure Summary where
  /-- The canonical path of the artifact or, if none is found, the one under which it was opened. -/
  output : Path
  packed : List String
  skipped : List (String × SkipReason)
  deriving DecidableEq

inductive Failure where
  | creating (output : Path) (error : IoError)
  | writing (output : Path) (error : IoError)
  | flushing (output : Path) (error : IoError)
  | noWorkingDir (error : IoError)
  deriving DecidableEq

/-- What went wrong, the outermost statement first. -/
def Failure.chain : Failure → List String
  | creating output error => ["creating " ++ output.display, error.message]
  | writing output error => ["writing " ++ output.display, error.message]
  | flushing output error => ["flushing " ++ output.display, error.message]
  | noWorkingDir error => [error.message]

structure Report where
  files : FileSystem
  lines : List Line
  events : List Event
  result : Except Failure Summary

def Report.output (report : Report) : String :=
  String.join (report.lines.map fun line => line.text ++ "\n")

/-- The middle of a run: the entries so far, the tree and, unless writing failed, the sink. -/
structure Progress where
  entries : List Entry
  files : FileSystem
  sink : Except IoError Sink

namespace FileSystem

/-- Takes candidates one by one, until one of the records cannot be written. -/
def packEach (fs : FileSystem) (sink : Sink) : List Candidate → Progress
  | [] => ⟨[], fs, .ok sink⟩
  | c :: rest =>
      match fs.readCandidate c with
      | .error reason =>
          let later := fs.packEach sink rest
          { later with entries := ⟨c, .error reason⟩ :: later.entries }
      | .ok file =>
          match sink.write fs (Bytes.ofText file.record) with
          | .error e => ⟨[], fs, .error e⟩
          | .ok (fs, sink) =>
              let later := fs.packEach sink rest
              { later with entries := ⟨c, .ok file⟩ :: later.entries }

end FileSystem

namespace Job

/-- What has been reported by a run once the survey is over and these entries are done. -/
def eventsUpTo (job : Job) (fs : FileSystem) (entries : List Entry) : List Event :=
  .packing job.root job.outputPath
    :: fs.surveyEvents job.rules job.root ++ entries.filterMap Entry.event?

/-- The path of the artifact that a run reports which leaves this tree behind. -/
def reported (job : Job) (fs : FileSystem) : Path :=
  (fs.canonical? job.outputPath).getD job.outputPath

def summary (output : Path) (entries : List Entry) : Summary where
  output := output
  packed := entries.filterMap fun entry => entry.packed?.map PackedFile.display
  skipped := entries.filterMap Entry.skipped?

/-- Packs what the survey finds in the tree `fs`, into an artifact that is open at its beginning.
The introduction fits the buffer of the sink. -/
def fill (job : Job) (fs : FileSystem) (artifact : Location) : Report :=
  let progress := fs.packEach ⟨artifact, Bytes.ofText introduction⟩
    (fs.candidates job.rules job.root)
  let lines := progress.entries.map Entry.line
  let events := job.eventsUpTo fs progress.entries
  match progress.sink with
  | .error e => ⟨progress.files, lines, events, .error (.writing job.outputPath e)⟩
  | .ok sink =>
      match sink.flush progress.files with
      | .error e => ⟨progress.files, lines, events, .error (.flushing job.outputPath e)⟩
      | .ok (files, _) =>
          let summary := summary (job.reported files) progress.entries
          ⟨files, lines, events ++ [.packed summary.packed.length summary.skipped.length],
            .ok summary⟩

def run (job : Job) (fs : FileSystem) : Report :=
  match fs.create job.outputPath with
  | .error e => ⟨fs, [], [], .error (.creating job.outputPath e)⟩
  | .ok (fs, artifact) => job.fill fs artifact

end Job

def packWorkingDir (fs : FileSystem) : Report :=
  match fs.workingPath with
  | .error e => ⟨fs, [], [], .error (.noWorkingDir e)⟩
  | .ok root =>
      let report := (Job.standard root).run fs
      match report.result with
      | .error _ => report
      | .ok summary => { report with lines := report.lines ++ [.blank, .closing summary.output] }

end TreePack
