import TreePack.Run
import TreePack.Shell.Arguments
import TreePack.Shell.LogFilter
import TreePack.Shell.Terminal

/-!
# The program

The program reads its arguments, packs the working directory and ends with a status: zero if it did
what it was asked to do, one if the artifact could not be written, two if it did not understand its
arguments.  The log setting chooses what is written to the error stream and nothing else.
-/

namespace TreePack

structure Exit where
  status : UInt8
  output : String
  errors : String
  files : FileSystem

namespace Program

def name : String := "project-packer"

def versionText : String := name ++ " 0.1.0\n"

def helpText : String :=
  "Pack every recognized source file under the current directory into project_context.txt, "
    ++ "one fenced block per file.\n\n"
    ++ "Usage: " ++ name ++ "\n\n"
    ++ "Options:\n  -h, --help     Print help\n  -V, --version  Print version\n"

def flagText : Flag → String
  | .help => helpText
  | .version => versionText

def refusalText (refusal : Refusal) : String :=
  let usage := match refusal.flag? with
    | none => name
    | some flag => name ++ " --" ++ flag.name
  "error: " ++ refusal.message ++ "\nUsage: " ++ usage
    ++ "\n\nFor more information, try '--help'.\n"

/-- The line that logs a record at the time `stamp`.  A message cannot command a terminal. -/
def logLine (stamp : String) (record : LogRecord) : String :=
  let level := record.level.name
  stamp ++ " " ++ String.ofList (List.replicate (5 - level.length) ' ') ++ level ++ " "
    ++ record.origin ++ ": " ++ Terminal.guard record.message ++ "\n"

def failureText (failure : Failure) : String :=
  match failure.chain with
  | [] => ""
  | [whole] => "Error: " ++ whole ++ "\n"
  | whole :: causes =>
      "Error: " ++ whole ++ "\n\nCaused by:\n"
        ++ String.join (causes.map fun cause => "    " ++ cause ++ "\n")

def logRecords (fs : FileSystem) (report : Report) : List LogRecord :=
  match fs.workingPath with
  | .ok path => LogRecord.ofRun path report.events
  | .error _ => report.events.map Event.logRecord

def exitOf (filter : LogFilter) (stamp : String) (records : List LogRecord) (report : Report) :
    Exit :=
  let log := String.join ((records.filter filter.allows).map (logLine stamp))
  match report.result with
  | .ok _ => ⟨0, report.output, log, report.files⟩
  | .error failure => ⟨1, report.output, log ++ failureText failure, report.files⟩

def run (arguments : List Bytes) (logSetting : Option Bytes) (stamp : String)
    (fs : FileSystem) : Exit :=
  match Invocation.ofArguments arguments with
  | .show flag => ⟨0, flagText flag, "", fs⟩
  | .refuse refusal => ⟨2, "", refusalText refusal, fs⟩
  | .pack =>
      let report := packWorkingDir fs
      exitOf (LogFilter.ofSetting logSetting) stamp (logRecords fs report) report

end Program

end TreePack
