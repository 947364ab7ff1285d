import TreePack.Event

/-!
# Log records

What the log of the program is made of.  Every event of a run is logged as a record.  The walk of a
survey logs a record of its own before it begins; it names the working directory, and it carries
more values than its message.
-/

namespace TreePack

structure LogRecord where
  level : Level
  origin : String
  message : String
  fields : List String
  deriving DecidableEq

namespace Event

def logRecord (event : Event) : LogRecord where
  level := event.level
  origin := event.origin
  message := event.message
  fields := ["message"]

end Event

namespace LogRecord

def walking (path : Path) : LogRecord where
  level := .trace
  origin := "ignore::walk"
  message := "automatically discovered CWD: " ++ path.display
  fields := ["message", "log.target", "log.module_path", "log.file", "log.line"]

/-- The records of a run.  It reports first that it packs, and then it walks. -/
def ofRun (workingPath : Path) : List Event → List LogRecord
  | [] => []
  | packing :: events =>
      packing.logRecord :: walking workingPath :: events.map Event.logRecord

end LogRecord

end TreePack
