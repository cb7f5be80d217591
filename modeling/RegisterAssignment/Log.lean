/-!
The log: lines of text, each with a level.
-/

namespace RegisterAssignment

/-- How much attention a line of the log asks for. -/
inductive Level where
  | trace
  | debug
  | warn
deriving DecidableEq

def Level.text : Level → String
  | trace => "TRACE"
  | debug => "DEBUG"
  | warn => "WARN"

structure LogLine where
  level : Level
  message : String
deriving DecidableEq

def LogLine.text (line : LogLine) : String := s!"{line.level.text} {line.message}"

end RegisterAssignment
