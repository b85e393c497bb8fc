import ComponentTree.Conversion
import ComponentTree.Text.Case
import ComponentTree.Value.Display

/-!
# Log records

What the program reports about its work, and which reports pass the level that was asked for.
-/

namespace ComponentTree

/-- The levels of log records. -/
inductive LogLevel where
  | debug
  | info
  | warning
  | error
  | critical
  deriving DecidableEq, Repr

namespace LogLevel

def number : LogLevel → Nat
  | .debug => 10
  | .info => 20
  | .warning => 30
  | .error => 40
  | .critical => 50

def name : LogLevel → String
  | .debug => "DEBUG"
  | .info => "INFO"
  | .warning => "WARNING"
  | .error => "ERROR"
  | .critical => "CRITICAL"

end LogLevel

/-- A report: its level, who makes it, and its text. -/
structure LogRecord where
  level : LogLevel
  logger : String
  message : String
  deriving DecidableEq, Repr

namespace Log

/-- The logger that has no name of its own. -/
def rootLogger : String := "hyperscriptify"

/-- The logger of converters and of the command. -/
def converter : String := "hyperscriptify.converter"

/-- The logger of single conversions. -/
def treeConverter : String := "hyperscriptify.transformer.tree_converter"

/-- The logger of writing JSON. -/
def jsonGenerator : String := "hyperscriptify.generator.json_generator"

/-- The logger of reading and writing files. -/
def fileUtils : String := "hyperscriptify.utils.file_utils"

/-- The name of the logger that is meant by a name. -/
def loggerName : Option String → String
  | none => rootLogger
  | some name => if name.isEmpty then rootLogger else name

/-- The levels that can be asked for by name, and their weights. -/
def levelNumbers : List (String × Nat) :=
  [("CRITICAL", 50), ("FATAL", 50), ("ERROR", 40), ("WARN", 30), ("WARNING", 30), ("INFO", 20),
   ("DEBUG", 10), ("NOTSET", 0)]

/-- The threshold of a program that set none. -/
def initialThreshold : Nat := 30

/-- The threshold after a level was asked for, in any case. An unknown name changes nothing. -/
def setLevel (threshold : Nat) (level : String) : Nat :=
  (levelNumbers.lookup (uppercase level)).getD threshold

def passes (threshold : Nat) (record : LogRecord) : Bool := threshold ≤ record.level.number

/-- The report of a step of a conversion; only routing is reported. -/
def ofStep {ν : Type} (source : Source ν) : Step ν → Option LogRecord
  | .route owner child slot =>
    some ⟨.debug, treeConverter,
      "Routing <" ++ Conversion.tagOf source child ++ "> into slot '" ++ slot.display ++ "' of <"
        ++ Conversion.tagOf source owner ++ ">"⟩
  | _ => none

def ofSteps {ν : Type} (source : Source ν) (steps : List (Step ν)) : List LogRecord :=
  steps.filterMap (ofStep source)

/-- The report of writing a descriptor tree as JSON. -/
def serialising : LogRecord := ⟨.debug, jsonGenerator, "Serialising descriptor tree to JSON"⟩

/-- A record as a line of a log that was captured. -/
def capturedLine (record : LogRecord) : String :=
  record.level.name ++ " " ++ record.logger ++ " " ++ record.message

/-- A record as a line of the error output, without its time. -/
def outputLine (record : LogRecord) : String :=
  record.logger ++ " - " ++ record.level.name ++ " - " ++ record.message

end Log

end ComponentTree
