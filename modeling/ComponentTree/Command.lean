import ComponentTree.Command.Arguments
import ComponentTree.Converter
import ComponentTree.Files.Text

/-!
# The command

Reads an HTML file, converts it and writes the descriptor tree as JSON, to a file or to the output.
If anything goes wrong on the way nothing is written. Only a text without an encoding is found out late: its
file has been emptied by then.
-/

namespace ComponentTree.Command

/-- What the command relies on, apart from a disk. -/
structure Runtime where
  /-- The library that reads HTML. -/
  library : Markup.Library
  /-- The deepest nesting of data that there is room to write. -/
  maxNesting : Nat

/-- What the command leaves behind, apart from files. -/
structure Outcome where
  exit : Nat
  output : String
  /-- The lines of the error output. -/
  errors : List String
  deriving DecidableEq, Repr

/-- Why the command gives no result. -/
inductive Failure where
  | unreadable (path : String)
  | file (fault : Files.Fault)
  | html (fault : HtmlFault)
  | conversion (fault : Fault)
  | tooNested (path : String)
  deriving DecidableEq, Repr

def Failure.message : Failure → String
  | .unreadable path => "Could not read file: " ++ path
  | .file fault => fault.message
  | .html fault => fault.message
  | .conversion fault => fault.message
  | .tooNested path => path ++ " is nested too deeply to serialise"

/-- What ends the command on the spot. It is not reported as a failure. -/
inductive Breakdown where
  /-- The level of reports was given without a value. -/
  | noLevel
  /-- A component was given without a tag. -/
  | noTag
  /-- The path of the output can lead nowhere, or the text for it has no encoding. -/
  | output (fault : Files.Fault)
  /-- The input cannot be cut into tokens. -/
  | rejected (refusal : Markup.Refusal)
  deriving DecidableEq, Repr

def Breakdown.message : Breakdown → String
  | .noLevel => "'list' object has no attribute 'upper'"
  | .noTag => "'list' object has no attribute 'lower'"
  | .output fault => fault.message
  | .rejected refusal => refusal.message

/-- The props strategy that a request asks for. -/
def strategyFor (propsify : Bool) : Option (PropsStrategy View) :=
  if propsify then some (standardStrategy {} PropNames.strict) else none

/-- The converter for components under the given tags. -/
def converterFor (tags : List String) (propsify : Bool) : Converter View :=
  .plain ((componentsOfTags tags).map fun (tag, name) => (tag, .str name)) (strategyFor propsify)

variable (runtime : Runtime)

/-- The conversion that a request asks for. A template that is asked for without an identifier is
not found. -/
def convertHtml (tags : List String) (request : Request) (html : String) :
    Except HtmlFault (Reported View) :=
  let converter := converterFor tags request.propsify
  match request.template with
  | some .missing => do
    let _ ← (runtime.library.parse html).mapError .refused
    .error (.templateNotFound "[]")
  | some (.text id) => converter.convertHtml runtime.library html (some id)
  | none => converter.convertHtml runtime.library html none

/-- The JSON text of a converted tree, unless it is nested too deeply. -/
def serialise (input : String) (tree : Value) : Except Failure Points × List LogRecord :=
  let data := tree.toData
  if runtime.maxNesting < data.nesting then (.error (.tooNested input), [])
  else (.ok (Json.text defaultIndent data), [Log.serialising])

/-- The JSON text for the text of the input file. Among the refusals of a text only that of too many
digits is a failure that is reported. -/
def convertText (tags : List String) (request : Request) (input html : String) :
    Except Breakdown (Except Failure Points × List LogRecord) :=
  match convertHtml runtime tags request html with
  | .error (.refused (.tooManyDigits count)) =>
    .ok (.error (.html (.refused (.tooManyDigits count))), [])
  | .error (.refused refusal) => .error (.rejected refusal)
  | .error (.templateNotFound id) => .ok (.error (.html (.templateNotFound id)), [])
  | .ok converted =>
    match converted.outcome with
    | .error fault => .ok (.error (.conversion fault), converted.log)
    | .ok tree =>
      let (result, log) := serialise runtime input tree
      .ok (result, converted.log ++ log)

variable {m : Type → Type} [Monad m]

/-- Reads and converts the input file. -/
def convertFile (disk : Disk m) (tags : List String) (request : Request) (input : String) :
    m (Except Breakdown (Except Failure Points × List LogRecord)) := do
  let start : LogRecord := ⟨.info, Log.converter, "Converting " ++ input⟩
  match ← Files.readText disk input with
  | .raised fault => return .ok (.error (.file fault), [start])
  | .done none log => return .ok (.error (.unreadable input), start :: log)
  | .done (some html) log =>
    return (convertText runtime tags request input html).map fun (result, more) =>
      (result, start :: log ++ more)

/-- The file that the output goes to, if it does not go to the output of the command. -/
def outputFile? (request : Request) : Option String :=
  (request.output.bind OptionValue.text?).filter (! ·.isEmpty)

/-- What goes to the output for a text. -/
def printout (text : Points) : Except Breakdown String :=
  match (text ++ Points.ofString "\n").string? with
  | some printed => .ok printed
  | none => .error (.output (.unencodable (.firstIn text)))

/-- Does what a request asks for: the exit code, the output and the reports. -/
def perform (disk : Disk m) (tags : List String) (request : Request) (input : String) :
    m (Except Breakdown (Nat × String × List LogRecord)) := do
  match ← convertFile runtime disk tags request input with
  | .error breakdown => return .error breakdown
  | .ok (.error failure, log) =>
    return .ok (1, "", log ++
      [⟨.error, Log.converter, "Conversion failed: " ++ failure.message⟩])
  | .ok (.ok text, log) =>
    match outputFile? request with
    | none => return (printout text).map fun printed => (0, printed, log)
    | some output =>
      match ← Files.writeText disk output (text ++ Points.ofString "\n") with
      | .raised fault => return .error (.output fault)
      | .done true more =>
        return .ok (0, "", log ++ more ++ [⟨.info, Log.converter, "Wrote " ++ output⟩])
      | .done false more => return .ok (1, "", log ++ more)

/-- The reports at a level as lines of the error output. -/
def reportLines (level : String) (log : List LogRecord) : List String :=
  let threshold := Log.setLevel LogLevel.info.number level
  (log.filter (Log.passes threshold)).flatMap fun record => Text.lines (Log.outputLine record)

/-- Runs the command. Arguments that make no sense are reported and end it with exit code 2. -/
def run (disk : Disk m) (arguments : List String) : m (Except Breakdown Outcome) := do
  match Request.ofArguments arguments with
  | .error e => return .ok ⟨2, "", Text.lines ("hyperscriptify: error: " ++ e.message)⟩
  | .ok request =>
    match request.input with
    | none => return .ok ⟨0, "", []⟩
    | some input =>
      if request.help then return .ok ⟨0, "", []⟩
      else
        match request.logLevel.text?, request.components.mapM OptionValue.text? with
        | none, _ => return .error .noLevel
        | some _, none => return .error .noTag
        | some level, some tags =>
          return (← perform runtime disk tags request input).map fun (exit, output, log) =>
            ⟨exit, output, reportLines level log⟩

end ComponentTree.Command
