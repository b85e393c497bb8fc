import ComponentTree.Text.DecimalDigit
import ComponentTree.Value.Display

/-!
# Command line arguments

An argument that starts with a dash is an option, unless it is a lone dash, looks like a negative
number, or holds a blank and starts no option. Long options can be shortened as long as no other one
starts alike, and short ones can follow each other in one argument. After two dashes all arguments
are plain; written into the argument of an option, two dashes stand for no value at all.
-/

namespace ComponentTree.Command

/-- The options of the command. -/
inductive Switch where
  | help
  | output
  | component
  | template
  | propsify
  | logLevel
  deriving DecidableEq, Repr

namespace Switch

/-- The spellings of the options. -/
def spellings : List (String × Switch) :=
  [("-h", .help), ("--help", .help), ("-o", .output), ("--output", .output), ("-c", .component),
   ("--component", .component), ("--template", .template), ("--propsify", .propsify),
   ("--log-level", .logLevel)]

/-- All spellings of an option. -/
def title (o : Switch) : String :=
  "/".intercalate ((spellings.filter fun entry => entry.2 = o).map (·.1))

/-- Whether an option is followed by a value. -/
def takesValue : Switch → Bool
  | .help => false
  | .propsify => false
  | _ => true

end Switch

/-- What is wrong with the arguments. -/
inductive UsageError where
  | ambiguous (argument : String) (candidates : List String)
  | valueExpected (o : Switch)
  | valueIgnored (o : Switch) (value : String)
  | inputRequired
  | unrecognized (arguments : List String)
  deriving DecidableEq, Repr

def UsageError.message : UsageError → String
  | .ambiguous argument candidates =>
    "ambiguous option: " ++ argument ++ " could match " ++ ", ".intercalate candidates
  | .valueExpected o => "argument " ++ o.title ++ ": expected one argument"
  | .valueIgnored o value =>
    "argument " ++ o.title ++ ": ignored explicit argument " ++ (Value.str value).describe
  | .inputRequired => "the following arguments are required: input"
  | .unrecognized arguments => "unrecognized arguments: " ++ " ".intercalate arguments

/-- An argument by its form. -/
inductive Argument where
  | plain (text : String)
  /-- The two dashes after which all is plain. -/
  | dashes
  /-- An option, with the value that is part of the argument itself. `afterHelp` tells whether the
  usage is asked for in the same argument. -/
  | option (afterHelp : Bool) (o : Switch) (value : Option String)
  /-- An option that cannot be used in the way it is written. -/
  | misused (e : UsageError)
  /-- What has the form of an option and is none. -/
  | unknown (text : String)
  deriving DecidableEq, Repr

/-! ### Forms -/

/-- The parts of a text around its first equals sign. -/
def cutAtEquals (cs : List Char) : Option (List Char × List Char) :=
  match cs.dropWhile (· != '=') with
  | [] => none
  | _ :: value => some (cs.takeWhile (· != '='), value)

/-- A text without the line feed at its end. -/
def withoutFinalNewline (cs : List Char) : List Char :=
  if cs.getLast? = some '\n' then cs.dropLast else cs

/-- Whether a text is a negative number, in digits of any script. A line feed may follow it. -/
def isNegativeNumber : List Char → Bool
  | '-' :: cs =>
    let number := withoutFinalNewline cs
    match number.dropWhile Text.isDecimalDigit with
    | [] => !number.isEmpty
    | '.' :: places => !places.isEmpty && places.all Text.isDecimalDigit
    | _ => false
  | _ => false

/-- The form of a short option that is followed by text in the same argument. If the option takes no
value, the text is read as further short options. -/
def shortForm (afterHelp : Bool) (o : Switch) : List Char → Argument
  | [] => .option afterHelp o none
  | c :: cs =>
    if o.takesValue then .option afterHelp o (some (String.ofList (c :: cs)))
    else
      match Switch.spellings.lookup (String.ofList ['-', c]) with
      | some next => shortForm (afterHelp || o == .help) next cs
      | none => .misused (.valueIgnored o (String.ofList (c :: cs)))

/-- The form of an option that is followed by an equals sign and text in the same argument. -/
def assignedForm (spelling : List Char) (o : Switch) (value : List Char) : Argument :=
  if o.takesValue then .option false o (some (String.ofList value))
  else if spelling.length = 2 && !value.isEmpty then shortForm false o value
  else .misused (.valueIgnored o (String.ofList value))

/-- The options that an argument can stand for, with their forms. `cs` starts with a dash. -/
def candidates (cs : List Char) : List (String × Argument) :=
  match cs with
  | '-' :: '-' :: _ =>
    let (start, value) :=
      match cutAtEquals cs with
      | some (start, value) => (start, some value)
      | none => (cs, none)
    (Switch.spellings.filter fun entry => start.isPrefixOf entry.1.toList).map fun (spelling, o) =>
      (spelling, value.elim (.option false o none) (assignedForm spelling.toList o))
  | _ =>
    Switch.spellings.filterMap fun (spelling, o) =>
      if spelling.toList = cs.take 2 then some (spelling, shortForm false o (cs.drop 2))
      else if cs.isPrefixOf spelling.toList then some (spelling, .option false o none)
      else none

/-- The option that is spelled out before the equals sign of an argument. -/
def spelledOut (cs : List Char) : Option Argument :=
  (cutAtEquals cs).bind fun (start, value) =>
    (Switch.spellings.lookup (String.ofList start)).map fun o => assignedForm start o value

/-- The form of an argument that comes before the two dashes. -/
def classify (argument : String) : Except UsageError Argument :=
  match argument.toList with
  | [] => .ok (.plain argument)
  | ['-'] => .ok (.plain argument)
  | '-' :: cs =>
    match Switch.spellings.lookup argument with
    | some o => .ok (.option false o none)
    | none =>
      match spelledOut ('-' :: cs) with
      | some found => .ok found
      | none =>
        match candidates ('-' :: cs) with
        | [(_, found)] => .ok found
        | [] =>
          if isNegativeNumber ('-' :: cs) || cs.contains ' ' then .ok (.plain argument)
          else .ok (.unknown argument)
        | several => .error (.ambiguous argument (several.map (·.1)))
  | _ => .ok (.plain argument)

/-- The forms of all arguments. -/
def classifyAll : List String → Except UsageError (List Argument)
  | [] => .ok []
  | "--" :: rest => .ok (.dashes :: rest.map .plain)
  | argument :: rest => do
    let form ← classify argument
    return form :: (← classifyAll rest)

/-! ### Requests -/

/-- The value given to an option. -/
inductive OptionValue where
  | text (s : String)
  /-- The option stands there without a value. -/
  | missing
  deriving DecidableEq, Repr

namespace OptionValue

/-- The value in the argument of an option. Two dashes are none. -/
def ofString (value : String) : OptionValue := if value = "--" then .missing else .text value

/-- The text of a value, if there is one. -/
def text? : OptionValue → Option String
  | .text s => some s
  | .missing => none

end OptionValue

/-- What the arguments ask for. -/
structure Request where
  input : Option String := none
  output : Option OptionValue := none
  /-- The tags to treat as components. -/
  components : List OptionValue := []
  template : Option OptionValue := none
  propsify : Bool := false
  logLevel : OptionValue := .text "WARNING"
  /-- Whether only the usage was asked for. -/
  help : Bool := false
  /-- The arguments that nothing takes. -/
  leftover : List String := []
  deriving DecidableEq, Repr

namespace Request

/-- Takes an option in, with its value if it takes one. -/
def setOption (r : Request) (o : Switch) (value : OptionValue) : Request :=
  match o with
  | .output => { r with output := some value }
  | .component => { r with components := r.components ++ [value] }
  | .template => { r with template := some value }
  | .logLevel => { r with logLevel := value }
  | .propsify => { r with propsify := true }
  | .help => { r with help := true }

/-- Takes the arguments in, one after the other. The first plain one is the input. Asking for the
usage ends it. -/
def take (r : Request) : List Argument → Except UsageError Request
  | [] => .ok r
  | .plain text :: rest =>
    match r.input with
    | some _ => take { r with leftover := r.leftover ++ [text] } rest
    | none =>
      match rest with
      | .dashes :: rest => take { r with input := some text } rest
      | rest => take { r with input := some text } rest
  | .dashes :: rest =>
    match r.input, rest with
    | none, .plain text :: rest => take { r with input := some text } rest
    | _, rest => take { r with leftover := r.leftover ++ ["--"] } rest
  | .unknown text :: rest => take { r with leftover := r.leftover ++ [text] } rest
  | .misused e :: _ => .error e
  | .option afterHelp o (some value) :: rest =>
    if afterHelp then .ok { r with help := true }
    else take (r.setOption o (.ofString value)) rest
  | .option afterHelp o none :: rest =>
    if o.takesValue then
      match rest with
      | .plain value :: rest =>
        if afterHelp then .ok { r with help := true }
        else take (r.setOption o (.text value)) rest
      | _ => .error (.valueExpected o)
    else if afterHelp || o = .help then .ok { r with help := true }
    else take (r.setOption o .missing) rest

/-- The request that arguments make. An input has to be among them, and nothing may be left over. -/
def ofArguments (arguments : List String) : Except UsageError Request := do
  let r ← take {} (← classifyAll arguments)
  if r.help then return r
  if r.input.isNone then throw .inputRequired
  if !r.leftover.isEmpty then throw (.unrecognized r.leftover)
  return r

end Request

end ComponentTree.Command
