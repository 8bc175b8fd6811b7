import ContainerAudit.Level
import ContainerAudit.Log

/-!
# The command line

Every switch takes a value, either in the same argument after an equals sign or as the next
argument, and may be given once.  A switch without an equals sign stays pending until the next
argument that is no value, so its errors come after those of that argument if no argument can
stand there at all, and before them otherwise.
-/

namespace ContainerAudit.CommandLine

/-- What a caller can choose. -/
structure Options where
  /-- How much goes to the log. -/
  logLevel : LogLevel := .error
  /-- The directory of the bundle. -/
  path : String := "."
  /-- The weakest requirement whose failures count. -/
  minimum : Level := .must
deriving DecidableEq

/-- What the caller asks for. -/
inductive Request where
  | audit (options : Options)
  | help
  | version
deriving DecidableEq

/-- The switches that take a value. -/
inductive Switch where
  | logLevel
  | path
  | complianceLevel
deriving DecidableEq, Repr

/-- The name of a switch, without its dashes. -/
def Switch.name : Switch → String
  | logLevel => "log-level"
  | path => "path"
  | complianceLevel => "compliance-level"

/-- All switches. -/
def Switch.all : List Switch := [logLevel, path, complianceLevel]

/-- Why a command line is not understood. -/
inductive UsageError where
  | unknownArgument (argument : String)
  | missingValue (switch : Switch)
  /-- A value that the switch does not have. -/
  | badValue (switch : Switch) (value : String)
  /-- A text that is no key word for a requirement; it is in lower case. -/
  | unknownLevel (text : String)
  | repeated (switch : Switch)
  /-- A value for a switch that takes none. -/
  | surplusValue (argument : String)
deriving DecidableEq

/-- The message for a command line that is not understood. -/
def UsageError.message : UsageError → String
  | unknownArgument argument => s!"unexpected argument '{argument}'"
  | missingValue switch => s!"a value is required for '--{switch.name}'"
  | badValue switch value => s!"invalid value '{value}' for '--{switch.name}'"
  | unknownLevel text => Level.unknownMessage text
  | repeated switch => s!"'--{switch.name}' cannot be used more than once"
  | surplusValue argument => s!"unexpected value in '{argument}'"

/-! ## Single arguments -/

/-- What an argument is, whatever stands around it. -/
inductive Argument where
  | switch (switch : Switch) (value : Option String)
  /-- Asks for something else than an audit. -/
  | request (request : Request) (value : Option String)
  /-- The two dashes after which nothing is a switch. -/
  | separator
  /-- No switch, so perhaps the value of one. -/
  | text
  /-- A switch that does not exist. -/
  | unknown
deriving DecidableEq

/-- The argument with two dashes in front of a name. -/
def Argument.named (name : String) (value : Option String) : Argument :=
  match Switch.all.find? (·.name = name) with
  | some found => .switch found value
  | none =>
    if name = "help" then .request .help value
    else if name = "version" then .request .version value
    else .unknown

/-- What an argument is.  Of letters behind one dash the first decides. -/
def Argument.ofText (argument : String) : Argument :=
  let isName (c : Char) : Bool := c != '='
  match argument.toList with
  | ['-', '-'] => .separator
  | '-' :: '-' :: rest =>
    let value := (rest.dropWhile isName).tail?
    .named (String.ofList (rest.takeWhile isName)) (value.map String.ofList)
  | ['-'] => .text
  | '-' :: 'h' :: _ => .request .help none
  | '-' :: 'V' :: _ => .request .version none
  | '-' :: _ => .unknown
  | _ => .text

/-! ## Whole command lines -/

/-- The values that have been given so far. -/
structure Given where
  logLevel : Option LogLevel := none
  path : Option String := none
  minimum : Option Level := none

/-- The options for given values. -/
def Given.options (g : Given) : Options :=
  let default : Options := {}
  { logLevel := g.logLevel.getD default.logLevel
    path := g.path.getD default.path
    minimum := g.minimum.getD default.minimum }

/-- Whether a switch has been given. -/
def Given.has (g : Given) : Switch → Bool
  | .logLevel => g.logLevel.isSome
  | .path => g.path.isSome
  | .complianceLevel => g.minimum.isSome

/-- The level of the log with a name in lower case. -/
def logLevelNamed? (name : String) : Option LogLevel :=
  LogLevel.all.find? fun level => Level.lower level.name = name

/-- Gives a switch its value. -/
def Given.add (g : Given) (switch : Switch) (value : String) : Except UsageError Given :=
  match switch with
  | .logLevel =>
    match logLevelNamed? value with
    | some level => .ok { g with logLevel := some level }
    | none => .error (.badValue switch value)
  | .path =>
    if value = "" then .error (.badValue switch value) else .ok { g with path := some value }
  | .complianceLevel =>
    match Level.parse value with
    | .ok level => .ok { g with minimum := some level }
    | .error text => .error (.unknownLevel text)

/-- Takes a switch with its value, if it has one. -/
def Given.accept (g : Given) (switch : Switch) : Option String → Except UsageError Given
  | none => .error (.missingValue switch)
  | some value => if g.has switch then .error (.repeated switch) else g.add switch value

/-- A switch whose value may still come, with the value if it has come. -/
abbrev Pending := Option (Switch × Option String)

/-- Takes the pending switch, if there is one. -/
def Given.settle (g : Given) : Pending → Except UsageError Given
  | none => .ok g
  | some (switch, value) => g.accept switch value

/-- Reads the remaining arguments. -/
def read (given : Given) (pending : Pending) : List String → Except UsageError Request
  | [] => do return .audit (← given.settle pending).options
  | argument :: rest =>
    match Argument.ofText argument, pending with
    | .text, some (switch, none) => read given (some (switch, some argument)) rest
    | .text, _ | .unknown, _ => .error (.unknownArgument argument)
    | .separator, _ =>
      match rest with
      | [] => do return .audit (← given.settle pending).options
      | next :: _ => .error (.unknownArgument next)
    | .switch switch none, _ => do read (← given.settle pending) (some (switch, none)) rest
    | .switch switch (some value), _ => do
      read (← (← given.settle pending).accept switch value) none rest
    | .request _ (some _), _ => .error (.surplusValue argument)
    | .request request none, _ => do
      let _ ← given.settle pending
      return request

/-- Reads a command line, without the name of the program. -/
def parse (arguments : List String) : Except UsageError Request := read {} none arguments

end ContainerAudit.CommandLine
