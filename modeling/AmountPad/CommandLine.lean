import AmountPad.Session

/-!
# The command line

The arguments ask for the version, for help, for the value of one expression, or
for a session.  Two options take a value: a settings file and an expression.  A
value is attached to its option or follows it as an argument of its own; in the
second case it must not look like an option.

An argument that is not understood is refused, and so are an option that is
given twice, one without its value, and a settings file without a name.
Arguments are taken in order: what asks for the version or for help is answered
before anything after it is looked at.
-/

namespace AmountPad.CommandLine

/-- The options that take a value. -/
inductive OptionName where
  | settings
  | expression
  deriving DecidableEq, Repr

/-- The values of the options. -/
structure Options where
  settings : Option Text := none
  expression : Option Text := none
  deriving DecidableEq, Repr

/-- What the arguments ask for. -/
inductive Request where
  | version
  | help
  | run (options : Options)
  deriving DecidableEq, Repr

/-- What one argument is. -/
inductive Argument where
  | version
  | help
  | option (name : OptionName) (attached : Option Text)
  | endOfOptions
  | unknown
  deriving DecidableEq, Repr

/-- The value of an option.  No option may have two, and a file has a name. -/
def Options.give (options : Options) (value : Text) : OptionName → Option Options
  | .settings =>
      if options.settings.isSome || value = [] then none
      else some { options with settings := some value }
  | .expression =>
      if options.expression.isSome then none
      else some { options with expression := some value }

/-- An argument that begins with two hyphens, which are left out here.  A value
is attached by an equals sign. -/
def longArgument (text : Text) : Argument :=
  let name := text.takeWhile (· ≠ '=')
  let attached :=
    match text.drop name.length with
    | [] => none
    | _ :: value => some value
  if text = [] then .endOfOptions
  else if name = "config".toList then .option .settings attached
  else if name = "eval".toList then .option .expression attached
  else if attached.isSome then .unknown
  else if name = "version".toList then .version
  else if name = "help".toList then .help
  else .unknown

/-- An argument that begins with one hyphen, which is left out here.  A value is
attached directly or by an equals sign. -/
def shortArgument (letter : Char) (text : Text) : Argument :=
  let attached :=
    match text with
    | [] => none
    | '=' :: value => some value
    | value => some value
  if letter = 'c' then .option .settings attached
  else if letter = 'e' then .option .expression attached
  else if letter = 'V' then .version
  else if letter = 'h' then .help
  else .unknown

/-- What an argument is.  A hyphen alone is no option. -/
def Argument.ofText : Text → Argument
  | '-' :: '-' :: text => longArgument text
  | '-' :: letter :: text => shortArgument letter text
  | _ => .unknown

/-- Whether an argument looks like an option. -/
def isOptionLike : Text → Bool
  | '-' :: _ :: _ => true
  | _ => false

/-- What the arguments ask for, after the options that have been given. -/
def readFrom (options : Options) : List Text → Option Request
  | [] => some (.run options)
  | argument :: later =>
      match Argument.ofText argument with
      | .version => some .version
      | .help => some .help
      | .endOfOptions => if later = [] then some (.run options) else none
      | .unknown => none
      | .option name (some value) =>
          (options.give value name).bind fun given => readFrom given later
      | .option name none =>
          match later with
          | [] => none
          | value :: later =>
              if isOptionLike value then none
              else (options.give value name).bind fun given => readFrom given later

/-- What the arguments ask for, or nothing if they are refused. -/
def read (arguments : List Text) : Option Request :=
  readFrom {} arguments

/-! ## Answers -/

/-- The answer to a request for the version. -/
def versionText : Text :=
  "keypad_calc 0.1.0\n".toList

/-- The answer to a request for help. -/
def helpText : Text :=
  ("Calculator keypad for a numeric amount field\n\n" ++
    "Usage: keypad_calc [OPTIONS]\n\n" ++
    "Options:\n" ++
    "  -c, --config <CONFIG>    Path to a TOML config file\n" ++
    "  -e, --eval <EXPRESSION>  Evaluate one expression and exit\n" ++
    "  -h, --help               Print help\n" ++
    "  -V, --version            Print version\n").toList

/-- A settings file: its path, and its text unless it cannot be read. -/
structure SettingsFile where
  path : Text
  text : Option Text
  deriving DecidableEq, Repr

/-- The settings in a file, or what is wrong with it. -/
def SettingsFile.load (file : SettingsFile) : Except Text Settings :=
  match file.text with
  | none => .error ("Failed to read config file ".toList ++ file.path)
  | some text =>
      match Settings.read? text with
      | none => .error ("Failed to parse config file ".toList ++ file.path)
      | some settings => .ok settings

/-- The settings in a file, or the defaults where there is no file. -/
def loadSettings : Option SettingsFile → Except Text Settings
  | none => .ok {}
  | some file => file.load

/-- The value of one expression, or what is wrong with it. -/
def calculateOnce (expression : Text) : Outcome :=
  match calculate expression with
  | .ok value => { output := Amount.plainText value ++ ['\n'] }
  | .error fault =>
      { exit := .failure (Fault.notice ++ " (".toList ++ fault.message ++ [')']) }

/-- The run that the options ask for, with the settings file that they lead to.
The settings are read first, also where they have no effect. -/
def perform (options : Options) (file : Option SettingsFile)
    (input : List UInt8) : Outcome :=
  match loadSettings file with
  | .error message => { exit := .failure message }
  | .ok settings =>
      match options.expression with
      | some expression => calculateOnce expression
      | none => Session.run settings input

/-- The whole program.  The settings file is looked up by the path that the
options give; without one it is the default file, if that exists. -/
def respond (arguments : List Text) (named : Text → Option Text)
    (fallback : Option SettingsFile) (input : List UInt8) : Outcome :=
  match read arguments with
  | none => { exit := .usage }
  | some .version => { output := versionText }
  | some .help => { output := helpText }
  | some (.run options) =>
      match options.settings with
      | some path => perform options (some ⟨path, named path⟩) input
      | none => perform options fallback input

end AmountPad.CommandLine
