import AmountPad.CommandLine

/-!
# The program

Reads the arguments, the settings file and the standard input, and prints what
`CommandLine` and `Session` answer.  A session is answered line by line.
-/

namespace AmountPad

/-- The directory of the user's settings. -/
def settingsDirectory? : IO (Option String) := do
  match ← IO.getEnv "XDG_CONFIG_HOME" with
  | some directory =>
      if directory.startsWith "/" then return some directory
  | none => pure ()
  return (← IO.getEnv "HOME").map fun home => home ++ "/.config"

/-- The text of a file, if it can be read. -/
def fileText? (path : String) : IO (Option Text) := do
  try
    return some (← IO.FS.readFile path).toList
  catch _ =>
    return none

/-- The default settings file, if it exists. -/
def fallbackFile? : IO (Option CommandLine.SettingsFile) := do
  match ← settingsDirectory? with
  | none => return none
  | some directory =>
      let path := directory ++ "/keypad_calc/config.toml"
      try
        let text ← IO.FS.readFile path
        return some { path := path.toList, text := some text.toList }
      catch
        | .noFileOrDirectory .. => return none
        | _ => return some { path := path.toList, text := none }

/-- Prints a text at once. -/
def printText (text : Text) : IO Unit := do
  let output ← IO.getStdout
  output.putStr (String.ofList text)
  output.flush

/-- Says how a run has ended, and gives its status. -/
def finish (exit : Exit) : IO UInt32 := do
  match exit with
  | .success => pure ()
  | .failure message => IO.eprintln ("Error: " ++ String.ofList message)
  | .usage =>
      IO.eprintln "error: the arguments are not understood\n\nFor more information, try '--help'."
  return exit.status

/-- Reads the bytes of a line, without its line feed. -/
partial def readLine? (input : IO.FS.Stream) (line : List UInt8) :
    IO (Option (List UInt8)) := do
  let bytes ← input.read 1
  match bytes.toList with
  | [] => return if line.isEmpty then none else some line.reverse
  | byte :: _ =>
      if byte = Session.lineFeed then return some line.reverse
      else readLine? input (byte :: line)

/-- Takes lines until the session ends. -/
partial def serve (settings : Settings) (input : IO.FS.Stream) (pad : Pad) :
    IO Exit := do
  match ← readLine? input [] with
  | none => return .success
  | some line =>
      match Session.reply pad line with
      | .finished => return .success
      | .unreadable => return .failure Session.unreadableMessage
      | .taken next =>
          printText (Session.answer settings next)
          serve settings input next

/-- The run that the options ask for. -/
def perform (options : CommandLine.Options) : IO UInt32 := do
  let file ←
    match options.settings with
    | some path =>
        pure (some { path, text := ← fileText? (String.ofList path) })
    | none => fallbackFile?
  match CommandLine.loadSettings file with
  | .error message => finish (.failure message)
  | .ok settings =>
      match options.expression with
      | some expression =>
          let outcome := CommandLine.calculateOnce expression
          printText outcome.output
          finish outcome.exit
      | none =>
          printText settings.prompt
          finish (← serve settings (← IO.getStdin) {})

end AmountPad

/-- The entry point. -/
def main (arguments : List String) : IO UInt32 := do
  match AmountPad.CommandLine.read (arguments.map String.toList) with
  | none => AmountPad.finish .usage
  | some .version =>
      AmountPad.printText AmountPad.CommandLine.versionText
      return 0
  | some .help =>
      AmountPad.printText AmountPad.CommandLine.helpText
      return 0
  | some (.run options) => AmountPad.perform options
