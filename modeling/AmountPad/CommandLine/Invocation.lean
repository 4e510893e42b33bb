import AmountPad.CommandLine

/-!
# Invocations

An invocation is what a run finds when it starts: its arguments, the files that they
can name, and the default settings file.  The run goes on with the settings that are
loaded from the file that the arguments lead to.
-/

namespace AmountPad.CommandLine

/-- What a run finds when it starts. -/
structure Invocation where
  arguments : List Text
  /-- The text of the file with a path, unless it cannot be read. -/
  named : Text → Option Text
  /-- The default settings file, if it exists. -/
  fallback : Option SettingsFile

namespace Invocation

/-- What comes of an invocation and a standard input. -/
def respond (invocation : Invocation) (input : List UInt8) : Outcome :=
  CommandLine.respond invocation.arguments invocation.named invocation.fallback input

/-- The settings file that some options lead to. -/
def settingsFile (invocation : Invocation) (options : Options) : Option SettingsFile :=
  match options.settings with
  | some path => some ⟨path, invocation.named path⟩
  | none => invocation.fallback

/-- The arguments ask for the value of an expression, or for a session if there is no
expression, and the settings are loaded. -/
def Starts (invocation : Invocation) (expression : Option Text) (settings : Settings) : Prop :=
  ∃ options, read invocation.arguments = some (.run options) ∧
    options.expression = expression ∧
    loadSettings (invocation.settingsFile options) = .ok settings

end Invocation

end AmountPad.CommandLine
