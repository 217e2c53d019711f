import TableFeed.Session

/-!
# What the arguments ask for

Arguments are read from left to right. The first fault decides, and so does the first request for
help or for the version. Short options may share one argument, and a value may stand in the argument
of its option or in the next one.
-/

namespace TableFeed

/-- What the options of an invocation say. -/
structure Settings where
  command : Option String
  tokens : Bool
  json : Bool
  window : Bool
  deriving DecidableEq

/-- Why the arguments are read no further. -/
inductive Halt
  | help
  | version
  | misuse
  deriving DecidableEq

/-- What an invocation asks for. -/
inductive Invocation
  | help
  | version
  | misuse
  | window
  | answer (style : Style) (command : String)
  | session (style : Style)
  deriving DecidableEq

namespace Settings

/-- The settings without any options. -/
def initial : Settings :=
  ⟨none, false, false, false⟩

/-- How outcomes are to be shown. -/
def style (settings : Settings) : Style :=
  ⟨settings.tokens, settings.json⟩

/-- Set the command, which can be given only once. -/
def withCommand (settings : Settings) (command : List Char) : Except Halt Settings :=
  if settings.command.isSome then .error .misuse
  else .ok { settings with command := some (String.ofList command) }

end Settings

/-- The settings behind an argument, and whether the command is still to come in the next one. -/
structure AfterArgument where
  settings : Settings
  commandFollows : Bool

namespace Invocation

/-- Read short options that share one argument, without the hyphen in front of them. -/
def readShort (settings : Settings) : List Char → Except Halt AfterArgument
  | [] => .ok ⟨settings, false⟩
  | 'v' :: later => readShort settings later
  | 'h' :: _ => .error .help
  | 'V' :: _ => .error .version
  | ['c'] => .ok ⟨settings, true⟩
  | 'c' :: '=' :: command => return ⟨← settings.withCommand command, false⟩
  | 'c' :: command => return ⟨← settings.withCommand command, false⟩
  | _ => .error .misuse

/-- Read a long option, given its name and the value behind its equality sign. Options without a
value can be given only once, apart from the one that is counted. -/
def readLong (settings : Settings) (name : String) (value : Option (List Char)) :
    Except Halt AfterArgument :=
  match name, value with
  | "command", some command => return ⟨← settings.withCommand command, false⟩
  | "command", none => .ok ⟨settings, true⟩
  | "tokens", none =>
      if settings.tokens then .error .misuse else .ok ⟨{ settings with tokens := true }, false⟩
  | "json", none =>
      if settings.json then .error .misuse else .ok ⟨{ settings with json := true }, false⟩
  | "gui", none =>
      if settings.window then .error .misuse else .ok ⟨{ settings with window := true }, false⟩
  | "verbose", none => .ok ⟨settings, false⟩
  | "help", none => .error .help
  | "version", none => .error .version
  | _, _ => .error .misuse

/-- The value behind the equality sign of a long option, if it has one. -/
def attachedValue (option : List Char) : Option (List Char) :=
  match option.dropWhile (· != '=') with
  | [] => none
  | _ :: value => some value

/-- Read one argument. Only options are known, and a hyphen alone is none. -/
def readArgument (settings : Settings) : List Char → Except Halt AfterArgument
  | '-' :: '-' :: option =>
      readLong settings (String.ofList (option.takeWhile (· != '='))) (attachedValue option)
  | '-' :: first :: later => readShort settings (first :: later)
  | _ => .error .misuse

/-- Whether an argument can be the value of the option in front of it. -/
def isValue : List Char → Bool
  | '-' :: _ :: _ => false
  | _ => true

/-- Read the arguments. Behind two hyphens that stand alone no argument may follow. -/
def readArguments (settings : Settings) : List String → Except Halt Settings
  | [] => .ok settings
  | ["--"] => .ok settings
  | "--" :: _ => .error .misuse
  | argument :: later => do
      let after ← readArgument settings argument.toList
      if after.commandFollows then
        match later with
        | [] => .error .misuse
        | value :: later =>
            if isValue value.toList then
              readArguments (← after.settings.withCommand value.toList) later
            else .error .misuse
      else readArguments after.settings later

/-- What settings ask for. A window and a command do not go together. -/
def ofSettings (settings : Settings) : Invocation :=
  match settings.window, settings.command with
  | true, some _ => .misuse
  | true, none => .window
  | false, some command => .answer settings.style command
  | false, none => .session settings.style

/-- What the arguments ask for. -/
def ofArguments (arguments : List String) : Invocation :=
  match readArguments .initial arguments with
  | .ok settings => ofSettings settings
  | .error .help => .help
  | .error .version => .version
  | .error .misuse => .misuse

/-- The text that explains the options. -/
def helpText : String :=
  "Lexes and parses pubsql commands\n\n" ++
  "Usage: pubsql [OPTIONS]\n\n" ++
  "Options:\n" ++
  "  -c, --command <COMMAND>  Parse a single command and exit\n" ++
  "      --tokens             Print the token stream as well\n" ++
  "      --json               Print results as JSON\n" ++
  "      --gui                Open the console window\n" ++
  "  -v, --verbose...         Log more (-v debug, -vv trace)\n" ++
  "  -h, --help               Print help\n" ++
  "  -V, --version            Print version\n"

/-- The name and version of the program. -/
def versionText : String :=
  "pubsql 0.1.0\n"

/-- The transcript of a single command. -/
def answerOf (style : Style) (command : String) : Transcript :=
  let outcome := Outcome.ofText command
  ⟨outcome.render style ++ "\n", if outcome.isCommand then 0 else 1⟩

/-- The transcript of an invocation over the given input. No window can be opened. -/
def run (invocation : Invocation) (input : List UInt8) : Transcript :=
  match invocation with
  | help => ⟨helpText, 0⟩
  | version => ⟨versionText, 0⟩
  | misuse => ⟨"", 2⟩
  | window => ⟨"", 1⟩
  | answer style command => answerOf style command
  | session style => Session.run style input

end Invocation

end TableFeed
