import PlanOrbits.Text.Blank

/-!
# Arguments

What a user asks for on the command line. An option with a value is written
`--name value` or `--name=value`; a value that is written apart does not begin
with a dash, unless it is nothing but a dash. Nothing may be given twice in front
of a command, or twice behind it.

Arguments are read from left to right, and the first fault or the first request
for help decides.
-/

namespace PlanOrbits

/-- The commands of the program. -/
inductive CommandName where
  | automorphisms
  | detect
  | encode
  deriving DecidableEq, Repr

namespace CommandName

/-- All commands. -/
def all : List CommandName := [automorphisms, detect, encode]

/-- The name as it is written. -/
def text : CommandName → String
  | automorphisms => "automorphisms"
  | detect => "detect"
  | encode => "encode"

/-- The command with a name. -/
def ofText? (name : String) : Option CommandName := all.find? (·.text == name)

/-- The options of a command that have a value; first those that must be given. -/
def valueOptions : CommandName → List String × List String
  | automorphisms => (["graph"], ["config", "out"])
  | detect => (["plan"], ["config", "out"])
  | encode => (["plan", "out"], [])

/-- The options of a command that have no value. -/
def switches : CommandName → List String
  | automorphisms => []
  | detect => ["no-schema-swaps"]
  | encode => ["protocol"]

end CommandName

/-- What is to be done. -/
inductive Request where
  /-- Print how the program, or one of its commands, is used. -/
  | help (command : Option CommandName)
  | version
  | automorphisms (graph : String) (config out : Option String)
  | detect (plan : String) (config out : Option String) (includeSchemaSwaps : Bool)
  | encode (plan out : String) (asProtocol : Bool)
  deriving DecidableEq, Repr

/-- What is wrong with the arguments. -/
inductive UsageError where
  /-- No command is given. -/
  | missingCommand
  | unknownCommand (name : String)
  | unexpectedArgument (argument : String)
  /-- An option is given twice. -/
  | repeatedOption (option : String)
  /-- An option needs a value that is not empty. -/
  | missingValue (option : String)
  /-- An option has a value and should have none. -/
  | unneededValue (option : String)
  /-- An option is not given that must be given. -/
  | missingOption (option : String)
  deriving DecidableEq, Repr

/-- How a fault of the arguments is reported. -/
def UsageError.message : UsageError → String
  | missingCommand => "a command is required"
  | unknownCommand name => "unrecognized command '" ++ name ++ "'"
  | unexpectedArgument argument => "unexpected argument '" ++ argument ++ "'"
  | repeatedOption option => "'--" ++ option ++ "' cannot be used multiple times"
  | missingValue option => "a value is required for '--" ++ option ++ "'"
  | unneededValue option => "'--" ++ option ++ "' takes no value"
  | missingOption option => "'--" ++ option ++ "' is required"

/-! ## Options -/

/-- The options that were found. -/
structure Options where
  values : List (String × String)
  switches : List String

namespace Options

/-- No options. -/
def empty : Options := { values := [], switches := [] }

/-- The options with one more value. -/
def addValue (o : Options) (name value : String) : Except UsageError Options :=
  if (o.values.lookup name).isSome then .error (.repeatedOption name)
  else if value == "" then .error (.missingValue name)
  else .ok { o with values := (name, value) :: o.values }

/-- The options with one more switch. -/
def addSwitch (o : Options) (name : String) : Except UsageError Options :=
  if o.switches.contains name then .error (.repeatedOption name)
  else .ok { o with switches := name :: o.switches }

end Options

/-- An argument. -/
inductive Argument where
  /-- Two dashes, behind which no options are recognised. -/
  | dashes
  | long (name : String) (value : Option String)
  /-- One dash and letters. -/
  | short (letters : List Char)
  | plain (text : String)
  deriving DecidableEq, Repr

/-- The kind of an argument. -/
def Argument.ofText (text : String) : Argument :=
  match text.toList with
  | ['-', '-'] => .dashes
  | '-' :: '-' :: cs =>
      match Text.cutAt? '=' cs with
      | some (name, value) => .long (String.ofList name) (some (String.ofList value))
      | none => .long (String.ofList cs) none
  | '-' :: c :: cs => .short (c :: cs)
  | _ => .plain text

/-- What reading some arguments led to, if they were well formed. -/
inductive Parsed (α : Type) where
  | help
  | version
  | done (result : α)

/-- Read letters behind one dash. `hasVersion` tells whether the version can be
asked for. -/
def readLetters (hasVersion : Bool) (o : Options) :
    List Char → Except UsageError (Parsed Options)
  | [] => .ok (.done o)
  | c :: cs =>
      if c == 'v' then do readLetters hasVersion (← o.addSwitch "verbose") cs
      else if c == 'h' then .ok .help
      else if c == 'V' && hasVersion then .ok .version
      else .error (.unexpectedArgument (String.ofList ['-', c]))

/-- Read the arguments of a command. -/
def readOptions (command : CommandName) (o : Options) :
    List String → Except UsageError (Parsed Options)
  | [] => .ok (.done o)
  | arg :: args =>
      match Argument.ofText arg with
      | .dashes =>
          match args with
          | [] => .ok (.done o)
          | next :: _ => .error (.unexpectedArgument next)
      | .plain text => .error (.unexpectedArgument text)
      | .short letters => do
          match ← readLetters false o letters with
          | .done o => readOptions command o args
          | other => return other
      | .long name value =>
          if (command.valueOptions.1 ++ command.valueOptions.2).contains name then
            match value, args with
            | some value, args => do readOptions command (← o.addValue name value) args
            | none, next :: args =>
                match Argument.ofText next with
                | .plain value => do readOptions command (← o.addValue name value) args
                | _ => .error (.missingValue name)
            | none, [] => .error (.missingValue name)
          else if name == "help" || name == "verbose" || command.switches.contains name then
            if value.isSome then .error (.unneededValue name)
            else if name == "help" then .ok .help
            else do readOptions command (← o.addSwitch name) args
          else .error (.unexpectedArgument arg)

/-! ## Requests -/

/-- The value of an option that must be given. -/
def Options.required (o : Options) (name : String) : Except UsageError String :=
  match o.values.lookup name with
  | some value => .ok value
  | none => .error (.missingOption name)

/-- The request for a command with options. -/
def Request.ofOptions (o : Options) : CommandName → Except UsageError Request
  | .automorphisms => do
      return .automorphisms (← o.required "graph") (o.values.lookup "config")
        (o.values.lookup "out")
  | .detect => do
      return .detect (← o.required "plan") (o.values.lookup "config") (o.values.lookup "out")
        (!o.switches.contains "no-schema-swaps")
  | .encode => do
      return .encode (← o.required "plan") (← o.required "out") (o.switches.contains "protocol")

/-- What the arguments ask for, and whether the log is to be detailed. -/
structure Invocation where
  isVerbose : Bool
  request : Request
  deriving DecidableEq, Repr

/-- The request for help with the command whose name follows. There is help with
help itself, too, and no command has commands of its own. -/
def helpOn : List String → Except UsageError Request
  | [] => .ok (.help none)
  | name :: names =>
      let request? :=
        if name == "help" then some (.help none)
        else (CommandName.ofText? name).map fun command => .help (some command)
      match request?, names with
      | none, _ => .error (.unknownCommand name)
      | some request, [] => .ok request
      | some _, next :: _ => .error (.unknownCommand next)

/-- Read all arguments. -/
def Invocation.ofArguments (o : Options) : List String → Except UsageError Invocation
  | [] => .error .missingCommand
  | arg :: args =>
      let isVerbose := o.switches.contains "verbose"
      match Argument.ofText arg with
      | .dashes => .error .missingCommand
      | .long name value =>
          if value.isSome then .error (.unexpectedArgument arg)
          else if name == "help" then .ok { isVerbose, request := .help none }
          else if name == "version" then .ok { isVerbose, request := .version }
          else if name == "verbose" then do ofArguments (← o.addSwitch name) args
          else .error (.unexpectedArgument arg)
      | .short letters => do
          match ← readLetters true o letters with
          | .help => return { isVerbose, request := .help none }
          | .version => return { isVerbose, request := .version }
          | .done o => ofArguments o args
      | .plain name =>
          match CommandName.ofText? name with
          | some command => do
              match ← readOptions command .empty args with
              | .done found =>
                  return {
                    isVerbose := isVerbose || found.switches.contains "verbose"
                    request := ← Request.ofOptions found command }
              | _ => return { isVerbose, request := .help (some command) }
          | none =>
              if name == "help" then do return { isVerbose, request := ← helpOn args }
              else .error (.unknownCommand name)

/-!
## How the program is used

The texts that are printed on request.
-/

/-- The name and the version of the program. -/
def versionText : String := "plansym 0.1.0\n"

/-- The text of lines. -/
def textOfLines (lines : List String) : String := String.join (lines.map (· ++ "\n"))

/-- What the switch does that all commands share. -/
def verboseHelp : String := "Log debug events, including every line printed by dreadnaut"

/-- How the program is used. -/
def generalHelp : String := textOfLines [
  "Symmetry detection for partial-order plans",
  "",
  "Usage: plansym [OPTIONS] <COMMAND>",
  "",
  "Commands:",
  "  automorphisms  Compute the automorphism group of a coloured graph with sparse vertex ids",
  "  detect         Detect causal-structure symmetries of a plan",
  "  encode         Write the coloured graph encoding of a plan",
  "  help           Print this message or the help of the given subcommand(s)",
  "",
  "Options:",
  "  -v, --verbose  " ++ verboseHelp,
  "  -h, --help     Print help",
  "  -V, --version  Print version"]

namespace CommandName

/-- How a command is used. -/
def help : CommandName → String
  | automorphisms => textOfLines [
      "Compute the automorphism group of a coloured graph with sparse vertex ids",
      "",
      "Usage: plansym automorphisms [OPTIONS] --graph <GRAPH>",
      "",
      "Options:",
      "      --graph <GRAPH>    JSON graph with sparse vertex ids: " ++
        "\x60\x7b\"vertices\": [\x7b\"id\", \"color\"\x7d], \"edges\": [[a, b]]\x7d\x60",
      "  -v, --verbose          " ++ verboseHelp,
      "      --config <CONFIG>  YAML engine configuration; defaults to " ++
        "\x60dreadnaut\x60 on the PATH",
      "      --out <OUT>        Output file. The result is printed when omitted",
      "  -h, --help             Print help"]
  | detect => textOfLines [
      "Detect causal-structure symmetries of a plan",
      "",
      "Usage: plansym detect [OPTIONS] --plan <PLAN>",
      "",
      "Options:",
      "      --plan <PLAN>      JSON file holding the partial plan",
      "  -v, --verbose          " ++ verboseHelp,
      "      --config <CONFIG>  YAML engine configuration; defaults to " ++
        "\x60dreadnaut\x60 on the PATH",
      "      --out <OUT>        Directory receiving \x60report.json\x60 and " ++
        "\x60symmetries.json\x60. The report is printed when omitted",
      "      --no-schema-swaps  Only derive symmetries from graph automorphisms",
      "  -h, --help             Print help"]
  | encode => textOfLines [
      "Write the coloured graph encoding of a plan",
      "",
      "Usage: plansym encode [OPTIONS] --plan <PLAN> --out <OUT>",
      "",
      "Options:",
      "      --plan <PLAN>  JSON file holding the partial plan",
      "  -v, --verbose      " ++ verboseHelp,
      "      --out <OUT>    Destination file",
      "      --protocol     Write the dreadnaut input instead of the graph JSON",
      "  -h, --help         Print help"]

end CommandName

end PlanOrbits
