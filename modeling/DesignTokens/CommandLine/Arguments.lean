import DesignTokens.Generation

/-!
# Command line arguments

The program has one command, `generate`, with two options that take a value and three that do
not, and options of its own before the command. Options have a long form, whose value follows
after an equals sign or as the next argument, and some have a short form, whose value follows at
once or as the next argument. Two dashes end the options.

* `Request` is what the arguments ask for.
* `parse` reads the arguments; nothing is their reading if they are misused.
-/

namespace DesignTokens.CommandLine

/-- What the arguments ask for. -/
inductive Request where
  | version
  | help
  | generate (options : Options) (verbose : Bool)
deriving DecidableEq, Repr

/-- The options given to the command. -/
structure Given where
  options : Options := {}
  verbose : Bool := false
  help : Bool := false
deriving DecidableEq, Repr

/-- An option that takes a value. -/
inductive ValueOption where
  | tokensDir
  | output
deriving DecidableEq, Repr

/-- An option that takes none. -/
inductive Flag where
  | oklch
  | modernCss
  | verbose
  | help
deriving DecidableEq, Repr

/-- An option of either kind. -/
inductive OptionName where
  | value (o : ValueOption)
  | flag (f : Flag)
deriving DecidableEq, Repr

/-- The option with a long form. -/
def longOption? : String → Option OptionName
  | "--tokens-dir" => some (.value .tokensDir)
  | "--output" => some (.value .output)
  | "--oklch" => some (.flag .oklch)
  | "--modern-css" => some (.flag .modernCss)
  | "--verbose" => some (.flag .verbose)
  | "--help" => some (.flag .help)
  | _ => none

/-- The option with a short form; each of them takes a value. -/
def shortOption? : Char → Option ValueOption
  | 't' => some .tokensDir
  | 'o' => some .output
  | _ => none

/-- Takes note of an option with its value; the last value counts. -/
def Given.setValue (g : Given) (o : ValueOption) (value : String) : Given :=
  match o with
  | .tokensDir => { g with options := { g.options with tokensDir := Location.ofString value } }
  | .output => { g with options := { g.options with outputFile := Location.ofString value } }

/-- Takes note of an option without a value. -/
def Given.setFlag (g : Given) (f : Flag) : Given :=
  match f with
  | .oklch => { g with options := { g.options with oklch := true } }
  | .modernCss => { g with options := { g.options with modernCss := true } }
  | .verbose => { g with verbose := true }
  | .help => { g with help := true }

/-- Cuts an argument at its first equals sign. -/
def splitEquals (argument : List Char) : List Char × Option (List Char) :=
  match argument.dropWhile (· != '=') with
  | [] => (argument, none)
  | _ :: value => (argument.takeWhile (· != '='), some value)

/-- What one argument of the command says. -/
inductive Argument where
  | endOfOptions
  | flag (f : Flag)
  | value (o : ValueOption) (text : String)
  /-- the value is the next argument -/
  | valueFollows (o : ValueOption)
  /-- an argument that is no option: the command takes none -/
  | extra
  | misused
deriving DecidableEq, Repr

/-- Reads one argument of the command. -/
def readArgument (argument : String) : Argument :=
  match argument.toList with
  | ['-', '-'] => .endOfOptions
  | '-' :: '-' :: _ =>
    let (name, value) := splitEquals argument.toList
    match longOption? (String.ofList name), value with
    | some (.flag f), none => .flag f
    | some (.value o), none => .valueFollows o
    | some (.value o), some text => .value o (String.ofList text)
    | _, _ => .misused
  | ['-', letter] =>
    match shortOption? letter with
    | some o => .valueFollows o
    | none => .misused
  | '-' :: letter :: text =>
    match shortOption? letter with
    | some o => .value o (String.ofList text)
    | none => .misused
  | _ => .extra

/-- What the command is asked for once all its arguments are read. A request for help comes
before a complaint about arguments that the command does not take. -/
def Given.request (g : Given) (extra : Bool) : Option Request :=
  if g.help then some .help
  else if extra then none
  else some (.generate g.options g.verbose)

/-- Reads the arguments of the command; `extra` tells whether one was met that is no option. -/
def readCommand (g : Given) (extra : Bool) : List String → Option Request
  | [] => g.request extra
  | argument :: rest =>
    match readArgument argument with
    | .endOfOptions => g.request (extra || !rest.isEmpty)
    | .flag f => readCommand (g.setFlag f) extra rest
    | .value o text => readCommand (g.setValue o text) extra rest
    | .valueFollows o =>
      -- the next argument is the value even if it looks like an option
      match rest with
      | [] => none
      | text :: more => readCommand (g.setValue o text) extra more
    | .extra => readCommand g true rest
    | .misused => none

/-- Reads the options before the command: what the first of them asks for, and the arguments
from the command on. -/
def readRoot (asked : Option Request) : List String → Option (Option Request × List String)
  | [] => some (asked, [])
  | argument :: rest =>
    match argument.toList with
    | ['-', '-'] => some (asked, rest)
    | '-' :: letter :: letters =>
      if argument = "--help" then readRoot (asked <|> some .help) rest
      else if argument = "--version" ∨ (letter :: letters).all (· == 'v') then
        readRoot (asked <|> some .version) rest
      else none
    | _ => some (asked, argument :: rest)

/-- What is asked for in place of a command. After two dashes an option may stand there, and then
the options before the command are read once more. -/
def readNoCommand (arguments : List String) : Option Request :=
  match readRoot none arguments with
  | some (asked, _) => asked
  | none => none

/-- Reads all arguments; nothing if they are misused. The options before the command are all
read before one of them is answered. -/
def parse (arguments : List String) : Option Request :=
  match readRoot none arguments with
  | none => none
  | some (some asked, _) => some asked
  | some (none, command) =>
    match command with
    | "generate" :: rest => readCommand {} false rest
    | other => readNoCommand other

end DesignTokens.CommandLine
