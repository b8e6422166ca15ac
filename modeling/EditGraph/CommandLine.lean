import EditGraph.Session

/-!
# The command line

The program is called with the name of a command, two files and options, in this order or
with files and options mixed. Options are known by their exact names, and each may be given
once. Short flags may stand together behind one hyphen. After `--` every argument is a file.

A call ends with an exit code. It is 0 when a report, the version or help was printed, 1 when
the files could not be compared, and 2 when the call itself was wrong.

## Main definitions

* `UsageError` — what is wrong with a call.
* `Call` — what a call asks for; `Call.ofArguments` reads it.
* `Outcome` — what a call leaves behind.
* `runCommandLine` — the whole program on a workspace.
-/

namespace EditGraph

/-- What is wrong with a call. -/
inductive UsageError where
  | missingCommand
  | unknownCommand (name : String)
  /-- An option that the command does not have, or a file too many. -/
  | unexpectedArgument (argument : String)
  | missingValue (option : String)
  | invalidValue (option value : String)
  /-- A value for an option that takes none. -/
  | unexpectedValue (option : String)
  | repeatedOption (option : String)
  | emptyFileName
  | missingFile
  deriving DecidableEq, Repr

/-- The text of a usage error. -/
def UsageError.message : UsageError → String
  | .missingCommand => "a command is required"
  | .unknownCommand name => "unrecognized command '" ++ name ++ "'"
  | .unexpectedArgument argument => "unexpected argument '" ++ argument ++ "'"
  | .missingValue option => "a value is required for '" ++ option ++ "'"
  | .invalidValue option value => "invalid value '" ++ value ++ "' for '" ++ option ++ "'"
  | .unexpectedValue option => "no value is allowed for '" ++ option ++ "'"
  | .repeatedOption option => "'" ++ option ++ "' cannot be used more than once"
  | .emptyFileName => "a file name is required"
  | .missingFile => "two files are required"

/-- What a call asks for. -/
inductive Call where
  | version
  | help
  | compare (command : Command) (old new : String) (options : LineOptions)
  deriving DecidableEq, Repr

namespace Call

/-! ### Arguments of a command -/

/-- The arguments seen so far. -/
structure Given where
  method : Option Method
  skip : Option Nat
  ignoreCase : Bool
  ignoreWhitespace : Bool
  noChanges : Bool
  /-- The files, the last one first. -/
  files : List String
  deriving DecidableEq, Repr

/-- No argument seen. -/
def Given.nothing : Given := ⟨none, none, false, false, false, []⟩

/-- A decimal number of at most 64 bits, possibly behind a plus sign. -/
def readNumber? (s : String) : Option Nat :=
  let digits :=
    match s.toList with
    | '+' :: digits => digits
    | digits => digits
  if digits.isEmpty || !digits.all Char.isDigit then none
  else
    let n := digits.foldl (fun n c => 10 * n + (c.toNat - '0'.toNat)) 0
    if n < Word.limit then some n else none

/-- One more file. -/
def Given.addFile (g : Given) (file : String) : Except UsageError Given :=
  if 2 ≤ g.files.length then .error (.unexpectedArgument file)
  else if file.isEmpty then .error .emptyFileName
  else .ok { g with files := file :: g.files }

/-- The options that take a value. -/
inductive Setting where
  | hash
  | skipLeading
  deriving DecidableEq, Repr

/-- The name of an option with a value. -/
def Setting.name : Setting → String
  | .hash => "--hash"
  | .skipLeading => "--skip-prefix"

/-- The option gets its value. -/
def Given.set (g : Given) (setting : Setting) (value : String) : Except UsageError Given :=
  match setting with
  | .hash =>
    match Method.ofName value with
    | .error _ => .error (.invalidValue setting.name value)
    | .ok method =>
      if g.method.isSome then .error (.repeatedOption setting.name)
      else .ok { g with method := some method }
  | .skipLeading =>
    match readNumber? value with
    | none => .error (.invalidValue setting.name value)
    | some n =>
      if g.skip.isSome then .error (.repeatedOption setting.name)
      else .ok { g with skip := some n }

/-- The options that take no value. -/
inductive Flag where
  | ignoreCase
  | ignoreWhitespace
  | noChanges
  deriving DecidableEq, Repr

/-- The long name of a flag. -/
def Flag.name : Flag → String
  | .ignoreCase => "--ignore-case"
  | .ignoreWhitespace => "--ignore-whitespace"
  | .noChanges => "--no-change-edits"

/-- The flag is raised. -/
def Given.raise (g : Given) (flag : Flag) : Except UsageError Given :=
  let (raised, next) : Bool × Given :=
    match flag with
    | .ignoreCase => (g.ignoreCase, { g with ignoreCase := true })
    | .ignoreWhitespace => (g.ignoreWhitespace, { g with ignoreWhitespace := true })
    | .noChanges => (g.noChanges, { g with noChanges := true })
  if raised then .error (.repeatedOption flag.name) else .ok next

/-- What a long name means to a command. Only edits can be reported without changes. -/
inductive LongName where
  | setting (setting : Setting)
  | flag (flag : Flag)
  | help
  | unknown
  deriving DecidableEq, Repr

/-- The meaning of a long name. -/
def LongName.ofName (command : Command) (name : String) : LongName :=
  if name = Setting.hash.name then .setting .hash
  else if name = Setting.skipLeading.name then .setting .skipLeading
  else if name = Flag.ignoreCase.name then .flag .ignoreCase
  else if name = Flag.ignoreWhitespace.name then .flag .ignoreWhitespace
  else if name = Flag.noChanges.name ∧ command = .diff then .flag .noChanges
  else if name = "--help" then .help
  else .unknown

/-- The arguments of a command, or a call for help, which ends the reading. -/
inductive Arguments where
  | given (given : Given)
  | help
  deriving DecidableEq, Repr

/-- Short flags behind one hyphen. -/
def readCluster (argument : String) (g : Given) : List Char → Except UsageError Arguments
  | [] => .ok (.given g)
  | c :: rest => do
    if c = 'i' then readCluster argument (← g.raise .ignoreCase) rest
    else if c = 'w' then readCluster argument (← g.raise .ignoreWhitespace) rest
    else if c = 'h' then return .help
    else throw (.unexpectedArgument argument)

/-- An argument that is neither a file nor the value of an option: it begins with a hyphen
and goes on. -/
def isOption (argument : String) : Bool :=
  argument.toList.head? == some '-' && argument != "-"

/-- A long option, cut at its first equality sign. -/
def cutAtEquals (argument : String) : String × Option String :=
  let s := argument.toList
  let name := String.ofList (s.takeWhile (· ≠ '='))
  match s.dropWhile (· ≠ '=') with
  | [] => (name, none)
  | _ :: value => (name, some (String.ofList value))

/-- The arguments behind the name of a command. -/
def readArguments (command : Command) (g : Given) : List String → Except UsageError Arguments
  | [] => .ok (.given g)
  | argument :: rest =>
    if argument = "--" then do
      return .given (← rest.foldlM Given.addFile g)
    else if !isOption argument then do
      readArguments command (← g.addFile argument) rest
    else if "--".toList.isPrefixOf argument.toList then
      let (name, value?) := cutAtEquals argument
      match LongName.ofName command name, value? with
      | .unknown, _ => .error (.unexpectedArgument argument)
      | .help, some _ | .flag _, some _ => .error (.unexpectedValue name)
      | .help, none => .ok .help
      | .flag flag, none => do readArguments command (← g.raise flag) rest
      | .setting setting, some value => do
        readArguments command (← g.set setting value) rest
      | .setting setting, none =>
        match rest with
        | [] => .error (.missingValue name)
        | value :: rest =>
          if isOption value then .error (.missingValue name)
          else do readArguments command (← g.set setting value) rest
    else do
      match ← readCluster argument g (argument.toList.drop 1) with
      | .help => return .help
      | .given g => readArguments command g rest

/-- The options of the comparison. -/
def Given.options (g : Given) : LineOptions where
  method := g.method.getD .default
  normalization := ⟨g.skip.getD 0, g.ignoreWhitespace, g.ignoreCase⟩
  changes := !g.noChanges

/-! ### Whole calls -/

/-- The name of a command. -/
def commandName : Command → String
  | .diff => "diff"
  | .similarity => "similarity"
  | .common => "lcs"

/-- The command of a name. -/
def command? (name : String) : Option Command :=
  [Command.diff, .similarity, .common].find? (commandName · = name)

/-- The call for help on a command, on help itself, or on the whole program. -/
def readHelp : List String → Except UsageError Call
  | [] => .ok .help
  | name :: rest =>
    if (command? name).isNone && name != "help" then .error (.unknownCommand name)
    else
      match rest with
      | [] => .ok .help
      | extra :: _ => .error (.unknownCommand extra)

/-- The call that the arguments make. -/
def ofArguments : List String → Except UsageError Call
  | [] => .error .missingCommand
  | first :: rest =>
    match command? first with
    | some command => do
      match ← readArguments command .nothing rest with
      | .help => return .help
      | .given g =>
        match g.files with
        | [new, old] => return .compare command old new g.options
        | _ => throw .missingFile
    | none =>
      if first = "help" then readHelp rest
      else if first = "--version" then .ok .version
      else if first = "--help" then .ok .help
      else if "--".toList.isPrefixOf first.toList then .error (.unexpectedArgument first)
      else
        match first.toList with
        | '-' :: 'V' :: _ => .ok .version
        | '-' :: 'h' :: _ => .ok .help
        | '-' :: _ :: _ => .error (.unexpectedArgument first)
        | _ => .error (.unknownCommand first)

end Call

/-! ### The program -/

/-- The exit code and the texts that a call leaves behind. -/
structure Outcome where
  code : Nat
  stdout : String
  stderr : String
  deriving DecidableEq, Repr

/-- The name and version of the program. -/
def versionText : String := "seqdiff 0.1.0\n"

/-- A short account of how the program is called. -/
def helpText : String :=
  Report.unlines [
    "Line-based file comparison with Myers' diff",
    "",
    "USAGE:",
    "    seqdiff <diff|similarity|lcs> [OPTIONS] <OLD> <NEW>",
    "",
    "OPTIONS:",
    "        --hash <HASH>                Line fingerprint: content, crc32 or unique",
    "    -i, --ignore-case                Ignore case differences",
    "    -w, --ignore-whitespace          Ignore leading and trailing whitespace",
    "        --skip-prefix <SKIP_PREFIX>  Ignore this many leading characters of every line",
    "        --no-change-edits            Report replaced lines as a Delete and an Insert (diff)",
    "    -h, --help                       Print help",
    "    -V, --version                    Print version (before a command)"]

/-- Whether edits are printed in colours, by what the environment says and whether the output
is a terminal. Forcing colours wins over forbidding them, and either over the terminal. -/
def wantsColour (force forbid allow : Option String) (terminal : Bool) : Bool :=
  let isOn (value : String) : Bool := value != "0"
  if (force.map isOn).getD false then true
  else if forbid.isSome then false
  else (allow.map isOn).getD true && terminal

/-- The outcome of a failure. Its first text is the error, any other one a cause of it. A
comparison that breaks off ends the program in a way of its own. -/
def Failure.outcome (failure : Failure) : Outcome :=
  let text :=
    match failure.chain with
    | [] => "Error:\n"
    | [only] => "Error: " ++ only ++ "\n"
    | first :: causes =>
      "Error: " ++ first ++ "\n\nCaused by:\n" ++ Report.unlines (causes.map ("    " ++ ·))
  match failure with
  | .fault _ => ⟨101, "", text⟩
  | _ => ⟨1, "", text⟩

/-- The program, called with some arguments in a workspace. What a request has written is printed,
also when it fails. -/
def runCommandLine (workspace : Workspace) (colour : Bool) (arguments : List String) : Outcome :=
  match Call.ofArguments arguments with
  | .error e => ⟨2, "", "error: " ++ e.message ++ "\n"⟩
  | .ok .version => ⟨0, versionText, ""⟩
  | .ok .help => ⟨0, helpText, ""⟩
  | .ok (.compare command old new options) =>
    match (Session.create workspace colour).step (.compare command old new options) with
    | (.ok _, s) => ⟨0, s.written, ""⟩
    | (.error failure, s) => { failure.outcome with stdout := s.written }

end EditGraph
