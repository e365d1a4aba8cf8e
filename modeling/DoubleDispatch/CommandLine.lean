import DoubleDispatch.Invocation
import DoubleDispatch.Report

/-!
# A reader of command lines

Arguments are read from left to right. Options that belong to every task may stand before or behind
its name, all others only where they belong. What stands behind `--` is no option.

The program is run with this reader; what is proved of runs holds for any other one too.
-/

namespace DoubleDispatch

/-! ### Options -/

/-- The part of a command line that options belong to. -/
inductive TaskLevel where
  | top
  | generate
  | scan
  | marker
deriving DecidableEq, Repr, Inhabited

/-- An option, with or without a value. -/
inductive Flag where
  | config
  | output
  | exclude
  | printConfig
  | verbose
  | semantic
  | parallel
  | clean
  | json
  | help
  | version
deriving DecidableEq, Repr, Inhabited

/-- Why a command line is refused. -/
inductive UsageError where
  | unknownArgument (argument : String)
  | unknownTask (name : String)
  | missingValue (flag : Flag)
  | unexpectedValue (flag : Flag)
  | repeated (flag : Flag)
  | emptyPath
deriving DecidableEq, Repr, Inhabited

namespace Flag

/-- The long name of an option. -/
def long : Flag → String
  | config => "config"
  | output => "output"
  | exclude => "exclude"
  | printConfig => "print-config"
  | verbose => "verbose"
  | semantic => "semantic"
  | parallel => "parallel"
  | clean => "clean"
  | json => "json"
  | help => "help"
  | version => "version"

/-- The letter of an option. -/
def short? : Flag → Option Char
  | config => some 'c'
  | output => some 'o'
  | exclude => some 'e'
  | verbose => some 'v'
  | help => some 'h'
  | version => some 'V'
  | _ => none

/-- Whether an option needs a value. -/
def takesValue : Flag → Bool
  | config | output | exclude => true
  | _ => false

end Flag

/-- The wording of a refusal. -/
def UsageError.message : UsageError → String
  | unknownArgument argument => "unexpected argument '" ++ argument ++ "' found"
  | unknownTask name => "unrecognized subcommand '" ++ name ++ "'"
  | missingValue flag => "a value is required for '--" ++ flag.long ++ "' but none was supplied"
  | unexpectedValue flag => "unexpected value for '--" ++ flag.long ++ "' found"
  | repeated flag => "the argument '--" ++ flag.long ++ "' cannot be used multiple times"
  | emptyPath => "a path must not be empty"

namespace TaskLevel

/-- The name of the task of a level. -/
def name : TaskLevel → String
  | top => ""
  | generate => "generate"
  | scan => "scan"
  | marker => "marker"

/-- The task with a name. -/
def ofName? (name : String) : Option TaskLevel := [generate, scan, marker].find? (·.name = name)

/-- The options that may be given at a level. -/
def flags : TaskLevel → List Flag
  | top => [.config, .printConfig, .verbose, .help, .version]
  | generate => [.config, .verbose, .exclude, .semantic, .parallel, .output, .clean, .json, .help,
      .version]
  | scan => [.config, .verbose, .exclude, .semantic, .parallel, .json, .help, .version]
  | marker => [.config, .verbose, .help, .version]

/-- Whether paths may be given at a level. -/
def takesPaths : TaskLevel → Bool
  | generate | scan => true
  | top | marker => false

end TaskLevel

/-! ### What was given -/

/-- What was given at one level. -/
structure Given where
  config? : Option Path := none
  output? : Option Path := none
  exclude : List String := []
  paths : List Path := []
  verbosity : Nat := 0
  switches : List Flag := []
deriving DecidableEq, Repr, Inhabited

namespace Given

/-- The path with a text, which must not be empty. -/
def path (text : String) : Except UsageError Path :=
  if text = "" then .error .emptyPath else .ok ⟨text⟩

/-- One more option without a value. Only the one for verbosity may be repeated. -/
def switch (g : Given) (flag : Flag) : Except UsageError Given :=
  if flag = .verbose then .ok { g with verbosity := g.verbosity + 1 }
  else if g.switches.contains flag then .error (.repeated flag)
  else .ok { g with switches := flag :: g.switches }

/-- One more option with a value. Only patterns to exclude may be given more than once. -/
def option (g : Given) (flag : Flag) (value : String) : Except UsageError Given := do
  match flag with
  | .exclude => return { g with exclude := g.exclude ++ [value] }
  | .config =>
    let path ← path value
    if g.config?.isSome then throw (.repeated flag) else return { g with config? := path }
  | .output =>
    let path ← path value
    if g.output?.isSome then throw (.repeated flag) else return { g with output? := path }
  | flag => throw (.unexpectedValue flag)

/-- More paths. -/
def addPaths (g : Given) (level : TaskLevel) : List String → Except UsageError Given
  | [] => .ok g
  | text :: texts =>
    if level.takesPaths then do addPaths { g with paths := g.paths ++ [← path text] } level texts
    else .error (.unknownArgument text)

/-- The sources that were asked for: the working directory, if no path was given. -/
def sources (g : Given) : SourceOptions where
  paths := if g.paths.isEmpty then [⟨"."⟩] else g.paths
  exclude := g.exclude
  semantic := g.switches.contains .semantic
  parallel := g.switches.contains .parallel

/-- The task of a level. -/
def task? (g : Given) : TaskLevel → Option Task
  | .top => none
  | .generate => some (.generate g.sources g.output? (g.switches.contains .clean)
      (g.switches.contains .json))
  | .scan => some (.scan g.sources (g.switches.contains .json))
  | .marker => some .marker

/-- The run that was asked for. Of the options that belong to every task, those behind its name
count more than those before it. -/
def invocation (top g : Given) (level : TaskLevel) : Invocation where
  config? := g.config? <|> top.config?
  verbosity := if g.verbosity = 0 then top.verbosity else g.verbosity
  printConfig := top.switches.contains .printConfig || g.switches.contains .printConfig
  task? := g.task? level

end Given

namespace CommandLine

/-! ### Texts -/

/-- The name of the program, with that of a task. -/
def title : TaskLevel → String
  | .top => "visitorgen"
  | level => "visitorgen-" ++ level.name

/-- The version of the program. -/
def version : String := "0.3.0"

/-- How the program is used, line by line. -/
def usage : TaskLevel → List String
  | .top => ["Usage: visitorgen [OPTIONS] [COMMAND]", "",
      "Commands: generate, scan, marker, help", "",
      "Options: -c, --config <FILE>; --print-config; -v, --verbose; -h, --help; -V, --version"]
  | .generate => ["Usage: visitorgen generate [OPTIONS] [PATH]...", "",
      "Options: -e, --exclude <PATTERN>; --semantic; --parallel; -o, --output <DIR>; --clean;",
      "  --json; -c, --config <FILE>; -v, --verbose; -h, --help; -V, --version"]
  | .scan => ["Usage: visitorgen scan [OPTIONS] [PATH]...", "",
      "Options: -e, --exclude <PATTERN>; --semantic; --parallel; --json; -c, --config <FILE>;",
      "  -v, --verbose; -h, --help; -V, --version"]
  | .marker => ["Usage: visitorgen marker [OPTIONS]", "",
      "Options: -c, --config <FILE>; -v, --verbose; -h, --help; -V, --version"]

/-- The text that tells how the program is used. -/
def help (level : TaskLevel) : String := unlines (usage level)

/-! ### Reading arguments -/

/-- What came of an argument with options. -/
inductive Step where
  | done (g : Given)
  /-- The next argument has to be the value of an option. -/
  | awaiting (g : Given) (flag : Flag)
  | answer (r : Request)
deriving Repr, Inhabited

/-- The effect of an option, to which a value may be attached. -/
def apply (level : TaskLevel) (g : Given) (flag : Flag) (attached? : Option String) :
    Except UsageError Step :=
  match flag, attached? with
  | .help, none => .ok (.answer (.display (help level)))
  | .version, none => .ok (.answer (.display (title level ++ " " ++ version ++ "\n")))
  | flag, none => if flag.takesValue then .ok (.awaiting g flag) else .done <$> g.switch flag
  | flag, some value => .done <$> g.option flag value

/-- The effect of an argument behind its two dashes. -/
def long (level : TaskLevel) (g : Given) (argument : String) : Except UsageError Step :=
  let name := argument.toList.takeWhile (· ≠ '=')
  let attached? := match argument.toList.drop name.length with
    | _ :: value => some (String.ofList value)
    | [] => none
  match level.flags.find? (·.long = String.ofList name) with
  | some flag => apply level g flag attached?
  | none => .error (.unknownArgument ("--" ++ argument))

/-- The effect of letters behind a dash. A letter that needs a value takes the letters behind it,
or behind an equals sign. -/
def cluster (level : TaskLevel) (g : Given) : List Char → Except UsageError Step
  | [] => .ok (.done g)
  | c :: rest =>
    match level.flags.find? (·.short? = some c) with
    | none => .error (.unknownArgument (String.ofList ['-', c]))
    | some flag =>
      if flag.takesValue then
        match rest with
        | [] => apply level g flag none
        | '=' :: value => apply level g flag (some (String.ofList value))
        | value => apply level g flag (some (String.ofList value))
      else
        match apply level g flag none with
        | .ok (.done g) => cluster level g rest
        | other => other

/-- Whether an argument can be the value of the option before it. -/
def isValue (argument : String) : Bool :=
  match argument.toList with
  | '-' :: _ :: _ => false
  | _ => true

/-- The effect of an argument that starts with a dash. -/
def dashed (level : TaskLevel) (g : Given) (argument : String) : Except UsageError Step :=
  match argument.toList with
  | '-' :: '-' :: rest => long level g (String.ofList rest)
  | '-' :: rest => cluster level g rest
  | _ => .error (.unknownArgument argument)

/-- The arguments behind the word `help` name a task, or nothing. -/
def readHelp : List String → Except UsageError Request
  | [] => .ok (.display (help .top))
  | [name] =>
    match TaskLevel.ofName? name with
    | some level => .ok (.display (help level))
    | none => if name = "help" then .ok (.display (help .top)) else .error (.unknownTask name)
  | _ :: name :: _ => .error (.unknownTask name)

/-- Reads the arguments at a level, where some were given already. -/
def readFrom (top? : Option Given) (level : TaskLevel) (g : Given) :
    List String → Except UsageError Request
  | [] => .ok (.run ((top?.getD {}).invocation g level))
  | argument :: rest =>
    if argument = "--" then do
      let g ← g.addPaths level rest
      return .run ((top?.getD {}).invocation g level)
    else if isValue argument then
      if level = .top then
        if argument = "help" then readHelp rest
        else match TaskLevel.ofName? argument with
        | some task => readFrom (some g) task {} rest
        | none => .error (.unknownTask argument)
      else do readFrom top? level (← g.addPaths level [argument]) rest
    else
      match dashed level g argument with
      | .error e => .error e
      | .ok (.answer r) => .ok r
      | .ok (.done g) => readFrom top? level g rest
      | .ok (.awaiting g flag) =>
        match rest with
        | [] => .error (.missingValue flag)
        | value :: rest =>
          if isValue value then do readFrom top? level (← g.option flag value) rest
          else .error (.missingValue flag)

/-- Reads a command line without the name of the program. -/
def read (arguments : List String) : Except UsageError Request :=
  readFrom none .top {} arguments

/-- What a command line comes to. -/
def request (arguments : List String) : Request :=
  match read arguments with
  | .ok request => request
  | .error e => .refusal e.message

end CommandLine

end DoubleDispatch
