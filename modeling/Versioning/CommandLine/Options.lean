/-!
# Options of the command line

The arguments of a run are options with a long name, some of them also with a short
one. An option that takes a value has it after an equals sign or as the next argument,
which then must not begin with a hyphen; a short option may have it at once. Short
options without a value can be written together. Every option may be given once.

* `Options.ofArguments` reads the arguments.
-/

namespace Versioning

/-- What the arguments of a run say. -/
structure Options where
  config? : Option String := none
  batch : Bool := false
  autoVersionSubmodules : Bool := false
  branch : Bool := false
  releaseVersion? : Option String := none
  developmentVersion? : Option String := none
  policy? : Option String := none
  dryRun : Bool := false
  output? : Option String := none
  verbose : Bool := false
  deriving DecidableEq, Repr

/-- Why there is nothing to run. -/
inductive UsageFault where
  /-- The help text was asked for. -/
  | help
  | unknown (argument : String)
  | repeated (argument : String)
  | unexpectedValue (argument : String)
  | missingValue (argument : String)
  deriving DecidableEq, Repr

namespace Options

/-- The options. -/
inductive Name where
  | config | batch | autoVersionSubmodules | branch | releaseVersion | developmentVersion
  | policy | dryRun | output | verbose | help
  deriving DecidableEq, Repr

/-- The option with a long name. -/
def Name.ofLong? : String → Option Name
  | "config" => some config
  | "batch" => some batch
  | "auto-version-submodules" => some autoVersionSubmodules
  | "branch" => some branch
  | "release-version" => some releaseVersion
  | "development-version" => some developmentVersion
  | "policy" => some policy
  | "dry-run" => some dryRun
  | "output" => some output
  | "verbose" => some verbose
  | "help" => some help
  | _ => none

/-- The option with a short name. -/
def Name.ofShort? : Char → Option Name
  | 'c' => some config
  | 'o' => some output
  | 'v' => some verbose
  | 'h' => some help
  | _ => none

/-- Whether an option takes a value. -/
def Name.takesValue : Name → Bool
  | config | releaseVersion | developmentVersion | policy | output => true
  | _ => false

/-- Sets an option without a value, unless it is set already. -/
def setFlag (options : Options) (argument : String) : Name → Except UsageFault Options
  | .batch => once options.batch { options with batch := true }
  | .autoVersionSubmodules =>
    once options.autoVersionSubmodules { options with autoVersionSubmodules := true }
  | .branch => once options.branch { options with branch := true }
  | .dryRun => once options.dryRun { options with dryRun := true }
  | .verbose => once options.verbose { options with verbose := true }
  | .help => .error .help
  | _ => .error (.missingValue argument)
where
  /-- The options with the flag, unless there was one. -/
  once (given : Bool) (options : Options) : Except UsageFault Options :=
    if given then .error (.repeated argument) else .ok options

/-- Gives an option its value, unless it has one. -/
def setValue (options : Options) (argument value : String) : Name → Except UsageFault Options
  | .config => once options.config? { options with config? := some value }
  | .releaseVersion =>
    once options.releaseVersion? { options with releaseVersion? := some value }
  | .developmentVersion =>
    once options.developmentVersion? { options with developmentVersion? := some value }
  | .policy => once options.policy? { options with policy? := some value }
  | .output => once options.output? { options with output? := some value }
  | _ => .error (.unexpectedValue argument)
where
  /-- The options with the value, unless there was one. -/
  once (given? : Option String) (options : Options) : Except UsageFault Options :=
    if given?.isSome then .error (.repeated argument) else .ok options

/-- Whether an argument can be the value of the option before it. -/
def isValue (argument : String) : Bool :=
  match argument.toList with
  | '-' :: _ :: _ => false
  | _ => true

/-- What an argument is made of. -/
inductive Token where
  /-- The end of the options. -/
  | separator
  | long (name : String) (value? : Option String)
  | short (cluster : List Char)
  | plain

/-- Takes an argument apart. -/
def token (argument : String) : Token :=
  match argument.toList with
  | ['-', '-'] => .separator
  | '-' :: '-' :: rest =>
    let name := String.ofList (rest.takeWhile (· != '='))
    match rest.dropWhile (· != '=') with
    | [] => .long name none
    | _ :: value => .long name (some (String.ofList value))
  | '-' :: c :: rest => .short (c :: rest)
  | _ => .plain

/-- The options written together after a hyphen. The last of them may take a value, which is what
    is left of the argument, after an equals sign if there is one; the option is returned if its
    value is still to come. -/
def readCluster (argument : String) : Options → List Char → Except UsageFault (Options × Option Name)
  | options, [] => .ok (options, none)
  | options, c :: rest =>
    match Name.ofShort? c with
    | none => .error (.unknown argument)
    | some name =>
      if name.takesValue then
        match rest with
        | [] => .ok (options, some name)
        | '=' :: value => (options.setValue argument (String.ofList value) name).map (·, none)
        | value => (options.setValue argument (String.ofList value) name).map (·, none)
      else
        match options.setFlag argument name with
        | .ok options => readCluster argument options rest
        | .error fault => .error fault

/-- One argument; the option is returned if its value is still to come. -/
def readArgument (options : Options) (argument : String) :
    Except UsageFault (Options × Option Name) :=
  match token argument with
  | .separator => .ok (options, none)
  | .plain => .error (.unknown argument)
  | .short cluster => readCluster argument options cluster
  | .long text value? =>
    match Name.ofLong? text with
    | none => .error (.unknown argument)
    | some name =>
      match name.takesValue, value? with
      | true, some value => (options.setValue argument value name).map (·, none)
      | true, none => .ok (options, some name)
      | false, some _ => .error (.unexpectedValue argument)
      | false, none => (options.setFlag argument name).map (·, none)

/-- The arguments, of which `pending?` is an option whose value comes next. After the separator
    nothing may follow. -/
def readFrom (options : Options) : (pending? : Option (Name × String)) → List String →
    Except UsageFault Options
  | none, [] => .ok options
  | some (_, option), [] => .error (.missingValue option)
  | some (name, option), argument :: rest =>
    if isValue argument then do
      let options ← options.setValue option argument name
      readFrom options none rest
    else .error (.missingValue option)
  | none, argument :: rest =>
    match token argument, rest with
    | .separator, [] => .ok options
    | .separator, extra :: _ => .error (.unknown extra)
    | _, rest => do
      let (options, pending?) ← readArgument options argument
      readFrom options (pending?.map fun name => (name, argument)) rest

/-- Reads the arguments of a run. -/
def ofArguments (arguments : List String) : Except UsageFault Options :=
  readFrom {} none arguments

/-- The file that receives the versions if none is named. -/
def defaultOutput : String := "release-versions.out.toml"

/-- The file that receives the versions. -/
def output (options : Options) : String :=
  options.output?.getD defaultOutput

end Options

end Versioning
