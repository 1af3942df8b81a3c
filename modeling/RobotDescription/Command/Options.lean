import RobotDescription.Storage.Path

/-!
# Command line arguments

Arguments are read from left to right, and the first one that decides ends the reading: a mistake,
or a question for the version or for help. Options may stand before and after the configuration's
path; after two dashes everything is a path.
-/

namespace RobotDescription.Command

/-- What a run is asked for. -/
structure Options where
  config : Option Path := none
  outputDirectory : Option Path := none
  toOutput : Bool := false
  listSupported : Bool := false
  verbosity : Nat := 0
deriving DecidableEq, Repr

/-- What is wrong with arguments. -/
inductive UsageError where
  | unknown (argument : String)
  | missingValue (option : String)
  | unexpectedValue (option : String)
  | repeated (option : String)
  | conflict (first second : String)
deriving DecidableEq, Repr

def UsageError.message : UsageError → String
  | .unknown argument => "unexpected argument '" ++ argument ++ "' found"
  | .missingValue option => "a value is required for '" ++ option ++ "' but none was supplied"
  | .unexpectedValue option =>
    "unexpected value for '" ++ option ++ "' found; no more were expected"
  | .repeated option => "the argument '" ++ option ++ "' cannot be used multiple times"
  | .conflict first second =>
    "the argument '" ++ first ++ "' cannot be used with '" ++ second ++ "'"

/-- Why arguments lead to no run. -/
inductive Stop where
  | usage (error : UsageError)
  | version
  | help
deriving DecidableEq, Repr

namespace Options

/-- An argument that is an option and not a value. A single dash is a value. -/
def isOption (argument : String) : Bool :=
  argument.startsWith "-" && argument ≠ "-"

def addConfig (options : Options) (value : String) : Except Stop Options :=
  if options.config.isSome then .error (.usage (.unknown value))
  else if value.isEmpty then .error (.usage (.missingValue "[CONFIG]"))
  else .ok { options with config := some ⟨value⟩ }

def addOutputDirectory (options : Options) (value : String) : Except Stop Options :=
  if options.outputDirectory.isSome then .error (.usage (.repeated "--output-dir"))
  else if value.isEmpty then .error (.usage (.missingValue "--output-dir"))
  else .ok { options with outputDirectory := some ⟨value⟩ }

def addFlag (options : Options) (name : String) : Except Stop Options :=
  if name = "--stdout" then
    if options.toOutput then .error (.usage (.repeated name))
    else .ok { options with toOutput := true }
  else if name = "--list-supported" then
    if options.listSupported then .error (.usage (.repeated name))
    else .ok { options with listSupported := true }
  else if name = "--verbose" then .ok { options with verbosity := options.verbosity + 1 }
  else if name = "--version" then .error .version
  else if name = "--help" then .error .help
  else .error (.usage (.unknown name))

def flags : List String := ["--stdout", "--list-supported", "--verbose", "--version", "--help"]

def addLetters (options : Options) : List Char → Except Stop Options
  | [] => .ok options
  | 'v' :: rest => addLetters { options with verbosity := options.verbosity + 1 } rest
  | 'V' :: _ => .error .version
  | 'h' :: _ => .error .help
  | letter :: _ => .error (.usage (.unknown ("-" ++ letter.toString)))

/-- Options that cannot be given together. -/
def checked (options : Options) : Except Stop Options :=
  if options.toOutput && options.outputDirectory.isSome then
    .error (.usage (.conflict "--stdout" "--output-dir"))
  else .ok options

def addAll (options : Options) (onlyPaths : Bool) : List String → Except Stop Options
  | [] => options.checked
  | argument :: rest => do
    if onlyPaths || !isOption argument then addAll (← options.addConfig argument) onlyPaths rest
    else if argument = "--" then addAll options true rest
    else if argument = "--output-dir" then
      match rest with
      | value :: rest =>
        if isOption value then throw (.usage (.missingValue argument))
        addAll (← options.addOutputDirectory value) false rest
      | [] => throw (.usage (.missingValue argument))
    else if argument.startsWith "--" then
      let name := String.ofList (argument.toList.takeWhile (· != '='))
      match argument.toList.dropWhile (· != '=') with
      | [] => addAll (← options.addFlag name) false rest
      | _ :: value =>
        if name = "--output-dir" then
          addAll (← options.addOutputDirectory (String.ofList value)) false rest
        else if flags.contains name then throw (.usage (.unexpectedValue name))
        else throw (.usage (.unknown name))
    else addAll (← options.addLetters (argument.toList.drop 1)) false rest

def ofArguments (arguments : List String) : Except Stop Options :=
  addAll {} false arguments

end Options

end RobotDescription.Command
