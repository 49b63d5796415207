import TableModels.Files.Path

/-! # Command line arguments

A command takes options and positional arguments in any order. A long option begins with two dashes
and has its value behind an equals sign or in the next argument; two dashes alone end the options.
The arguments are read from left to right, and the first that does not fit ends the reading, as does
a request for help.

## Implementation notes

The form of a command says what each argument does to the arguments read so far, so that a repeated
option is found by what it would fill. An argument that looks like an option is never the value of
the option before it. -/

namespace TableModels

/-- Why the arguments of the command line cannot be understood. -/
inductive UsageError where
  | missingCommand
  | unknownCommand (name : String)
  | unexpectedArgument (argument : String)
  | missingValue (option : String)
  | unexpectedValue (option value : String)
  | invalidValue (name value : String)
  | repeatedOption (option : String)
  | missingArgument (name : String)
  deriving DecidableEq

namespace UsageError

/-- The wording of a usage error. -/
def message : UsageError → String
  | missingCommand => "'schemashift' requires a subcommand but one was not provided"
  | unknownCommand name => s!"unrecognized subcommand '{name}'"
  | unexpectedArgument argument => s!"unexpected argument '{argument}' found"
  | missingValue option => s!"a value is required for '--{option}' but none was supplied"
  | unexpectedValue option value =>
      s!"unexpected value '{value}' for '--{option}' found; no more were expected"
  | invalidValue name value => s!"invalid value '{value}' for '{name}'"
  | repeatedOption option => s!"the argument '--{option}' cannot be used multiple times"
  | missingArgument name =>
      s!"the following required arguments were not provided: <{name}>"

end UsageError

/-- Why the reading of arguments stops early. -/
inductive ReadingStop where
  /-- Help is asked for. -/
  | help
  | misuse (error : UsageError)
  deriving DecidableEq

/-- What an argument looks like. -/
inductive ArgumentShape where
  /-- Two dashes, behind which nothing is an option. -/
  | endOfOptions
  | long (name : String) (attached : Option String)
  | short (letters : List Char)
  | plain
  deriving DecidableEq

/-- The shape of an argument. A dash alone is plain. -/
def argumentShape (argument : String) : ArgumentShape :=
  match argument.toList with
  | ['-', '-'] => .endOfOptions
  | '-' :: '-' :: text =>
      let name := String.ofList (text.takeWhile (· != '='))
      match text.dropWhile (· != '=') with
      | _ :: value => .long name (some (String.ofList value))
      | [] => .long name none
  | '-' :: letter :: letters => .short (letter :: letters)
  | _ => .plain

/-- What an option does to the arguments read so far. -/
inductive OptionForm (α : Type) where
  /-- A switch has no value. -/
  | switch (turnOn : α → Except UsageError α)
  | valued (give : String → α → Except UsageError α)

/-- What the arguments of a command do to the arguments read so far. -/
structure CommandForm (α : Type) where
  option? : String → Option (OptionForm α)
  positional : String → α → Except UsageError α

namespace CommandForm

variable {α : Type}

/-- Go on with the arguments read, unless an argument did not fit. -/
def fitting (read : Except UsageError α) : Except ReadingStop α :=
  read.mapError .misuse

/-- Read arguments of which none is an option. -/
def readPositionals (form : CommandForm α) (soFar : α) : List String → Except ReadingStop α
  | [] => .ok soFar
  | argument :: rest => do
      form.readPositionals (← fitting (form.positional argument soFar)) rest

/-- Read the arguments of a command. -/
def read (form : CommandForm α) (soFar : α) : List String → Except ReadingStop α
  | [] => .ok soFar
  | argument :: rest =>
      match argumentShape argument with
      | .endOfOptions => form.readPositionals soFar rest
      | .plain => do form.read (← fitting (form.positional argument soFar)) rest
      | .short letters =>
          if letters.head? = some 'h' then .error .help
          else .error (.misuse (.unexpectedArgument argument))
      | .long "help" none => .error .help
      | .long name attached =>
          match form.option? name, attached with
          | none, _ => .error (.misuse (.unexpectedArgument argument))
          | some (.switch turnOn), none => do form.read (← fitting (turnOn soFar)) rest
          | some (.switch _), some value => .error (.misuse (.unexpectedValue name value))
          | some (.valued give), some value => do
              form.read (← fitting (give value soFar)) rest
          | some (.valued give), none =>
              match rest with
              | [] => .error (.misuse (.missingValue name))
              | value :: later =>
                  if argumentShape value = .plain then do
                    form.read (← fitting (give value soFar)) later
                  else
                    .error (.misuse (.missingValue name))

end CommandForm

/-- Fill a part of the arguments that may be given once. -/
def fillOnce {β : Type} (option : String) (present : Option β) (value : β) :
    Except UsageError (Option β) :=
  match present with
  | some _ => .error (.repeatedOption option)
  | none => .ok (some value)

/-- Turn on a switch that may be given once. -/
def turnOnOnce (option : String) (present : Bool) : Except UsageError Bool :=
  if present then .error (.repeatedOption option) else .ok true

/-- Read a path, which is never empty. -/
def readPath (name value : String) : Except UsageError Path :=
  if value.isEmpty then .error (.invalidValue name value) else .ok ⟨value⟩

/-- Read one of the options of an enumeration, given by its name. -/
def readChoice {β : Type} (named : String → Option β) (name value : String) :
    Except UsageError β :=
  match named value with
  | some choice => .ok choice
  | none => .error (.invalidValue name value)

end TableModels
