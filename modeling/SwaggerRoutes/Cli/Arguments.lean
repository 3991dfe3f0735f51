/-
  Cli/Arguments.lean --- what a command line asks for.

  A command is followed by switches in any order, each at most once.  A switch with a value has it
  in the next argument, or after an equals sign in its own, or, in its short form, directly behind
  its letter.
-/

set_option autoImplicit false

namespace SwaggerRoutes.Cli

/-! ## Switches -/

/-- A switch that a command knows. -/
structure Switch where
  /-- Its long name. -/
  long : String
  /-- Its letter. -/
  short : Option Char
  /-- Whether it has a value. -/
  valued : Bool
  deriving DecidableEq, Repr

/-- How one argument reads. -/
inductive Reading where
  /-- A switch that is complete. -/
  | complete (key value : String)
  /-- A switch whose value is the next argument. -/
  | awaiting (key : String)
  /-- The mark that no switch follows. -/
  | close
  /-- Anything else. -/
  | unknown
  deriving DecidableEq, Repr

/-- A long switch: its name, and its value if there is an equals sign. -/
def splitLong (cs : List Char) : String × Option String :=
  (String.ofList (cs.takeWhile (· ≠ '=')),
    match cs.dropWhile (· ≠ '=') with
    | [] => none
    | _ :: value => some (String.ofList value))

/-- A switch with the value that stands in its own argument, if one does. -/
def readSwitch (s : Switch) (value : Option String) : Reading :=
  match s.valued, value with
  | true, some v => if v.isEmpty then .unknown else .complete s.long v
  | true, none => .awaiting s.long
  | false, none => .complete s.long ""
  | false, some _ => .unknown

/-- The value that stands behind a letter; an equals sign before it does not count. -/
def valueAfterLetter : List Char → Option String
  | [] => none
  | '=' :: cs => some (String.ofList cs)
  | cs => some (String.ofList cs)

/-- How an argument reads, given the switches that are known. -/
def readArgument (known : List Switch) (argument : String) : Reading :=
  match argument.toList with
  | ['-', '-'] => .close
  | '-' :: '-' :: cs =>
    let (name, value) := splitLong cs
    match known.find? fun s => s.long = name with
    | none => .unknown
    | some s => readSwitch s value
  | '-' :: c :: cs =>
    match known.find? fun s => s.short = some c with
    | none => .unknown
    | some s => readSwitch s (valueAfterLetter cs)
  | _ => .unknown

/-- Whether an argument may be the value of the switch before it. -/
def mayBeValue (argument : String) : Bool :=
  match argument.toList with
  | [] => false
  | '-' :: _ :: _ => false
  | _ => true

/-- Adds a switch to others, unless it is among them. -/
def addSwitch (key value : String) (others : List (String × String)) :
    Option (List (String × String)) :=
  if others.any fun e => e.1 = key then none else some ((key, value) :: others)

/-- The switches on a command line with their values; none if it has anything else. -/
def readSwitches (known : List Switch) : List String → Option (List (String × String))
  | [] => some []
  | a :: rest =>
    match readArgument known a with
    | .complete key value => (readSwitches known rest).bind (addSwitch key value)
    | .awaiting key =>
      match rest with
      | [] => none
      | v :: rest =>
        if mayBeValue v then (readSwitches known rest).bind (addSwitch key v) else none
    | .close => if rest.isEmpty then some [] else none
    | .unknown => none

/-! ## Commands -/

/-- The formats in which a definition is printed. -/
inductive DumpFormat where
  | yaml
  | json
  deriving DecidableEq, Repr

/-- The format with a name. -/
def DumpFormat.ofName? : String → Option DumpFormat
  | "yaml" => some yaml
  | "json" => some json
  | _ => none

/-- What is asked for. -/
inductive Command where
  /-- The source for a description, in a file or on the output. -/
  | generate (input output : Option String) (toOutput : Bool)
  /-- The definition of a description, on the output. -/
  | inspect (input : Option String) (format : DumpFormat)
  /-- A new configuration file. -/
  | init (force : Bool)
  deriving DecidableEq, Repr

namespace Command

/-- The switch that names the description. -/
def inputSwitch : Switch := ⟨"input", some 'i', true⟩

/-- What a command line asks for; none if it cannot be understood. -/
def ofArguments? : List String → Option Command
  | "generate" :: rest => do
    let es ← readSwitches
      [inputSwitch, ⟨"output", some 'o', true⟩, ⟨"stdout", none, false⟩] rest
    return .generate (es.lookup "input") (es.lookup "output") (es.lookup "stdout").isSome
  | "inspect" :: rest => do
    let es ← readSwitches [inputSwitch, ⟨"format", none, true⟩] rest
    let format ← DumpFormat.ofName? ((es.lookup "format").getD "yaml")
    return .inspect (es.lookup "input") format
  | "init" :: rest => do
    let es ← readSwitches [⟨"force", none, false⟩] rest
    return .init (es.lookup "force").isSome
  | _ => none

end Command

end SwaggerRoutes.Cli
