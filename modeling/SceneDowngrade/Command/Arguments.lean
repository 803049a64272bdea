import SceneDowngrade.Text.Terminal

/-!
# Command line arguments

Arguments are read from the left. An argument that is not an option names the source; an option may
take its value from the argument after it. What has been read is held until the next argument is
known to be good, and only then recorded, so a fault of the next argument can come first.
-/
namespace SceneDowngrade.Command

/-- What an argument can be for. -/
inductive Item where
  | source
  | output
  | suffix
  | config
  | inPlace
  | help
  deriving DecidableEq, Repr

namespace Item

def usage : Item → Text
  | .source => "<SOURCE>".toList
  | .output => "--output <OUTPUT>".toList
  | .suffix => "--suffix <SUFFIX>".toList
  | .config => "--config <CONFIG>".toList
  | .inPlace => "--in-place".toList
  | .help => "--help".toList

def ofName? (name : Text) : Option Item :=
  if name = "output".toList then some .output
  else if name = "suffix".toList then some .suffix
  else if name = "config".toList then some .config
  else if name = "in-place".toList then some .inPlace
  else if name = "help".toList then some .help
  else none

def takesValue : Item → Bool
  | .inPlace | .help => false
  | _ => true

/-- Whether the value must not be empty, as for a path. -/
def refusesEmpty : Item → Bool
  | .source | .output | .config => true
  | _ => false

end Item

inductive UsageError where
  | missingSource
  | unexpectedArgument (argument : Text)
  | missingValue (item : Item)
  | unexpectedValue (value : Text) (item : Item)
  | repeated (item : Item)
  deriving DecidableEq, Repr

/-- The message of a usage error; what it quotes from the arguments is shown as plain text. -/
def UsageError.message : UsageError → Text
  | .missingSource => "the following required arguments were not provided:".toList
  | .unexpectedArgument argument =>
    "unexpected argument '".toList ++ argument.shown ++ "' found".toList
  | .missingValue item =>
    "a value is required for '".toList ++ item.usage ++ "' but none was supplied".toList
  | .unexpectedValue value item =>
    "unexpected value '".toList ++ value.shown ++ "' for '".toList ++ item.usage ++
      "' found; no more were expected".toList
  | .repeated item =>
    "the argument '".toList ++ item.usage ++ "' cannot be used multiple times".toList

structure Arguments where
  source : Text
  output : Option Text := none
  suffix : Option Text := none
  config : Option Text := none
  inPlace : Bool := false
  deriving DecidableEq, Repr

inductive Request where
  | run (arguments : Arguments)
  | help
  | usageError (error : UsageError)
  deriving DecidableEq, Repr

/-- An item held back until it is recorded; an option may still wait for its value. -/
structure Held where
  item : Item
  value : Option Text
  deriving DecidableEq, Repr

/-- What has been recorded so far, and what is held back. -/
structure Scan where
  source : Option Text := none
  output : Option Text := none
  suffix : Option Text := none
  config : Option Text := none
  inPlace : Bool := false
  held : Option Held := none
  deriving DecidableEq, Repr

namespace Scan

def isRecorded (scan : Scan) : Item → Bool
  | .source => scan.source.isSome
  | .output => scan.output.isSome
  | .suffix => scan.suffix.isSome
  | .config => scan.config.isSome
  | .inPlace => scan.inPlace
  | .help => false

def setValue (scan : Scan) (value : Text) : Item → Scan
  | .source => { scan with source := some value }
  | .output => { scan with output := some value }
  | .suffix => { scan with suffix := some value }
  | .config => { scan with config := some value }
  | .inPlace => { scan with inPlace := true }
  | .help => scan

def record (scan : Scan) (item : Item) (value : Option Text) : Except UsageError Scan :=
  match value with
  | none => .error (.missingValue item)
  | some value =>
    if scan.isRecorded item then .error (.repeated item)
    else if item.refusesEmpty && value.isEmpty then .error (.missingValue item)
    else .ok (scan.setValue value item)

def settle (scan : Scan) : Except UsageError Scan :=
  match scan.held with
  | none => .ok scan
  | some held => { scan with held := none }.record held.item held.value

def give (scan : Scan) (item : Item) (value : Text) : Except UsageError Scan := do
  (← scan.settle).record item (some value)

/-- Hold an item back in the place of what was held. -/
def hold (scan : Scan) (item : Item) (value : Option Text) : Except UsageError Scan := do
  return { ← scan.settle with held := some ⟨item, value⟩ }

def waits (scan : Scan) : Bool :=
  match scan.held with
  | some ⟨_, none⟩ => true
  | _ => false

def hasSource (scan : Scan) : Bool :=
  scan.source.isSome || scan.held.any (·.item = .source)

/-- Why the scan ends before the last argument: a fault, or help is asked for. -/
inductive Stop where
  | error (error : UsageError)
  | help
  deriving DecidableEq, Repr

def orStop (result : Except UsageError Scan) : Except Stop Scan := result.mapError .error

def option (scan : Scan) (item : Item) (attached : Option Text) : Except Stop Scan :=
  match attached with
  | some value =>
    if item.takesValue then orStop (scan.give item value)
    else .error (.error (.unexpectedValue value item))
  | none =>
    if item.takesValue then orStop (scan.hold item none)
    else if item = .help then do
      let _ ← orStop scan.settle
      throw .help
    else orStop (scan.give item [])

/-- An argument that begins with two dashes, without them. A value may follow an equals sign. -/
def longOption (scan : Scan) (text : Text) : Except Stop Scan :=
  let name := text.takeWhile (· ≠ '=')
  let attached := (text.dropWhile (· ≠ '=')).tail?
  match Item.ofName? name with
  | some item => scan.option item attached
  | none => .error (.error (.unexpectedArgument ("--".toList ++ name)))

/-- An argument that begins with one dash before the character `c`. The rest of it is the value,
with or without an equals sign; without any rest the value is the next argument. -/
def shortOption (scan : Scan) (c : Char) (rest : Text) : Except Stop Scan :=
  if c = 'h' then scan.option .help none
  else if c = 'o' then
    match rest with
    | [] => scan.option .output none
    | '=' :: value => scan.option .output (some value)
    | value => scan.option .output (some value)
  else .error (.error (.unexpectedArgument ['-', c]))

def positional (scan : Scan) (argument : Text) : Except Stop Scan :=
  if scan.hasSource then .error (.error (.unexpectedArgument argument))
  else orStop (scan.hold .source (some argument))

/-- An argument that is no option may be the value that an option waits for. -/
def plain (scan : Scan) (argument : Text) : Except Stop Scan :=
  if scan.waits then
    .ok { scan with held := scan.held.map fun held => { held with value := some argument } }
  else scan.positional argument

/-- One argument before two dashes alone. -/
def argument (scan : Scan) (argument : Text) : Except Stop Scan :=
  match argument with
  | '-' :: '-' :: rest => scan.longOption rest
  | '-' :: c :: rest => scan.shortOption c rest
  | argument => scan.plain argument

/-- All arguments; after two dashes alone none is an option. -/
def run (scan : Scan) : List Text → Except Stop Scan
  | [] => .ok scan
  | next :: rest =>
    if next = "--".toList then rest.foldlM positional scan
    else do (← scan.argument next).run rest

/-- What was recorded, with the source that has to be there. -/
def finish (scan : Scan) : Except UsageError Arguments := do
  let scan ← scan.settle
  match scan.source with
  | none => throw .missingSource
  | some source =>
    return { source, output := scan.output, suffix := scan.suffix, config := scan.config
             inPlace := scan.inPlace }

end Scan

def Request.ofArguments (arguments : List Text) : Request :=
  match Scan.run {} arguments with
  | .error .help => .help
  | .error (.error e) => .usageError e
  | .ok scan =>
    match scan.finish with
    | .error e => .usageError e
    | .ok arguments => .run arguments

end SceneDowngrade.Command
