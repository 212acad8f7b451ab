import ScimQuery.CommandLine.Options
import ScimQuery.Settings.Layer

/-!
# The command line

`parse` reads the words behind the program's name: options, a command, and more options. An
option's value is looked at when the next option comes or when the words end, and what stands
behind the command is looked at before the options in front of it.
-/

namespace ScimQuery.CommandLine

/-! ### Words

A word that starts with two dashes names an option in full, and one that starts with a single dash
names it by a letter; the value may follow in the same word. Two dashes alone end the options, and
one dash alone is a plain word. -/

inductive Word where
  | escape
  | long (name : String) (value : Option String)
  | short (letter : Char) (value : Option String)
  | plain (text : String)
  deriving DecidableEq

/-- An option in full: the name ends at the first equals sign. -/
def Word.ofLong (text : List Char) : Word :=
  let name := String.ofList (text.takeWhile (· ≠ '='))
  match text.dropWhile (· ≠ '=') with
  | [] => .long name none
  | _ :: value => .long name (some (String.ofList value))

/-- What follows the letter of an option is its value; an equals sign between them does not
count. -/
def Word.ofShort (letter : Char) : List Char → Word
  | [] => .short letter none
  | '=' :: value => .short letter (some (String.ofList value))
  | value => .short letter (some (String.ofList value))

def Word.ofString (text : String) : Word :=
  match text.toList with
  | ['-', '-'] => .escape
  | '-' :: '-' :: rest => .ofLong rest
  | '-' :: letter :: rest => .ofShort letter rest
  | _ => .plain text

/-! ### Commands and their options -/

structure CompileOptions where
  resource : String
  filterFile : Option String := none
  startIndex : UInt64 := 0
  count : Option UInt64 := none
  orderBy : Option String := none
  orderDirection : Option Direction := none
  requestId : Option String := none

inductive Command where
  | compile (options : CompileOptions)
  | resources

structure Invocation where
  overrides : Overrides
  command : Command

/-! ### The options of a level -/

/-- The values taken so far, and the last option while its value has not been looked at. -/
structure Progress where
  given : Given := {}
  pending : Option (OptionName × Option String) := none

namespace Progress

/-- Looks at the value of the last option. -/
def settle (p : Progress) : Except UsageError Given :=
  match p.pending with
  | none => .ok p.given
  | some (option, some text) => p.given.give option text
  | some (_, none) => .error .noValue

/-- The option whose value must be the next word. -/
def awaiting? (p : Progress) : Option OptionName :=
  match p.pending with
  | some (option, none) => some option
  | _ => none

def await (p : Progress) (option : OptionName) : Except UsageError Progress := do
  return ⟨← p.settle, some (option, none)⟩

/-- Takes an option whose value stands in the same word. -/
def attach (p : Progress) (option : OptionName) (text : String) : Except UsageError Progress := do
  return ⟨← (← p.settle).give option text, none⟩

def take (p : Progress) (option : OptionName) (value : Option String) :
    Except UsageError Progress :=
  match value with
  | some text => p.attach option text
  | none => p.await option

/-- Ends with a request for help or for the version, once the values before it are right. -/
def request (p : Progress) (e : UsageError) : Except UsageError Progress := do
  let _ ← p.settle
  throw e

def long (p : Progress) (level : Level) (name : String) (value : Option String) :
    Except UsageError Progress :=
  match level.options.find? (·.long = name) with
  | some option => p.take option value
  | none =>
    if name = "help" || (name = "version" && level = .top) then
      if value.isSome then .error .surplusValue
      else p.request (if name = "help" then .helpRequested else .versionRequested)
    else .error .unknownArgument

def short (p : Progress) (level : Level) (letter : Char) (value : Option String) :
    Except UsageError Progress :=
  match level.options.find? (·.short? = some letter) with
  | some option => p.take option value
  | none =>
    if letter = 'h' then p.request .helpRequested
    else if letter = 'V' && level = .top then p.request .versionRequested
    else .error .unknownArgument

end Progress

/-- What stands where the options of a level end. -/
inductive Stop where
  | done
  | word (text : String) (rest : List String)
  /-- A word behind two dashes. -/
  | escaped (text : String)

/-- Reads options up to the first word that is neither an option nor a value. -/
def scan (level : Level) : List String → Progress → Except UsageError (Progress × Stop)
  | [], p => .ok (p, .done)
  | w :: ws, p =>
    match Word.ofString w with
    | .escape =>
      match ws with
      | [] => .ok (p, .done)
      | text :: _ => .ok (p, .escaped text)
    | .plain text =>
      match p.awaiting? with
      | some option => scan level ws { p with pending := some (option, some text) }
      | none => .ok (p, .word text ws)
    | .long name value => do scan level ws (← p.long level name value)
    | .short letter value => do scan level ws (← p.short level letter value)

/-! ### Commands -/

/-- The values behind a command. Only options stand there. -/
def readBehind (level : Level) (words : List String) : Except UsageError Given := do
  match ← scan level words {} with
  | (p, .done) => p.settle
  | _ => throw .unknownArgument

def compileCommand (g : Given) : Except UsageError Command :=
  match g.resource with
  | some resource =>
    .ok (.compile ⟨resource, g.filterFile, g.startIndex.getD 0, g.count, g.orderBy,
      g.orderDirection, g.requestId⟩)
  | none => .error .missingOption

def commandNames : List String := ["compile", "resources", "help"]

/-- Help is asked for with the name of at most one command. -/
def help : List String → UsageError
  | [] => .helpRequested
  | [name] => if name ∈ commandNames then .helpRequested else .unknownCommand
  | _ => .unknownCommand

/-- The values behind a command, without those of the environment, and the command. -/
def readCommand (env : String → Option String) (name : String) (words : List String) :
    Except UsageError (Given × Command) := do
  match name with
  | "compile" =>
    let given ← readBehind .compile words
    return (given, ← compileCommand (← given.complete env .compile))
  | "resources" =>
    let given ← readBehind .resources words
    let _ ← given.complete env .resources
    return (given, .resources)
  | "help" => throw (help words)
  | _ => throw .unknownCommand

/-- The values in front of the command, with those of the environment. -/
def readTop (env : String → Option String) (p : Progress) : Except UsageError Given := do
  (← p.settle).complete env .top

/-- Reads the words of a command line. Where an option stands in front of the command and behind it,
the latter counts. -/
def parse (env : String → Option String) (words : List String) : Except UsageError Invocation := do
  match ← scan .top words {} with
  | (p, .word name rest) =>
    let (behind, command) ← readCommand env name rest
    let top ← readTop env p
    return ⟨⟨behind.config.or top.config, behind.defaultCount.or top.defaultCount⟩, command⟩
  | (_, .escaped text) =>
    throw (if text ∈ commandNames then .unknownArgument else .unknownCommand)
  | (p, .done) =>
    let top ← readTop env p
    throw (if top.config.isNone && top.defaultCount.isNone then .nothingGiven else .missingCommand)

end ScimQuery.CommandLine
