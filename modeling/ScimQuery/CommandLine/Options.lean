import ScimQuery.Decimal.Natural
import ScimQuery.Page

/-!
# Options

The options of the command line, what each of them takes for a value, and the values that have been
given.
-/

namespace ScimQuery.CommandLine

inductive UsageError where
  | helpRequested
  | versionRequested
  /-- Nothing at all is given, so the program explains itself. -/
  | nothingGiven
  | unknownCommand
  | unknownArgument
  | missingCommand
  | missingOption
  | repeatedOption
  /-- A value is missing, or empty where it may not be. -/
  | noValue
  | invalidValue
  /-- A value for an option that takes none. -/
  | surplusValue
  deriving DecidableEq

inductive OptionName where
  | config | defaultCount | resource | filterFile | startIndex | count | orderBy | orderDirection
  | requestId
  deriving DecidableEq

namespace OptionName

def long : OptionName → String
  | config => "config"
  | defaultCount => "default-count"
  | resource => "resource"
  | filterFile => "filter-file"
  | startIndex => "start-index"
  | count => "count"
  | orderBy => "order-by"
  | orderDirection => "order-direction"
  | requestId => "request-id"

def short? : OptionName → Option Char
  | config => some 'c'
  | resource => some 'r'
  | filterFile => some 'f'
  | _ => none

/-- The environment variable that stands in for an option. -/
def fallback? : OptionName → Option String
  | config => some "SCIMSQL_CONFIG"
  | defaultCount => some "SCIMSQL_DEFAULT_COUNT"
  | resource => some "SCIMSQL_RESOURCE"
  | _ => none

end OptionName

/-- Where options stand: before the command, or behind one. -/
inductive Level where
  | top | compile | resources
  deriving DecidableEq

/-- The options of a level. Those before the command may also stand behind it. -/
def Level.options : Level → List OptionName
  | compile =>
    [.config, .defaultCount, .resource, .filterFile, .startIndex, .count, .orderBy,
      .orderDirection, .requestId]
  | top | resources => [.config, .defaultCount]

structure Given where
  config : Option String := none
  defaultCount : Option UInt64 := none
  resource : Option String := none
  filterFile : Option String := none
  startIndex : Option UInt64 := none
  count : Option UInt64 := none
  orderBy : Option String := none
  orderDirection : Option Direction := none
  requestId : Option String := none

/-- A path is never empty. -/
def readPath (text : String) : Except UsageError String :=
  if text.isEmpty then .error .noValue else .ok text

def readNumber (text : String) : Except UsageError UInt64 :=
  match Decimal.uint64? text with
  | some n => .ok n
  | none => .error .invalidValue

def readDirection (text : String) : Except UsageError Direction :=
  (Direction.parse text).mapError fun _ => .invalidValue

/-- An option may be given once. -/
def once (slot : Option α) (read : Except UsageError α) : Except UsageError (Option α) :=
  if slot.isSome then .error .repeatedOption else read.map some

namespace Given

def has (g : Given) : OptionName → Bool
  | .config => g.config.isSome
  | .defaultCount => g.defaultCount.isSome
  | .resource => g.resource.isSome
  | .filterFile => g.filterFile.isSome
  | .startIndex => g.startIndex.isSome
  | .count => g.count.isSome
  | .orderBy => g.orderBy.isSome
  | .orderDirection => g.orderDirection.isSome
  | .requestId => g.requestId.isSome

def give (g : Given) (option : OptionName) (text : String) : Except UsageError Given := do
  match option with
  | .config => return { g with config := ← once g.config (readPath text) }
  | .defaultCount => return { g with defaultCount := ← once g.defaultCount (readNumber text) }
  | .resource => return { g with resource := ← once g.resource (.ok text) }
  | .filterFile => return { g with filterFile := ← once g.filterFile (readPath text) }
  | .startIndex => return { g with startIndex := ← once g.startIndex (readNumber text) }
  | .count => return { g with count := ← once g.count (readNumber text) }
  | .orderBy => return { g with orderBy := ← once g.orderBy (.ok text) }
  | .orderDirection =>
    return { g with orderDirection := ← once g.orderDirection (readDirection text) }
  | .requestId => return { g with requestId := ← once g.requestId (.ok text) }

/-- Takes the environment's value for an option that is absent. -/
def fill (env : String → Option String) (g : Given) (option : OptionName) :
    Except UsageError Given :=
  if g.has option then .ok g
  else
    match option.fallback?.bind env with
    | some text => g.give option text
    | none => .ok g

/-- Takes the environment's values for all absent options of a level. -/
def complete (env : String → Option String) (level : Level) (g : Given) :
    Except UsageError Given :=
  level.options.foldlM (fill env) g

end Given

end ScimQuery.CommandLine
