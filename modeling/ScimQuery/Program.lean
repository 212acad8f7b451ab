import ScimQuery.CommandLine
import ScimQuery.Filter.Reader
import ScimQuery.Log.Selection
import ScimQuery.Query
import ScimQuery.Settings

/-!
# The program

One run of the program: its settings, its command and what it prints, as a function of the words it
is called with and of what it finds around it.
-/

namespace ScimQuery

open CommandLine

structure Surroundings where
  files : Files
  home : Option String := none
  environment : String → Option String := fun _ => none
  input : Except FileProblem String := .ok ""

inductive RunError where
  | settings (cause : SettingsError)
  | filterFile (path : String) (problem : FileProblem)
  | input (problem : FileProblem)
  | order (resource : String) (cause : OrderError)
  | refused (cause : CompileError)

def RunError.message : RunError → String
  | settings cause => cause.message
  | filterFile path problem => "Failed to read filter file: " ++ path ++ ": " ++ problem.message
  | input problem => "Failed to read filter from stdin: " ++ problem.message
  | order resource cause =>
    "Invalid ordering for resource '" ++ resource ++ "': " ++ cause.message
  | refused cause => "[" ++ cause.code ++ "] " ++ cause.message

namespace Program

/-! ### Compiling -/

def readText (world : Surroundings) (path : Option String) : Except RunError String :=
  match path with
  | some path => (world.files path).mapError (.filterFile path)
  | none => world.input.mapError .input

/-- The filter in a text. A blank text asks for none. -/
def readFilter (text : String) : Except RunError (Option Filter) :=
  if text.toList.all Text.isBlank then .ok none
  else (Filter.ofRequest text).mapError .refused

structure Task where
  filter : Option Filter
  table : MappingTable
  order : SortOrder
  page : Page

/-- The resource is looked up first, then the filter is read, then the order is chosen. The page
size is the one asked for, else the resource's own, else the default. -/
def task (settings : Settings) (world : Surroundings) (o : CompileOptions) :
    Except RunError Task := do
  let resource ← (settings.resource o.resource).mapError RunError.settings
  let filter ← readFilter (← readText world o.filterFile)
  let order ← (resource.order o.orderBy o.orderDirection).mapError (RunError.order o.resource)
  let count := (o.count.or resource.count).getD settings.defaultCount
  return ⟨filter, resource.table, order, ⟨o.startIndex, count⟩⟩

def compile (settings : Settings) (world : Surroundings) (o : CompileOptions) :
    Recorded RunError Query := do
  let t ← Recorded.silent (task settings world o)
  (Query.compile t.filter t.table t.order t.page (o.requestId.getD "")).mapError .refused

/-! ### Running -/

def print (settings : Settings) (world : Surroundings) : Command → Recorded RunError (List String)
  | .compile options => do
    let query ← compile settings world options
    return [query.toJson.pretty]
  | .resources => return settings.listing

def perform (world : Surroundings) (i : Invocation) : Recorded RunError (List String) := do
  Recorded.log .starting
  let settings ← (Settings.load world.files world.home i.overrides).mapError .settings
  print settings world i.command

inductive Outcome where
  /-- The command line is refused, or only asks for help. -/
  | usage (e : UsageError)
  | ended (events : List Log.Event) (result : Except RunError (List String))

/-- Runs the program with the words behind its name. -/
def run (world : Surroundings) (words : List String) : Outcome :=
  match CommandLine.parse world.environment words with
  | .error e => .usage e
  | .ok i =>
    let done := perform world i
    .ended done.events done.result

/-- The directives of the log: the program's own variable, else the general one. -/
def logDirectives (world : Surroundings) : String :=
  ((world.environment "SCIMSQL_LOG").or (world.environment "RUST_LOG")).getD Log.defaultDirectives

namespace Outcome

def exitCode : Outcome → UInt8
  | usage .helpRequested | usage .versionRequested => 0
  | usage _ => 2
  | ended _ (.error _) => 1
  | ended _ (.ok _) => 0

def stdout : Outcome → String
  | ended _ (.ok lines) => String.join (lines.map (· ++ "\n"))
  | _ => ""

def stderr : Outcome → String
  | ended _ (.error e) => "\nError: " ++ e.message ++ "\n\n"
  | _ => ""

def log (directives : String) : Outcome → List String
  | ended events _ => (Log.written directives events).map Log.Event.line
  | usage _ => []

end Outcome

end Program

end ScimQuery
