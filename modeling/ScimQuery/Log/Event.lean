import ScimQuery.Text.Hidden

/-!
# Log events

What the program tells its log, and the line that each event is written as.
-/

namespace ScimQuery.Log

inductive Level where
  | error | warn | info | debug | trace
  deriving DecidableEq

namespace Level

def name : Level → String
  | error => "ERROR"
  | warn => "WARN"
  | info => "INFO"
  | debug => "DEBUG"
  | trace => "TRACE"

/-- The more there is to tell, the higher. -/
def rank : Level → Nat
  | error => 1
  | warn => 2
  | info => 3
  | debug => 4
  | trace => 5

end Level

inductive Event where
  | starting
  | loading
  | loadingFile (path : String)
  | unknownFields (names : List String)
  | mergingDefaultCount (n : UInt64)
  | mergingResource (name : String)
  | filesLoaded (paths : List String)
  | noMappings (resource : String)
  | loaded (resources : Nat) (defaultCount : UInt64)
  | noFilter (requestId : String)
  | compiling (requestId root : String) (mappings : Nat)
  | comparison (fragment parameter : String)
  | presence (fragment : String)
  | invalidField (requestId error : String)
  | compiled (requestId : String) (parameters : Nat)
  deriving DecidableEq

namespace Event

def level : Event → Level
  | unknownFields _ | noMappings _ | invalidField .. => .warn
  | starting | loading | loadingFile _ | filesLoaded _ | loaded .. | noFilter _ | compiling ..
  | compiled .. => .debug
  | mergingDefaultCount _ | mergingResource _ | comparison .. | presence _ => .trace

def message : Event → String
  | starting => "Application starting"
  | loading => "Loading application configuration"
  | loadingFile _ => "Loading config file"
  | unknownFields _ => "Unknown fields in config file (possible typos)"
  | mergingDefaultCount _ => "Merging default_count"
  | mergingResource _ => "Merging resource"
  | filesLoaded _ => "Config files loaded"
  | noMappings _ => "Resource has no mappings, every filter will fail"
  | loaded .. => "Configuration loaded"
  | noFilter _ => "No filter requested"
  | compiling .. => "Compiling filter"
  | comparison .. => "Emit comparison"
  | presence _ => "Emit presence check"
  | invalidField .. => "Invalid field supplied"
  | compiled .. => "Filter compiled"

/-- The named details of an event. Request ids and node kinds are quoted. -/
def fields : Event → List (String × String)
  | starting | loading => []
  | loadingFile path => [("path", path)]
  | unknownFields names => [("fields", ", ".intercalate names)]
  | mergingDefaultCount n => [("default_count", "Some(" ++ toString n.toNat ++ ")")]
  | mergingResource name | noMappings name => [("resource", name)]
  | filesLoaded paths => [("configs", "[" ++ ", ".intercalate (paths.map Text.quoted) ++ "]")]
  | loaded resources defaultCount =>
    [("resources", toString resources), ("default_count", toString defaultCount.toNat)]
  | noFilter requestId => [("request_id", Text.quoted requestId)]
  | compiling requestId root mappings =>
    [("request_id", Text.quoted requestId), ("root", Text.quoted root),
     ("mappings", toString mappings)]
  | comparison fragment parameter => [("fragment", fragment), ("param", parameter)]
  | presence fragment => [("fragment", fragment)]
  | invalidField requestId error => [("request_id", Text.quoted requestId), ("error", error)]
  | compiled requestId parameters =>
    [("request_id", Text.quoted requestId), ("params", toString parameters)]

/-- The part of the program that an event comes from. -/
def source : Event → String
  | starting => "scimsql::app"
  | loading | loadingFile _ | unknownFields _ | mergingDefaultCount _ | mergingResource _
  | filesLoaded _ | noMappings _ | loaded .. => "scimsql::core::config"
  | noFilter _ | compiling .. | compiled .. => "scimsql::filter::query"
  | comparison .. | presence _ | invalidField .. => "scimsql::filter::builder"

/-- The message counts as a field. -/
def fieldNames (e : Event) : List String := "message" :: e.fields.map (·.1)

def line (e : Event) : String :=
  " ".intercalate
    ([e.level.name, e.message] ++ e.fields.map fun (name, value) => name ++ "=" ++ value)

end Event

end ScimQuery.Log
