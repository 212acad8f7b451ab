import ScimQuery.Files
import ScimQuery.Log.Recorded
import ScimQuery.Resource
import ScimQuery.Settings.Layer

/-!
# Settings

The resources and the default count that the program works with. They come from a file in the home
folder, then from a file that is asked for or lies in the working folder, then from the command
line; what comes later takes precedence.
-/

namespace ScimQuery

structure Settings where
  defaultCount : UInt64
  resources : Catalog Resource

inductive SettingsError where
  | missing (path : String)
  | unreadable (path : String) (problem : FileProblem)
  | malformed (path : String) (cause : Json.ReadError)
  | invalidMapping (resource : String) (cause : InvalidAttribute)
  | invalidOrder (resource : String) (cause : InvalidAttribute)
  | defaultCountRange
  | invalidColumn (resource : String) (shown : String) (column : String)
  | countRange (resource : String)
  | refusedOrder (resource : String) (cause : CompileError)
  | unknownResource (name : String) (known : List String)

namespace Settings

/-- How many rows a page has when nobody says. -/
def fallbackCount : UInt64 := 50

/-- How many rows a page may have by default. -/
def maxCount : UInt64 := 10000

end Settings

namespace SettingsError

/-- The end of the message on a count out of range. -/
def range : String := "must be between 1 and " ++ toString Settings.maxCount.toNat

def message : SettingsError → String
  | missing path => "Config file not found: " ++ path
  | unreadable path problem => "Failed to read config file: " ++ path ++ ": " ++ problem.message
  | malformed path cause => "Failed to parse config file: " ++ path ++ ": " ++ cause.message
  | invalidMapping resource cause => "resources." ++ resource ++ ".mappings: " ++ cause.message
  | invalidOrder resource cause => "resources." ++ resource ++ ".order_by: " ++ cause.message
  | defaultCountRange => "Configuration error: default_count " ++ range
  | invalidColumn resource shown column =>
    "Configuration error: resources." ++ resource ++ ".mappings." ++ shown ++ ": '" ++ column
      ++ "' is not a valid column name"
  | countRange resource => "Configuration error: resources." ++ resource ++ ".count " ++ range
  | refusedOrder resource cause =>
    "Configuration error: resources." ++ resource ++ ".order_by: " ++ cause.message
  | unknownResource name known =>
    "Unknown resource '" ++ name ++ "'. Configured: [" ++ ", ".intercalate known ++ "]"

end SettingsError

/-! ### Resources of sections -/

namespace Section

/-- The mapping table of a section. The mappings are gone through in the order of the file. Texts of
one attribute that differ in blanks only stand for one mapping, and the last of them counts. -/
def table (name : String) (s : Section) : Except SettingsError MappingTable :=
  .ofList <$> s.mappings.entries.mapM fun (text, column) =>
    ((Attribute.parse text).map fun a => (a, column)).mapError (.invalidMapping name)

def orderAttribute (name : String) (s : Section) : Except SettingsError (Option Attribute) :=
  match s.orderBy with
  | some text => ((Attribute.parse text).map some).mapError (.invalidOrder name)
  | none => .ok none

def resource (name : String) (s : Section) : Except SettingsError Resource := do
  return ⟨← s.table name, ← s.orderAttribute name, s.direction.getD .asc, s.count⟩

end Section

def Settings.inRange (count : UInt64) : Bool := 1 ≤ count && count ≤ maxCount

namespace Resource

def checkColumn (name : String) (e : Attribute × Column) : Except SettingsError Unit :=
  if isColumnName e.2.column then .ok ()
  else .error (.invalidColumn name e.1.text e.2.column)

def checkCount (name : String) (r : Resource) : Except SettingsError Unit :=
  if r.count.all Settings.inRange then .ok () else .error (.countRange name)

def checkOrder (name : String) (r : Resource) : Except SettingsError Unit :=
  match r.orderBy with
  | some a => (MappingTable.sortColumn r.table a).map (fun _ => ()) |>.mapError (.refusedOrder name)
  | none => .ok ()

/-- Its columns are column names, its count is in range and its order can be kept. -/
def check (name : String) (r : Resource) : Except SettingsError Unit := do
  r.table.entries.forM (checkColumn name)
  checkCount name r
  checkOrder name r

def validate (name : String) (r : Resource) : Recorded SettingsError Unit := do
  if r.table.isEmpty then Recorded.log (.noMappings name)
  Recorded.silent (r.check name)

end Resource

/-! ### Loading -/

namespace Settings

def fileName : String := "scimsql.json"

def profilePath (home : String) : String := Files.below (Files.below home ".scimsql") fileName

def profile? (files : Files) (home : Option String) : Option String :=
  (home.map profilePath).filter files.has

/-- The file asked for, which must be there, or the one in the working folder. -/
def overlay? (files : Files) (home : Option String) (asked : Option String) :
    Except SettingsError (Option String) :=
  match asked with
  | some path =>
    let path := Files.expand home path
    if files.has path then .ok (some path) else .error (.missing path)
  | none => .ok (if files.has fileName then some fileName else none)

def loadLayer (files : Files) (path : String) : Recorded SettingsError Layer := do
  Recorded.log (.loadingFile path)
  let text ← Recorded.silent ((files path).mapError (.unreadable path))
  let layer ← Recorded.silent ((Layer.parse text).mapError (.malformed path))
  Recorded.logAll layer.warnings
  return layer

/-- Lays the file under a path over a layer, if there is a path. -/
def addLayer (files : Files) (base : Layer) (path : Option String) :
    Recorded SettingsError Layer := do
  match path with
  | none => return base
  | some path =>
    let layer ← loadLayer files path
    Recorded.logAll layer.events
    return base.override layer

def ofLayer (layer : Layer) (defaultCount : Option UInt64) : Except SettingsError Settings := do
  let count := (defaultCount.or layer.defaultCount).getD fallbackCount
  return ⟨count, ← layer.sections.mapM Section.resource⟩

def validate (s : Settings) : Recorded SettingsError Unit := do
  if inRange s.defaultCount then
    s.resources.entries.forM fun (name, r) => r.validate name
  else throw .defaultCountRange

def load (files : Files) (home : Option String) (overrides : Overrides) :
    Recorded SettingsError Settings := do
  Recorded.log .loading
  let profile := profile? files home
  let base ← addLayer files {} profile
  let overlay ← Recorded.silent (overlay? files home overrides.config)
  let layer ← addLayer files base overlay
  Recorded.log (.filesLoaded (profile.toList ++ overlay.toList))
  let settings ← Recorded.silent (ofLayer layer overrides.defaultCount)
  settings.validate
  Recorded.log (.loaded settings.resources.size settings.defaultCount)
  return settings

def resource (s : Settings) (name : String) : Except SettingsError Resource :=
  match s.resources.get? name with
  | some r => .ok r
  | none => .error (.unknownResource name s.resources.names)

/-! ### Listing -/

def padTo (width : Nat) (text : String) : String :=
  text ++ String.ofList (List.replicate (width - text.length) ' ')

def mappingLine (a : Attribute) (c : Column) : String :=
  "  " ++ padTo 24 a.text ++ " " ++ padTo 24 c.column ++ " " ++ padTo 6 c.type.name
    ++ (if c.sortable then " sortable" else "")

/-- The name of each resource, and below it a line for each attribute. -/
def listing (s : Settings) : List String :=
  s.resources.entries.flatMap fun (name, r) =>
    name :: r.listed.map fun (a, c) => mappingLine a c

end Settings

end ScimQuery
