import ScimQuery.Program
import ScimQuery.Proofs.SectionTable
import ScimQuery.Proofs.SettingsFile

/-!
# Orders of loading

The mappings of a section are not in any order, and a load may go through them in any. Here a
section's mappings come in the order of its file, and no other is needed: a load that goes through
them in another order is the load of files that list them in that order (`load_relisted`), and so is
a run of the program (`Program.run_relisted`). These are all the orders there are
(`Layer.enumerations_iff`), the file's own among them (`Settings.loadIn_listed`), and no order brings
in a column (`Configured.of_relisted`). What holds of all files holds in all orders.
-/

namespace ScimQuery

/-- An order for the mappings of each section. -/
structure MappingOrder where
  arrange : String → Section → Section
  enumerates : ∀ name (s : Section), s.Enumerations (arrange name s)

theorem Section.Enumerations.refl (s : Section) : s.Enumerations s := ⟨.refl _, rfl, rfl, rfl⟩

/-- The order of the file. -/
def MappingOrder.listed : MappingOrder := ⟨fun _ s => s, fun _ s => .refl s⟩

/-! ### Layers in an order -/

namespace Catalog

def map (f : String → α → β) (c : Catalog α) : Catalog β where
  entries := c.entries.map fun e => (e.1, f e.1 e.2)
  sorted := by
    rw [List.map_map]
    exact c.sorted

theorem get?_map (f : String → α → β) (c : Catalog α) (name : String) :
    (c.map f).get? name = (c.get? name).map (f name) := by
  apply Option.ext
  intro b
  rw [get?_eq_some_iff, Option.map_eq_some_iff]
  simp only [get?_eq_some_iff, map, List.mem_map, Prod.mk.injEq, Prod.exists]
  constructor
  · rintro ⟨_, a, member, rfl, rfl⟩
    exact ⟨a, member, rfl⟩
  · rintro ⟨a, member, rfl⟩
    exact ⟨name, a, member, rfl, rfl⟩

theorem map_override (f : String → α → β) (c other : Catalog α) :
    (c.override other).map f = (c.map f).override (other.map f) := by
  apply ext_get?
  intro name
  rw [get?_map, get?_override, get?_override, get?_map, get?_map]
  cases other.get? name <;> rfl

end Catalog

namespace Layer

variable (o : MappingOrder)

def arranged (layer : Layer) : Layer := { layer with sections := layer.sections.map o.arrange }

theorem arranged_listed (layer : Layer) : layer.arranged .listed = layer := by
  have same : layer.sections.map MappingOrder.listed.arrange = layer.sections := by
    apply Catalog.ext_get?
    intro name
    rw [Catalog.get?_map]
    cases layer.sections.get? name <;> rfl
  rw [arranged, same]

/-- Two layers that differ in the orders of their mappings alone. -/
structure Enumerations (layer layer' : Layer) : Prop where
  defaultCount : layer'.defaultCount = layer.defaultCount
  unknown : layer'.unknown = layer.unknown
  sections : ∀ name,
    Option.Rel Section.Enumerations (layer.sections.get? name) (layer'.sections.get? name)

open Classical in
/-- The order that another layer has its mappings in. -/
noncomputable def orderOf (layer : Layer) : MappingOrder where
  arrange name s :=
    match layer.sections.get? name with
    | some s' => if s.Enumerations s' then s' else s
    | none => s
  enumerates name s := by
    split
    · split
      · next e => exact e
      · exact .refl s
    · exact .refl s

theorem arrange_orderOf {layer : Layer} {name : String} {s s' : Section}
    (found : layer.sections.get? name = some s') (order : s.Enumerations s') :
    layer.orderOf.arrange name s = s' := by
  simp [orderOf, found, order]

/-- The orders of a layer's mappings are the orders that loads go through them in. -/
theorem enumerations_iff {layer layer' : Layer} :
    layer.Enumerations layer' ↔ ∃ o, layer' = layer.arranged o := by
  constructor
  · intro e
    have same : layer'.sections = layer.sections.map layer'.orderOf.arrange := by
      apply Catalog.ext_get?
      intro name
      have related := e.sections name
      rw [Catalog.get?_map]
      generalize layer.sections.get? name = given at related
      generalize found : layer'.sections.get? name = given' at related
      cases related with
      | none => rfl
      | some order => exact congrArg some (arrange_orderOf found order).symm
    refine ⟨layer'.orderOf, ?_⟩
    rw [arranged, ← same, ← e.defaultCount, ← e.unknown]
  · rintro ⟨o, rfl⟩
    refine ⟨rfl, rfl, fun name => ?_⟩
    rw [arranged, Catalog.get?_map]
    cases layer.sections.get? name with
    | none => exact .none
    | some s => exact .some (o.enumerates name s)

theorem arranged_override (base layer : Layer) :
    (base.override layer).arranged o = (base.arranged o).override (layer.arranged o) := by
  simp only [arranged, override, Catalog.map_override]

theorem arranged_stacked (lower upper : Option Layer) :
    (stacked lower upper).arranged o =
      stacked (lower.map (arranged o)) (upper.map (arranged o)) := by
  have bottom : (arranged o {}) = {} := rfl
  cases lower <;> cases upper <;> simp [stacked, arranged_override, bottom]

end Layer

/-! ### Files in an order -/

variable {o : MappingOrder}

/-- The text of a settings file with the mappings in an order. Any other text stays. -/
def MappingOrder.relist (o : MappingOrder) (text : String) : String :=
  match Layer.parse text with
  | .ok layer => (layer.arranged o).file
  | .error _ => text

theorem Layer.parse_relist (text : String) :
    parse (o.relist text) = (parse text).map (arranged o) := by
  unfold MappingOrder.relist
  cases parsed : parse text with
  | error e => exact parsed
  | ok layer =>
    have tidy := tidy_of_parse parsed
    exact parse_file ⟨tidy.once, tidy.foreign⟩

/-- The same files, but those under some paths with the mappings in an order. -/
def Files.relisted (o : MappingOrder) (paths : List String) (files : Files) : Files := fun path =>
  if path ∈ paths then (files path).map o.relist else files path

section Relisted

variable {files : Files} {paths : List String}

theorem Files.relisted_of_mem {path : String} (member : path ∈ paths) :
    files.relisted o paths path = (files path).map o.relist := if_pos member

theorem Files.relisted_of_not_mem {path : String} (other : path ∉ paths) :
    files.relisted o paths path = files path := if_neg other

theorem Files.has_relisted : (files.relisted o paths).has = files.has := by
  funext path
  unfold has
  by_cases member : path ∈ paths
  · rw [relisted_of_mem member]
    cases files path <;> rfl
  · rw [relisted_of_not_mem member]

/-- A column that relisted files configure is one that the files configure. -/
theorem Configured.of_relisted {resource column : String}
    (configured : Configured (files.relisted o paths) resource column) :
    Configured files resource column := by
  obtain ⟨path, text, layer, s, there, parsed, present, m, mapped, rfl⟩ := configured
  by_cases member : path ∈ paths
  · rw [Files.relisted_of_mem member] at there
    obtain ⟨text, found, rfl⟩ := except_map_ok_iff.mp there
    rw [Layer.parse_relist] at parsed
    obtain ⟨layer, read, rfl⟩ := except_map_ok_iff.mp parsed
    obtain ⟨⟨name, s⟩, given, same⟩ := List.mem_map.mp present
    obtain ⟨rfl, rfl⟩ := Prod.mk.inj same
    have mapped := (o.enumerates name s).mappings.mem_iff.mp mapped
    exact ⟨path, text, layer, s, found, read, given, m, mapped, rfl⟩
  · rw [Files.relisted_of_not_mem member] at there
    exact ⟨path, text, layer, s, there, parsed, present, m, mapped, rfl⟩

namespace Settings

theorem profile?_relisted (home : Option String) :
    profile? (files.relisted o paths) home = profile? files home := by
  rw [profile?, profile?, Files.has_relisted]

theorem overlay?_relisted (home asked : Option String) :
    overlay? (files.relisted o paths) home asked = overlay? files home asked := by
  simp only [overlay?, Files.has_relisted]

theorem result_loadLayer (files : Files) (path : String) :
    (loadLayer files path).result = ((files path).mapError (.unreadable path)).bind fun text =>
      (Layer.parse text).mapError (.malformed path) := by
  simp only [loadLayer, Recorded.result_bind, Recorded.result_silent, Recorded.result_log,
    Recorded.result_logAll, Recorded.result_pure]
  cases files path with
  | error e => rfl
  | ok text =>
    show ((Layer.parse text).mapError _).bind _ = (Layer.parse text).mapError _
    cases Layer.parse text <;> rfl

theorem loadLayer_relisted {path : String} (member : path ∈ paths) :
    (loadLayer (files.relisted o paths) path).result =
      (loadLayer files path).result.map (Layer.arranged o) := by
  rw [result_loadLayer, result_loadLayer, Files.relisted_of_mem member]
  cases files path with
  | error e => rfl
  | ok text =>
    show (Layer.parse (o.relist text)).mapError _ = ((Layer.parse text).mapError _).map _
    rw [Layer.parse_relist]
    cases Layer.parse text <;> rfl

theorem layerAt_relisted {path : Option String} (member : ∀ p ∈ path, p ∈ paths) :
    layerAt (files.relisted o paths) path =
      (layerAt files path).map (Option.map (Layer.arranged o)) := by
  cases path with
  | none => rfl
  | some path =>
    rw [layerAt, layerAt, loadLayer_relisted (member path rfl)]
    cases (loadLayer files path).result <;> rfl

end Settings

end Relisted

/-! ### Loads and runs in an order -/

namespace Settings

/-- The result of a load that goes through the mappings of each section in an order. -/
def loadIn (o : MappingOrder) (files : Files) (home : Option String) (overrides : Overrides) :
    Except SettingsError Settings := do
  let lower ← layerAt files (profile? files home)
  let path ← overlay? files home overrides.config
  let upper ← layerAt files path
  let settings ← ofLayer ((Layer.stacked lower upper).arranged o) overrides.defaultCount
  settings.validate.result
  return settings

theorem loadIn_listed (files : Files) (home : Option String) (overrides : Overrides) :
    loadIn .listed files home overrides = (load files home overrides).result := by
  rw [result_load]
  simp only [loadIn, Layer.arranged_listed, layered]

/-- The paths that settings are read from. -/
def paths (files : Files) (home : Option String) (overrides : Overrides) : List String :=
  (profile? files home).toList ++ (overlay? files home overrides.config).toOption.join.toList

end Settings

/-- A load in an order is the load of files that list the mappings in this order. -/
theorem load_relisted (o : MappingOrder) (files : Files) (home : Option String)
    (overrides : Overrides) :
    (Settings.load (files.relisted o (Settings.paths files home overrides)) home overrides).result =
      Settings.loadIn o files home overrides := by
  have lower : ∀ p ∈ Settings.profile? files home, p ∈ Settings.paths files home overrides :=
    fun p given => List.mem_append_left _ (Option.mem_toList.mpr given)
  rw [Settings.result_load, Settings.loadIn, Settings.profile?_relisted,
    Settings.overlay?_relisted, Settings.layerAt_relisted lower]
  cases Settings.layerAt files (Settings.profile? files home) with
  | error e => rfl
  | ok lower =>
    cases found : Settings.overlay? files home overrides.config with
    | error e => rfl
    | ok path =>
      have upper : ∀ p ∈ path, p ∈ Settings.paths files home overrides := by
        intro p given
        refine List.mem_append_right _ ?_
        rw [found]
        exact Option.mem_toList.mpr given
      show Settings.layerAt (files.relisted o _) path >>= _ = Settings.layerAt files path >>= _
      rw [Settings.layerAt_relisted upper]
      cases Settings.layerAt files path with
      | error e => rfl
      | ok upper =>
        show Settings.layered (lower.map (Layer.arranged o)) (upper.map (Layer.arranged o)) _ = _
        rw [Settings.layered, ← Layer.arranged_stacked]
        rfl

namespace Program

open CommandLine

/-- What the program does with a command when it loads its settings in an order. -/
def performIn (o : MappingOrder) (world : Surroundings) (i : Invocation) :
    Except RunError (List String) := do
  let settings ← (Settings.loadIn o world.files world.home i.overrides).mapError .settings
  (print settings world i.command).result

/-- The same surroundings, but the settings files with the mappings in an order. -/
def relisted (o : MappingOrder) (world : Surroundings) (overrides : Overrides) : Surroundings :=
  { world with
    files := world.files.relisted o (Settings.paths world.files world.home overrides) }

/-- The filter of the command is not read from a settings file. -/
def FilterApart (world : Surroundings) (i : Invocation) : Prop :=
  ∀ options, i.command = .compile options →
    ∀ path ∈ options.filterFile, path ∉ Settings.paths world.files world.home i.overrides

theorem print_relisted {world : Surroundings} {i : Invocation} (apart : FilterApart world i)
    (s : Settings) :
    print s (relisted o world i.overrides) i.command = print s world i.command := by
  cases command : i.command with
  | resources => rfl
  | compile options =>
    have text : readText (relisted o world i.overrides) options.filterFile =
        readText world options.filterFile := by
      cases given : options.filterFile with
      | none => rfl
      | some path =>
        have other := apart options command path given
        exact congrArg (Except.mapError _) (Files.relisted_of_not_mem other)
    simp only [print, compile, task, text]

/-- A run in an order is the run with settings files that list the mappings in this order. -/
theorem run_relisted (o : MappingOrder) {world : Surroundings} {words : List String}
    {i : Invocation} (parsed : CommandLine.parse world.environment words = .ok i)
    (apart : FilterApart world i) :
    ∃ events, run (relisted o world i.overrides) words = .ended events (performIn o world i) := by
  have loaded : (Settings.load (relisted o world i.overrides).files
      (relisted o world i.overrides).home i.overrides).result =
        Settings.loadIn o world.files world.home i.overrides := load_relisted o _ _ _
  have performed : (perform (relisted o world i.overrides) i).result = performIn o world i := by
    simp only [perform, Recorded.result_bind, Recorded.result_log, Recorded.result_mapError,
      print_relisted apart, loaded]
    rfl
  refine ⟨(perform (relisted o world i.overrides) i).events, ?_⟩
  rw [← performed, run]
  have same : CommandLine.parse (relisted o world i.overrides).environment words = .ok i := parsed
  rw [same]

end Program

end ScimQuery
