import ScimQuery.Proofs.AttributeText
import ScimQuery.Proofs.LoadedSettings

/-!
# Layers of settings

What two settings files and the command line say together. A section of the upper file takes the
place of the lower file's section as a whole, and the default count is the last one that is given.
`layered_settings` says when such settings are accepted and what they then hold.
-/

namespace ScimQuery

namespace Section

/-- No two texts of the mappings are equal but for the blanks around them. -/
def Distinct (s : Section) : Prop :=
  (s.mappings.entries.map fun m => Text.trim m.1.toList).Nodup

instance (s : Section) : Decidable s.Distinct := inferInstanceAs (Decidable (List.Nodup _))

/-- A mapping of the section puts the column behind the attribute. -/
def Maps (s : Section) (a : Attribute) (c : Column) : Prop :=
  ∃ text, (text, c) ∈ s.mappings.entries ∧ Attribute.parse text = .ok a

structure Acceptable (s : Section) : Prop where
  attributes : ∀ m ∈ s.mappings.entries, ∃ a, Attribute.parse m.1 = .ok a
  columns : ∀ m ∈ s.mappings.entries, isColumnName m.2.column = true
  count : ∀ n, s.count = some n → 1 ≤ n.toNat ∧ n.toNat ≤ 10000
  order : ∀ text, s.orderBy = some text →
    ∃ a c, Attribute.parse text = .ok a ∧ s.Maps a c ∧ c.sortable = true

variable {s : Section} {name : String} {t : MappingTable}

theorem exists_table_iff :
    (∃ t, s.table name = .ok t) ↔
      ∀ m ∈ s.mappings.entries, ∃ a, Attribute.parse m.1 = .ok a := by
  have converted : (∃ t, s.table name = .ok t) ↔ ∃ es, (s.mappings.entries.mapM fun m =>
      ((Attribute.parse m.1).map fun a => (a, m.2)).mapError
        (SettingsError.invalidMapping name)) = .ok es := by
    unfold table
    constructor
    · rintro ⟨t, built⟩
      obtain ⟨es, converted, _⟩ := except_map_ok_iff.mp built
      exact ⟨es, converted⟩
    · rintro ⟨es, converted⟩
      exact ⟨.ofList es, except_map_ok_iff.mpr ⟨es, converted, rfl⟩⟩
  rw [converted, exists_mapM_iff]
  simp

theorem mem_table_iff (distinct : s.Distinct) (h : s.table name = .ok t) {a : Attribute}
    {c : Column} : (a, c) ∈ t.entries ↔ s.Maps a c := by
  obtain ⟨es, converted, rfl⟩ := except_map_ok_iff.mp h
  have texts : es.map (fun e => e.1.text.toList) =
      s.mappings.entries.map fun m => Text.trim m.1.toList := by
    refine map_of_mapM (fun m e read => ?_) converted
    obtain ⟨a, parsed, rfl⟩ := except_map_ok_iff.mp (mapError_ok_iff.mp read)
    exact Attribute.text_of_parse parsed
  have keys : (es.map (·.1)).Nodup := by
    refine List.Nodup.of_map (fun a : Attribute => a.text.toList) ?_
    rw [List.map_map]
    exact texts ▸ distinct
  rw [Dictionary.entries_ofList keys, mem_mapM_iff converted]
  simp only [Maps, mapError_ok_iff, except_map_ok_iff, Prod.mk.injEq, Prod.exists]
  constructor
  · rintro ⟨text, c', member, a', parsed, rfl, rfl⟩
    exact ⟨text, member, parsed⟩
  · rintro ⟨text, member, parsed⟩
    exact ⟨text, c, member, a, parsed, rfl, rfl⟩

theorem orderAttribute_ok_iff {a? : Option Attribute} :
    s.orderAttribute name = .ok a? ↔
      match s.orderBy with
      | some text => ∃ a, Attribute.parse text = .ok a ∧ a? = some a
      | none => a? = none := by
  unfold orderAttribute
  cases s.orderBy with
  | none => simp [eq_comm]
  | some text =>
    simp only [mapError_ok_iff, except_map_ok_iff]
    exact exists_congr fun a => and_congr_right fun _ => eq_comm

theorem resource_ok_iff {r : Resource} :
    s.resource name = .ok r ↔
      s.table name = .ok r.table ∧ s.orderAttribute name = .ok r.orderBy ∧
        r.direction = s.direction.getD .asc ∧ r.count = s.count := by
  simp only [resource, bind_ok_iff, pure_ok_iff]
  constructor
  · rintro ⟨t, built, a?, read, rfl⟩
    exact ⟨built, read, rfl, rfl⟩
  · rintro ⟨built, read, direction, count⟩
    refine ⟨r.table, built, r.orderBy, read, ?_⟩
    rw [← direction, ← count]

theorem acceptable_of_checked (distinct : s.Distinct) {r : Resource}
    (h : s.resource name = .ok r) (checked : r.Checked) : s.Acceptable := by
  obtain ⟨built, read, _, count⟩ := resource_ok_iff.mp h
  have attributes := exists_table_iff.mp ⟨r.table, built⟩
  constructor
  · exact attributes
  · intro m member
    obtain ⟨a, parsed⟩ := attributes m member
    have present : (a, m.2) ∈ r.table.entries :=
      (mem_table_iff distinct built).mpr ⟨m.1, member, parsed⟩
    exact checked.named (a, m.2) present
  · intro n given
    exact Settings.inRange_iff.mp (checked.count n (count.trans given))
  · intro text given
    rw [orderAttribute_ok_iff, given] at read
    obtain ⟨a, parsed, order⟩ := read
    obtain ⟨column, found⟩ := checked.order a order
    obtain ⟨c, present, sortable, _⟩ := MappingTable.sortColumn_ok_iff.mp found
    exact ⟨a, c, parsed, (mem_table_iff distinct built).mp present, sortable⟩

theorem checked_of_acceptable (name : String) (distinct : s.Distinct)
    (acceptable : s.Acceptable) : ∃ r, s.resource name = .ok r ∧ r.Checked := by
  obtain ⟨t, built⟩ := (exists_table_iff (s := s)).mpr acceptable.attributes
  have order : ∃ a?, s.orderAttribute name = .ok a? ∧
      ∀ a, a? = some a → ∃ column, MappingTable.sortColumn t a = .ok column := by
    cases given : s.orderBy with
    | none => exact ⟨none, by simp [orderAttribute_ok_iff, given], nofun⟩
    | some text =>
      obtain ⟨a, c, parsed, maps, sortable⟩ := acceptable.order text given
      have found : MappingTable.sortColumn t a = .ok c.column :=
        MappingTable.sortColumn_ok_iff.mpr
          ⟨c, (mem_table_iff distinct built).mpr maps, sortable, rfl⟩
      refine ⟨some a, by simp [orderAttribute_ok_iff, given, parsed], ?_⟩
      rintro _ ⟨⟩
      exact ⟨c.column, found⟩
  obtain ⟨a?, read, ordered⟩ := order
  refine ⟨⟨t, a?, s.direction.getD .asc, s.count⟩, resource_ok_iff.mpr ⟨built, read, rfl, rfl⟩, ?_⟩
  constructor
  · intro e member
    obtain ⟨text, present, _⟩ := (mem_table_iff distinct built).mp member
    exact acceptable.columns (text, e.2) present
  · intro n given
    exact Settings.inRange_iff.mpr (acceptable.count n given)
  · exact ordered

end Section

/-! ### Two files and a command line -/

/-- What the files that are there say together, the lower one first. -/
def Layer.stacked (lower upper : Option Layer) : Layer :=
  (lower.toList ++ upper.toList).foldl override {}

/-- The settings of two parsed files and a default count, if they pass all checks. -/
def Settings.layered (lower upper : Option Layer) (asked : Option UInt64) :
    Except SettingsError Settings := do
  let settings ← ofLayer (Layer.stacked lower upper) asked
  settings.validate.result
  return settings

/-- The section that counts for a resource. -/
def Layer.section? (lower upper : Option Layer) (name : String) : Option Section :=
  (upper.bind (·.sections.get? name)).or (lower.bind (·.sections.get? name))

/-- The default count that counts: the last one given, else 50. -/
def Layer.count (lower upper : Option Layer) (asked : Option UInt64) : UInt64 :=
  (asked.or ((upper.bind (·.defaultCount)).or (lower.bind (·.defaultCount)))).getD 50

variable {lower upper : Option Layer} {asked : Option UInt64}

theorem Layer.get?_stacked (lower upper : Option Layer) (name : String) :
    (stacked lower upper).sections.get? name = section? lower upper name := by
  cases lower <;> cases upper <;> simp [stacked, section?, override]

theorem Layer.count_stacked (lower upper : Option Layer) (asked : Option UInt64) :
    (asked.or (stacked lower upper).defaultCount).getD Settings.fallbackCount =
      count lower upper asked := by
  cases lower <;> cases upper <;> simp [stacked, count, override, Settings.fallbackCount]

namespace Settings

theorem layered_ok_iff {s : Settings} :
    layered lower upper asked = .ok s ↔
      (s.defaultCount = Layer.count lower upper asked ∧
        (Layer.stacked lower upper).sections.mapM Section.resource = .ok s.resources) ∧
      s.Checked := by
  simp only [layered, ofLayer, bind_ok_iff, pure_ok_iff, Layer.count_stacked]
  constructor
  · rintro ⟨_, ⟨resources, built, rfl⟩, _, checked, rfl⟩
    exact ⟨⟨rfl, built⟩, validate_ok_iff.mp checked⟩
  · rintro ⟨⟨count, built⟩, checked⟩
    refine ⟨s, ⟨s.resources, built, ?_⟩, (), validate_ok_iff.mpr checked, rfl⟩
    rw [← count]

/-- Only the sections that count and the default count that counts matter. -/
theorem layered_congr {lower' : Option Layer}
    (sections : ∀ name, Layer.section? lower' upper name = Layer.section? lower upper name)
    (count : Layer.count lower' upper asked = Layer.count lower upper asked) :
    layered lower' upper asked = layered lower upper asked := by
  have same : (Layer.stacked lower' upper).sections = (Layer.stacked lower upper).sections :=
    Catalog.ext_get? fun name => by rw [Layer.get?_stacked, Layer.get?_stacked, sections]
  simp only [layered, ofLayer, Layer.count_stacked, count, same]

/-- The layer in a file, if there is a file. -/
def layerAt (files : Files) (path : Option String) : Except SettingsError (Option Layer) :=
  match path with
  | none => .ok none
  | some path => (loadLayer files path).result.map some

theorem result_addLayer (files : Files) (base : Layer) (path : Option String) :
    (addLayer files base path).result =
      (layerAt files path).map fun layer => layer.toList.foldl Layer.override base := by
  cases path with
  | none => rfl
  | some path =>
    simp only [addLayer, layerAt, Recorded.result_bind]
    cases (loadLayer files path).result <;> rfl

/-- Loading reads two files, each of which may be missing, and layers them. -/
theorem result_load (files : Files) (home : Option String) (overrides : Overrides) :
    (load files home overrides).result = (do
      let lower ← layerAt files (profile? files home)
      let path ← overlay? files home overrides.config
      let upper ← layerAt files path
      layered lower upper overrides.defaultCount) := by
  simp only [load, Recorded.result_bind, Recorded.result_silent, Recorded.result_log,
    Recorded.result_pure, result_addLayer, layered, Layer.stacked, List.foldl_append]
  cases layerAt files (profile? files home) with
  | error e => rfl
  | ok lower =>
    cases overlay? files home overrides.config with
    | error e => rfl
    | ok path =>
      show ((layerAt files path).map _).bind _ = (layerAt files path).bind _
      cases layerAt files path with
      | error e => rfl
      | ok upper => rfl

/-- The settings hold a resource for each section, made from that section alone. -/
structure MadeFrom (s : Settings) (sections : String → Option Section) : Prop where
  names : ∀ name, name ∈ s.resources.names ↔ ∃ given, sections name = some given
  tables : ∀ name r, s.resources.get? name = some r → ∃ given, sections name = some given ∧
    (∀ a c, (a, c) ∈ r.table.entries ↔ given.Maps a c) ∧
    given.orderAttribute name = .ok r.orderBy ∧
    r.direction = given.direction.getD .asc ∧ r.count = given.count

end Settings

/-- In each section of the layer the attributes are distinct. -/
def Layer.Distinct (layer : Layer) : Prop := ∀ e ∈ layer.sections.entries, e.2.Distinct

instance (layer : Layer) : Decidable layer.Distinct :=
  inferInstanceAs (Decidable (∀ e ∈ layer.sections.entries, e.2.Distinct))

theorem Layer.distinct_section? (below : ∀ layer ∈ lower, layer.Distinct)
    (above : ∀ layer ∈ upper, layer.Distinct) {name : String} {given : Section}
    (found : section? lower upper name = some given) : given.Distinct := by
  have distinct : ∀ layer? : Option Layer, (∀ layer ∈ layer?, layer.Distinct) →
      layer?.bind (·.sections.get? name) = some given → given.Distinct := by
    intro layer? all inside
    obtain ⟨layer, present, held⟩ := Option.bind_eq_some_iff.mp inside
    exact all layer present (name, given) (Catalog.get?_eq_some_iff.mp held)
  rcases Option.or_eq_some_iff.mp found with high | ⟨_, low⟩
  · exact distinct upper above high
  · exact distinct lower below low

theorem Settings.layered_accepted_iff (below : ∀ layer ∈ lower, layer.Distinct)
    (above : ∀ layer ∈ upper, layer.Distinct) :
    (∃ s, layered lower upper asked = .ok s) ↔
      (1 ≤ (Layer.count lower upper asked).toNat ∧
        (Layer.count lower upper asked).toNat ≤ 10000) ∧
      ∀ name given, Layer.section? lower upper name = some given → given.Acceptable := by
  constructor
  · rintro ⟨s, accepted⟩
    obtain ⟨⟨count, built⟩, checked⟩ := layered_ok_iff.mp accepted
    refine ⟨inRange_iff.mp (count ▸ checked.defaultCount), fun name given found => ?_⟩
    have stacked := (Layer.get?_stacked lower upper name).trans found
    obtain ⟨r, made⟩ := Catalog.exists_mapM_iff.mp ⟨_, built⟩ name given stacked
    have held : s.resources.get? name = some r :=
      (Catalog.get?_of_mapM built).mpr ⟨given, stacked, made⟩
    exact Section.acceptable_of_checked (Layer.distinct_section? below above found) made
      (checked.resources (name, r) (Catalog.get?_eq_some_iff.mp held))
  · rintro ⟨range, acceptable⟩
    have resources : ∀ name given, (Layer.stacked lower upper).sections.get? name = some given →
        ∃ r, given.resource name = .ok r ∧ r.Checked := by
      intro name given found
      rw [Layer.get?_stacked] at found
      exact Section.checked_of_acceptable name (Layer.distinct_section? below above found)
        (acceptable name given found)
    obtain ⟨made, built⟩ := Catalog.exists_mapM_iff.mpr fun name given found =>
      (resources name given found).imp fun _ => And.left
    refine ⟨⟨Layer.count lower upper asked, made⟩,
      layered_ok_iff.mpr ⟨⟨rfl, built⟩, inRange_iff.mpr range, ?_⟩⟩
    rintro ⟨name, r⟩ member
    obtain ⟨given, found, converted⟩ :=
      (Catalog.get?_of_mapM built).mp (Catalog.get?_eq_some_iff.mpr member)
    obtain ⟨r', same, checked⟩ := resources name given found
    obtain rfl := Except.ok.inj (same.symm.trans converted)
    exact checked

theorem Settings.madeFrom_of_layered (below : ∀ layer ∈ lower, layer.Distinct)
    (above : ∀ layer ∈ upper, layer.Distinct) {s : Settings}
    (accepted : layered lower upper asked = .ok s) :
    s.MadeFrom (Layer.section? lower upper) := by
  obtain ⟨⟨_, built⟩, _⟩ := layered_ok_iff.mp accepted
  constructor
  · intro name
    rw [Catalog.mem_names_iff, ← Layer.get?_stacked lower upper name]
    constructor
    · rintro ⟨r, held⟩
      obtain ⟨given, found, _⟩ := (Catalog.get?_of_mapM built).mp held
      exact ⟨given, found⟩
    · rintro ⟨given, found⟩
      obtain ⟨r, made⟩ := Catalog.exists_mapM_iff.mp ⟨_, built⟩ name given found
      exact ⟨r, (Catalog.get?_of_mapM built).mpr ⟨given, found, made⟩⟩
  · intro name r held
    obtain ⟨given, found, made⟩ := (Catalog.get?_of_mapM built).mp held
    rw [Layer.get?_stacked] at found
    obtain ⟨table, order, direction, count⟩ := Section.resource_ok_iff.mp made
    have distinct := Layer.distinct_section? below above found
    exact ⟨given, found, fun a c => Section.mem_table_iff distinct table, order, direction, count⟩

/-- Two layers are accepted when the default count that counts is in range and each section that
counts is acceptable; the settings then hold those sections and no others. What the upper layer
replaces does not matter. Loading from two files comes to what their layers come to. -/
theorem layered_settings (below : ∀ layer ∈ lower, layer.Distinct)
    (above : ∀ layer ∈ upper, layer.Distinct) :
    ((∃ s, Settings.layered lower upper asked = .ok s) ↔
      (1 ≤ (Layer.count lower upper asked).toNat ∧
        (Layer.count lower upper asked).toNat ≤ 10000) ∧
      ∀ name given, Layer.section? lower upper name = some given → given.Acceptable) ∧
    (∀ s, Settings.layered lower upper asked = .ok s →
      s.defaultCount = Layer.count lower upper asked ∧
      s.MadeFrom (Layer.section? lower upper)) ∧
    (∀ lower' : Option Layer, Layer.count lower' upper asked = Layer.count lower upper asked →
      (∀ name, upper.bind (·.sections.get? name) = none →
        lower'.bind (·.sections.get? name) = lower.bind (·.sections.get? name)) →
      Settings.layered lower' upper asked = Settings.layered lower upper asked) ∧
    ∀ files home config path, Settings.overlay? files home config = .ok path →
      Settings.layerAt files (Settings.profile? files home) = .ok lower →
      Settings.layerAt files path = .ok upper →
      (Settings.load files home ⟨config, asked⟩).result = Settings.layered lower upper asked := by
  refine ⟨Settings.layered_accepted_iff below above, fun s accepted => ?_,
    fun lower' count outside => ?_, fun files home config path found first second => ?_⟩
  · obtain ⟨⟨count, _⟩, _⟩ := Settings.layered_ok_iff.mp accepted
    exact ⟨count, Settings.madeFrom_of_layered below above accepted⟩
  · refine Settings.layered_congr (fun name => ?_) count
    unfold Layer.section?
    cases replaced : upper.bind (·.sections.get? name) with
    | some given => rfl
    | none => rw [outside name replaced]
  · rw [Settings.result_load, first, found]
    change (Settings.layerAt files path >>= fun upper => Settings.layered lower upper asked) = _
    rw [second]
    rfl

/-! ### A section that is replaced -/

/-- The section on users would be refused. -/
def userLayer : Layer where
  defaultCount := some 20
  sections := .ofList [
    ("users", { mappings := .ofList [("a.b.c", ⟨"usr.id; --", .int, true⟩)], count := some 0 }),
    ("groups", { mappings := .ofList [(" name ", ⟨"grp.name", .string, true⟩)] })]

def localLayer : Layer where
  sections := .ofList [
    ("users", { mappings := .ofList [("id", ⟨"usr.id", .int, true⟩),
      ("emails.type", ⟨"eml.type", .string, false⟩)], orderBy := some "id " })]

theorem localLayer_replaces :
    (∀ layer ∈ some userLayer, layer.Distinct) ∧ (∀ layer ∈ some localLayer, layer.Distinct) ∧
    ∃ s, Settings.layered (some userLayer) (some localLayer) none = .ok s ∧
      s.defaultCount = 20 ∧ s.MadeFrom (Layer.section? (some userLayer) (some localLayer)) :=
  have below : ∀ layer ∈ some userLayer, layer.Distinct := by decide
  have above : ∀ layer ∈ some localLayer, layer.Distinct := by decide
  have accepted : ∃ s, Settings.layered (some userLayer) (some localLayer) none = .ok s :=
    ⟨_, rfl⟩
  accepted.elim fun s layered =>
    have holds := (layered_settings below above).2.1 s layered
    ⟨below, above, s, layered, holds.1.trans rfl, holds.2⟩

end ScimQuery
