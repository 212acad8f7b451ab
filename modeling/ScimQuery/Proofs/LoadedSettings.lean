import ScimQuery.Proofs.Lookup
import ScimQuery.Settings

/-!
# Loaded settings

Settings that load have passed every check (`load_checked`), and each of their columns stands in a
settings file that was read (`load_configured`).
-/

namespace ScimQuery

theorem MappingTable.sortColumn_ok_iff {t : MappingTable} {a : Attribute} {column : String} :
    t.sortColumn a = .ok column ↔
      ∃ c, (a, c) ∈ t.entries ∧ c.sortable = true ∧ c.column = column := by
  simp only [sortColumn, bind_ok_iff, resolve_ok_iff, find?, Option.bind_none, Option.none_or,
    Dictionary.get?_eq_some_iff]
  refine exists_congr fun c => and_congr_right fun _ => ?_
  cases c.sortable <;> simp

/-! ### What the checks promise -/

structure Resource.Checked (r : Resource) : Prop where
  named : ∀ e ∈ r.table.entries, isColumnName e.2.column = true
  count : ∀ n, r.count = some n → Settings.inRange n = true
  order : ∀ a, r.orderBy = some a → ∃ column, MappingTable.sortColumn r.table a = .ok column

structure Settings.Checked (s : Settings) : Prop where
  defaultCount : inRange s.defaultCount = true
  resources : ∀ e ∈ s.resources.entries, e.2.Checked

theorem Settings.inRange_iff {n : UInt64} : inRange n = true ↔ 1 ≤ n.toNat ∧ n.toNat ≤ 10000 := by
  simp [inRange, maxCount, UInt64.le_iff_toNat_le]

namespace Resource

theorem checkColumn_ok_iff {name : String} {e : Attribute × Column} :
    checkColumn name e = .ok () ↔ isColumnName e.2.column = true := by
  unfold checkColumn
  split <;> simp_all

theorem checkCount_ok_iff {name : String} {r : Resource} :
    checkCount name r = .ok () ↔ ∀ n, r.count = some n → Settings.inRange n = true := by
  unfold checkCount
  cases r.count with
  | none => simp
  | some n => cases within : Settings.inRange n <;> simp [within]

theorem checkOrder_ok_iff {name : String} {r : Resource} :
    checkOrder name r = .ok () ↔
      ∀ a, r.orderBy = some a → ∃ column, MappingTable.sortColumn r.table a = .ok column := by
  unfold checkOrder
  cases r.orderBy with
  | none => simp
  | some a => simp

theorem check_ok_iff {name : String} {r : Resource} : r.check name = .ok () ↔ r.Checked := by
  constructor
  · intro h
    obtain ⟨_, columns, h⟩ := bind_ok_iff.mp h
    obtain ⟨_, count, order⟩ := bind_ok_iff.mp h
    exact ⟨fun e member => checkColumn_ok_iff.mp (forM_ok_iff.mp columns e member),
      checkCount_ok_iff.mp count, checkOrder_ok_iff.mp order⟩
  · intro checked
    have columns : r.table.entries.forM (checkColumn name) = .ok () :=
      forM_ok_iff.mpr fun e member => checkColumn_ok_iff.mpr (checked.named e member)
    exact bind_ok_iff.mpr ⟨(), columns, bind_ok_iff.mpr ⟨(), checkCount_ok_iff.mpr checked.count,
      checkOrder_ok_iff.mpr checked.order⟩⟩

theorem validate_ok_iff {name : String} {r : Resource} :
    (r.validate name).result = .ok () ↔ r.Checked := by
  rw [← @check_ok_iff name r, validate]
  split <;> simp

end Resource

theorem Settings.validate_ok_iff {s : Settings} : s.validate.result = .ok () ↔ s.Checked := by
  unfold validate
  split
  · next within =>
    rw [recorded_forM_ok_iff]
    simp only [Resource.validate_ok_iff]
    exact ⟨fun resources => ⟨within, resources⟩, Checked.resources⟩
  · next outside =>
    exact ⟨nofun, fun checked => absurd checked.defaultCount outside⟩

/-! ### Loading -/

/-- Settings load from the layers of two files, each of which may be missing, and are checked. -/
theorem Settings.load_ok {files : Files} {home : Option String} {overrides : Overrides}
    {s : Settings} (h : (load files home overrides).result = .ok s) :
    ∃ base overlay layer, (addLayer files {} (profile? files home)).result = .ok base ∧
      overlay? files home overrides.config = .ok overlay ∧
      (addLayer files base overlay).result = .ok layer ∧
      ofLayer layer overrides.defaultCount = .ok s ∧ s.validate.result = .ok () := by
  simp only [load, Recorded.result_bind, except_bind_ok_iff, Recorded.result_silent,
    Recorded.result_pure, Except.ok.injEq] at h
  obtain ⟨_, _, base, first, overlay, found, layer, second, _, _, settings, built, _, checked, _,
    _, rfl⟩ := h
  exact ⟨base, overlay, layer, first, found, second, built, checked⟩

theorem load_checked {files : Files} {home : Option String} {overrides : Overrides} {s : Settings}
    (loaded : (Settings.load files home overrides).result = .ok s) : s.Checked := by
  obtain ⟨_, _, _, _, _, _, _, checked⟩ := Settings.load_ok loaded
  exact Settings.validate_ok_iff.mp checked

theorem Settings.resource_ok {s : Settings} {name : String} {r : Resource}
    (h : s.resource name = .ok r) : (name, r) ∈ s.resources.entries := by
  unfold resource at h
  split at h
  · next found =>
    obtain rfl := Except.ok.inj h
    exact Catalog.mem_of_get? found
  · cases h

/-! ### Where columns come from -/

/-- A settings file that can be read maps an attribute of a resource to the column. -/
def Configured (files : Files) (resource column : String) : Prop :=
  ∃ path text layer s, files path = .ok text ∧ Layer.parse text = .ok layer ∧
    (resource, s) ∈ layer.sections.entries ∧ ∃ m ∈ s.mappings.entries, m.2.column = column

/-- All columns of a layer are configured. -/
def Layer.FromFiles (files : Files) (layer : Layer) : Prop :=
  ∀ e ∈ layer.sections.entries, ∀ m ∈ e.2.mappings.entries, Configured files e.1 m.2.column

theorem loadLayer_fromFiles {files : Files} {path : String} {layer : Layer}
    (loaded : (Settings.loadLayer files path).result = .ok layer) : layer.FromFiles files := by
  simp only [Settings.loadLayer, Recorded.result_bind, except_bind_ok_iff, Recorded.result_silent,
    Recorded.result_pure, mapError_ok_iff, Except.ok.injEq] at loaded
  obtain ⟨_, _, text, there, found, parsed, _, _, rfl⟩ := loaded
  intro e member m mapped
  exact ⟨path, text, found, e.2, there, parsed, member, m, mapped, rfl⟩

theorem addLayer_fromFiles {files : Files} {base layer : Layer} {path : Option String}
    (below : base.FromFiles files)
    (added : (Settings.addLayer files base path).result = .ok layer) : layer.FromFiles files := by
  cases path with
  | none =>
    obtain rfl := Except.ok.inj added
    exact below
  | some path =>
    simp only [Settings.addLayer, Recorded.result_bind, except_bind_ok_iff, Recorded.result_pure,
      Except.ok.injEq] at added
    obtain ⟨above, loaded, _, _, rfl⟩ := added
    intro e member
    rcases Catalog.mem_override member with early | late
    · exact below e early
    · exact loadLayer_fromFiles loaded e late

/-- The columns of a resource are those of its section. -/
theorem mem_of_sectionResource {name : String} {s : Section} {r : Resource}
    (h : s.resource name = .ok r) {e : Attribute × Column} (member : e ∈ r.table.entries) :
    ∃ m ∈ s.mappings.entries, m.2 = e.2 := by
  simp only [Section.resource, bind_ok_iff, pure_ok_iff] at h
  obtain ⟨table, built, _, _, rfl⟩ := h
  obtain ⟨es, converted, rfl⟩ := except_map_ok_iff.mp built
  obtain ⟨m, present, read⟩ := (mem_mapM_iff converted).mp (Dictionary.mem_ofList member)
  obtain ⟨a, _, rfl⟩ := except_map_ok_iff.mp (mapError_ok_iff.mp read)
  exact ⟨m, present, rfl⟩

/-- Each column of loaded settings stands in a settings file. -/
theorem load_configured {files : Files} {home : Option String} {overrides : Overrides}
    {s : Settings} (loaded : (Settings.load files home overrides).result = .ok s)
    {name : String} {r : Resource} (present : (name, r) ∈ s.resources.entries)
    {e : Attribute × Column} (member : e ∈ r.table.entries) :
    Configured files name e.2.column := by
  obtain ⟨base, overlay, layer, first, _, second, built, _⟩ := Settings.load_ok loaded
  have nothing : Layer.FromFiles files {} := by simp [Layer.FromFiles, Catalog.empty]
  have sources := addLayer_fromFiles (addLayer_fromFiles nothing first) second
  simp only [Settings.ofLayer, bind_ok_iff, pure_ok_iff] at built
  obtain ⟨_, converted, rfl⟩ := built
  obtain ⟨source, given, made⟩ :=
    (Catalog.get?_of_mapM converted).mp (Catalog.get?_eq_some_iff.mpr present)
  obtain ⟨m, mapped, same⟩ := mem_of_sectionResource made member
  exact same ▸ sources (name, source) (Catalog.get?_eq_some_iff.mp given) m mapped

end ScimQuery
