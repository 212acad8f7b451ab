import ScimQuery.Proofs.ByteOrder
import ScimQuery.Proofs.SectionTable

/-!
# Orders of loaded resources

The attributes of a loaded resource were read from texts, so each shows as a text of its own. This
makes the list of its mappings strictly ordered, whatever order the table has them in, and the first
sortable one of them well defined (`default_order`).
-/

namespace ScimQuery

/-! ### Keys of loaded tables -/

/-- All attributes of the table were read from texts. -/
def MappingTable.Parsed (t : MappingTable) : Prop :=
  ∀ e ∈ t.entries, ∃ text, Attribute.parse text = .ok e.1

theorem Section.table_parsed {s : Section} {name : String} {t : MappingTable}
    (h : s.table name = .ok t) : t.Parsed := by
  intro e member
  have last : s.last? e.1 = some e.2 :=
    (get?_table h e.1).symm.trans (Dictionary.get?_eq_some_iff.mpr member)
  obtain ⟨text, _, parsed⟩ := maps_of_last? last
  exact ⟨text, parsed⟩

theorem load_parsed {files : Files} {home : Option String} {overrides : Overrides} {s : Settings}
    (loaded : (Settings.load files home overrides).result = .ok s) {name : String} {r : Resource}
    (present : (name, r) ∈ s.resources.entries) : r.table.Parsed := by
  obtain ⟨_, _, layer, _, _, _, built, _⟩ := Settings.load_ok loaded
  simp only [Settings.ofLayer, bind_ok_iff, pure_ok_iff] at built
  obtain ⟨_, converted, rfl⟩ := built
  obtain ⟨source, _, made⟩ :=
    (Catalog.get?_of_mapM converted).mp (Catalog.get?_eq_some_iff.mpr present)
  exact Section.table_parsed (Section.resource_ok_iff.mp made).1

/-- Attributes that were read from texts show as texts of their own. -/
theorem MappingTable.Parsed.nodup_texts {t : MappingTable} (parsed : t.Parsed) :
    (t.entries.map (·.1.text)).Nodup := by
  have keys := List.pairwise_map.mp t.distinct
  rw [List.Nodup, List.pairwise_map]
  refine keys.imp_of_mem fun {e f} member member' differ same => differ ?_
  obtain ⟨text, read⟩ := parsed e member
  obtain ⟨text', read'⟩ := parsed f member'
  exact Attribute.text_inj read read' same

/-! ### Tables in another order -/

theorem Dictionary.get?_eq_of_perm {κ ν : Type} [DecidableEq κ] {d d' : Dictionary κ ν}
    (perm : d'.entries.Perm d.entries) (k : κ) : d'.get? k = d.get? k := by
  apply Option.ext
  intro v
  rw [get?_eq_some_iff, get?_eq_some_iff]
  exact perm.mem_iff

namespace MappingTable

variable {t t' : MappingTable}

theorem Parsed.of_perm (parsed : t.Parsed) (perm : t'.entries.Perm t.entries) : t'.Parsed :=
  fun e member => parsed e (perm.mem_iff.mp member)

theorem sortColumn_eq_of_perm (perm : t'.entries.Perm t.entries) (a : Attribute) :
    t'.sortColumn a = t.sortColumn a := by
  have found : t'.find? a none = t.find? a none := by
    simp only [find?, Dictionary.get?_eq_of_perm perm]
  simp only [sortColumn, resolve, found]

end MappingTable

namespace Resource

variable {r r' : Resource}

/-! ### The list of mappings -/

theorem mem_listed {e : Attribute × Column} : e ∈ r.listed ↔ e ∈ r.table.entries :=
  List.mem_mergeSort

theorem listed_strictly (parsed : r.table.Parsed) :
    r.listed.Pairwise fun e f => e.1.text < f.1.text := by
  have sorted : r.listed.Pairwise fun e f => decide (e.1.text ≤ f.1.text) = true := by
    apply List.pairwise_mergeSort
    · intro e f g first rest
      exact decide_eq_true (String.le_trans (of_decide_eq_true first) (of_decide_eq_true rest))
    · intro e f
      simpa using String.le_total e.1.text f.1.text
  have apart : r.listed.Pairwise fun e f => e.1.text ≠ f.1.text := by
    apply List.pairwise_map.mp
    exact ((List.mergeSort_perm _ _).map _).nodup_iff.mpr parsed.nodup_texts
  refine (sorted.and apart).imp fun {e f} both => ?_
  exact lt_of_le_of_ne (of_decide_eq_true both.1) both.2

/-- The list does not depend on the order of the table. -/
theorem listed_eq_of_perm (parsed : r.table.Parsed)
    (perm : r'.table.entries.Perm r.table.entries) : r'.listed = r.listed := by
  have same : r'.listed.Perm r.listed :=
    ((List.mergeSort_perm _ _).trans perm).trans (List.mergeSort_perm _ _).symm
  refine same.eq_of_pairwise (fun e f _ _ below above => ?_)
    (listed_strictly (parsed.of_perm perm)) (listed_strictly parsed)
  exact (String.lt_asymm below above).elim

/-! ### The first sortable mapping -/

/-- A sortable mapping whose attribute shows before those of all other sortable mappings. -/
structure LeastSortable (r : Resource) (e : Attribute × Column) : Prop where
  mapped : e ∈ r.table.entries
  sortable : e.2.sortable = true
  least : ∀ f ∈ r.table.entries, f.2.sortable = true → f ≠ e → Text.Before e.1.text f.1.text

theorem LeastSortable.unique {e f : Attribute × Column} (he : r.LeastSortable e)
    (hf : r.LeastSortable f) : f = e := by
  by_contra differ
  have below := Text.before_iff.mp (he.least f hf.mapped hf.sortable differ)
  have above := Text.before_iff.mp (hf.least e he.mapped he.sortable (Ne.symm differ))
  exact String.lt_asymm below above

theorem leastSortable_of_find? (parsed : r.table.Parsed) {e : Attribute × Column}
    (h : r.listed.find? (fun e => e.2.sortable) = some e) : r.LeastSortable e := by
  obtain ⟨sortable, before, after, split, skipped⟩ := List.find?_eq_some_iff_append.mp h
  have ordered := listed_strictly parsed
  rw [split, List.pairwise_append, List.pairwise_cons] at ordered
  constructor
  · exact mem_listed.mp (List.mem_of_find?_eq_some h)
  · exact sortable
  · intro f member also differ
    have there : f ∈ before ++ e :: after := split ▸ mem_listed.mpr member
    rcases List.mem_append.mp there with early | late
    · have unsortable := skipped f early
      rw [also] at unsortable
      cases unsortable
    · have later := (List.mem_cons.mp late).resolve_left differ
      exact Text.before_iff.mpr (ordered.2.1.1 f later)

theorem firstSortable?_ok (parsed : r.table.Parsed) {column : String}
    (h : r.firstSortable? = some column) : ∃ e, r.LeastSortable e ∧ column = e.2.column := by
  obtain ⟨e, found, same⟩ := Option.map_eq_some_iff.mp h
  exact ⟨e, leastSortable_of_find? parsed found, same.symm⟩

theorem exists_firstSortable?_iff :
    (∃ column, r.firstSortable? = some column) ↔ ∃ e ∈ r.table.entries, e.2.sortable = true := by
  rw [← Option.isSome_iff_exists, firstSortable?, Option.isSome_map, List.find?_isSome]
  simp only [mem_listed]

/-! ### Orders -/

variable {direction : Option Direction} {o : SortOrder}

theorem order_ok_iff {asked : Option String} :
    r.order asked direction = .ok o ↔
      r.sortColumn asked = .ok o.column ∧ o.direction = direction.getD r.direction := by
  rw [order, except_map_ok_iff]
  constructor
  · rintro ⟨column, found, rfl⟩
    exact ⟨found, rfl⟩
  · rintro ⟨found, same⟩
    exact ⟨o.column, found, by rw [← same]⟩

theorem sortColumn_some_ok_iff {text column : String} :
    r.sortColumn (some text) = .ok column ↔
      ∃ a c, Attribute.parse text = .ok a ∧ (a, c) ∈ r.table.entries ∧ c.sortable = true ∧
        c.column = column := by
  simp only [sortColumn, orderAttribute, bind_ok_iff, mapError_ok_iff, except_map_ok_iff]
  constructor
  · rintro ⟨_, ⟨a, parsed, rfl⟩, found⟩
    obtain ⟨c, mapped⟩ := MappingTable.sortColumn_ok_iff.mp (mapError_ok_iff.mp found)
    exact ⟨a, c, parsed, mapped⟩
  · rintro ⟨a, c, parsed, mapped⟩
    have found := MappingTable.sortColumn_ok_iff.mpr ⟨c, mapped⟩
    exact ⟨some a, ⟨a, parsed, rfl⟩, mapError_ok_iff.mpr found⟩

theorem sortColumn_none_ok_iff {column : String} :
    r.sortColumn none = .ok column ↔
      match r.orderBy with
      | some a => ∃ c, (a, c) ∈ r.table.entries ∧ c.sortable = true ∧ c.column = column
      | none => r.firstSortable? = some column := by
  simp only [sortColumn, orderAttribute]
  cases r.orderBy with
  | some a => exact mapError_ok_iff.trans MappingTable.sortColumn_ok_iff
  | none =>
    cases r.firstSortable? <;> simp [bind, Except.bind, pure, Except.pure]

theorem Checked.exists_sortColumn_iff (checked : r.Checked) :
    (∃ column, r.sortColumn none = .ok column) ↔
      ∃ e ∈ r.table.entries, e.2.sortable = true := by
  simp only [sortColumn_none_ok_iff]
  cases given : r.orderBy with
  | none => exact exists_firstSortable?_iff
  | some a =>
    obtain ⟨column, found⟩ := checked.order a given
    obtain ⟨c, mapped, sortable, same⟩ := MappingTable.sortColumn_ok_iff.mp found
    exact ⟨fun _ => ⟨(a, c), mapped, sortable⟩, fun _ => ⟨column, c, mapped, sortable, same⟩⟩

theorem order_eq_of_perm (parsed : r.table.Parsed) (perm : r'.table.entries.Perm r.table.entries)
    (orderBy : r'.orderBy = r.orderBy) (same : r'.direction = r.direction)
    (asked : Option String) : r'.order asked direction = r.order asked direction := by
  simp only [order, sortColumn, orderAttribute, firstSortable?, orderBy, same,
    listed_eq_of_perm parsed perm, MappingTable.sortColumn_eq_of_perm perm]

end Resource

/-- A loaded resource has a default order if and only if it has a sortable mapping. It orders by the
attribute of its own, else by the sortable mapping that shows first; there is one such mapping, in
whatever order the table has its entries. An attribute that is asked for must be readable, mapped and
sortable. -/
theorem default_order {files : Files} {home : Option String} {overrides : Overrides} {s : Settings}
    (loaded : (Settings.load files home overrides).result = .ok s) {name : String} {r : Resource}
    (present : (name, r) ∈ s.resources.entries) (direction : Option Direction) :
    ((∃ o, r.order none direction = .ok o) ↔ ∃ e ∈ r.table.entries, e.2.sortable = true) ∧
    (∀ o, r.order none direction = .ok o →
      match r.orderBy with
      | some a => ∃ c, (a, c) ∈ r.table.entries ∧ c.sortable = true ∧ o.column = c.column
      | none => ∃ e, r.LeastSortable e ∧ (∀ f, r.LeastSortable f → f = e) ∧
        o.column = e.2.column) ∧
    (∀ text o, r.order (some text) direction = .ok o ↔
      ∃ a c, Attribute.parse text = .ok a ∧ (a, c) ∈ r.table.entries ∧ c.sortable = true ∧
        o = ⟨c.column, direction.getD r.direction⟩) ∧
    (∀ asked o, r.order asked direction = .ok o → o.direction = direction.getD r.direction) ∧
    ∀ r' : Resource, r'.table.entries.Perm r.table.entries → r'.orderBy = r.orderBy →
      r'.direction = r.direction → ∀ asked, r'.order asked direction = r.order asked direction := by
  have parsed := load_parsed loaded present
  have checked := (load_checked loaded).resources (name, r) present
  refine ⟨?_, fun o ordered => ?_, fun text o => ?_, fun asked o ordered => ?_, ?_⟩
  · rw [← checked.exists_sortColumn_iff]
    constructor
    · rintro ⟨o, ordered⟩
      exact ⟨o.column, (Resource.order_ok_iff.mp ordered).1⟩
    · rintro ⟨column, found⟩
      exact ⟨⟨column, direction.getD r.direction⟩, Resource.order_ok_iff.mpr ⟨found, rfl⟩⟩
  · have found := Resource.sortColumn_none_ok_iff.mp (Resource.order_ok_iff.mp ordered).1
    cases given : r.orderBy with
    | some a =>
      simp only [given] at found ⊢
      obtain ⟨c, mapped, sortable, same⟩ := found
      exact ⟨c, mapped, sortable, same.symm⟩
    | none =>
      simp only [given] at found ⊢
      obtain ⟨e, least, same⟩ := Resource.firstSortable?_ok parsed found
      exact ⟨e, least, fun f other => least.unique other, same⟩
  · rw [Resource.order_ok_iff, Resource.sortColumn_some_ok_iff]
    constructor
    · rintro ⟨⟨a, c, read, mapped, sortable, same⟩, towards⟩
      refine ⟨a, c, read, mapped, sortable, ?_⟩
      rw [same, ← towards]
    · rintro ⟨a, c, read, mapped, sortable, rfl⟩
      exact ⟨⟨a, c, read, mapped, sortable, rfl⟩, rfl⟩
  · exact (Resource.order_ok_iff.mp ordered).2
  · intro r' perm orderBy same asked
    exact Resource.order_eq_of_perm parsed perm orderBy same asked

/-! ### A file with two sortable mappings -/

/-- The attribute that shows first comes last in the file, and before it one with a later text but
an earlier column. -/
def unorderedFiles : Files :=
  Files.ofList [("scimsql.json", .ok ("\x7b\"resources\":\x7b\"u\":\x7b\"mappings\":\x7b"
    ++ "\"to\":\x7b\"column\":\"a.to\",\"sortable\":true\x7d,"
    ++ "\"ab\":\x7b\"column\":\"t.ab\"\x7d,"
    ++ "\" id\":\x7b\"column\":\"t.id\",\"sortable\":true\x7d\x7d\x7d\x7d\x7d"))]

theorem unorderedFiles_order :
    ∃ s r, (Settings.load unorderedFiles none {}).result = .ok s ∧
      ("u", r) ∈ s.resources.entries ∧ r.orderBy = none ∧
      ∃ o, r.order none (some .desc) = .ok o ∧ o.direction = .desc ∧
        ∃ e, r.LeastSortable e ∧ (∀ f, r.LeastSortable f → f = e) ∧ o.column = e.2.column := by
  have holds : ((Settings.load unorderedFiles none {}).result.toOption.bind fun s =>
      (s.resources.get? "u").filter fun r =>
        r.orderBy.isNone && r.table.entries.any (·.2.sortable)).isSome = true := by decide +kernel
  obtain ⟨r, found⟩ := Option.isSome_iff_exists.mp holds
  obtain ⟨s, loaded, found⟩ := Option.bind_eq_some_iff.mp found
  obtain ⟨named, found⟩ := Option.filter_eq_some_iff.mp found
  obtain ⟨own, sortable⟩ := (Bool.and_eq_true _ _).mp found
  have loaded := toOption_eq_some_iff.mp loaded
  have present := Catalog.get?_eq_some_iff.mp named
  obtain ⟨exists_iff, column, _, towards, _⟩ := default_order loaded present (some .desc)
  obtain ⟨o, ordered⟩ := exists_iff.mpr (List.any_eq_true.mp sortable)
  have own := Option.isNone_iff_eq_none.mp own
  have least := column o ordered
  rw [own] at least
  exact ⟨s, r, loaded, present, own, o, ordered, towards none o ordered, least⟩

end ScimQuery
