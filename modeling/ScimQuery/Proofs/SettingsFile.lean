import ScimQuery.Proofs.JsonText
import ScimQuery.Proofs.Lookup
import ScimQuery.Proofs.ReadJson
import ScimQuery.Settings

/-!
# Settings files

A layer of settings written as a file. What is read from a file notes each unknown name once and
never notes a known one (`Layer.tidy_of_parse`), and a layer of this kind is read back from the file
it is written as (`Layer.parse_file`).
-/

namespace ScimQuery

namespace Json

/-! ### Values of one type -/

/-- The reader takes the value off the front of a text and leaves what stands behind it. -/
def Restores (read : Reader α) (j : Json) (a : α) : Prop :=
  ∀ rest, NumberEnds rest → read (j.compact.toList ++ rest) = .ok (a, rest)

theorem Restores.map {read : Reader α} {j : Json} {a : α} (h : Restores read j a) (f : α → β) :
    Restores (fun text => do
      let (a, rest) ← read text
      return (f a, rest)) j (f a) := by
  intro rest ends
  change (read (j.compact.toList ++ rest) >>= fun r => pure (f r.1, r.2)) = _
  rw [h rest ends]
  rfl

theorem restores_string (s : String) : Restores readString (.string s) s := by
  intro rest _
  rw [compact, toList_writeText, nameText, List.cons_append, List.append_assoc]
  change lift (scanString _) = _
  rw [List.singleton_append, scanString_written]
  rfl

theorem restores_bool (b : Bool) : Restores readBool (.bool b) b := by
  intro rest _
  rw [compact]
  cases b with
  | true =>
    change (lift (scanWord "rue".toList ("rue".toList ++ rest)) >>= fun rest =>
      pure (true, rest)) = _
    rw [scanWord_append]
    rfl
  | false =>
    change (lift (scanWord "alse".toList ("alse".toList ++ rest)) >>= fun rest =>
      pure (false, rest)) = _
    rw [scanWord_append]
    rfl

theorem restores_uint64 (n : UInt64) : Restores readUInt64 (.integer n.toNat) n := by
  intro rest ends
  have written : (Json.integer n.toNat).compact.toList = Nat.toDigits 10 n.toNat := by
    rw [Json.integer, compact]
    exact toList_toString_nat n.toNat
  rw [written]
  exact readUInt64_written n .nil ends

theorem restores_name {names : List (String × α)} {name : String} {a : α}
    (known : names.lookup name = some a) (d : Nat) :
    Restores (readName names d) (.string name) a := by
  intro rest _
  have word := readWord_written names name rest
  rw [knownName, known] at word
  rw [compact, toList_writeText, nameText] at word ⊢
  exact word

theorem restores_option {read : Reader α} {j : Json} {a : α} (h : Restores read j a)
    (present : j.compact.toList.head? ≠ some 'n') : Restores (readOption read) j (some a) := by
  intro rest ends
  have value := h rest ends
  obtain ⟨c, cs, text, solid, _⟩ := (itemText_compact j).eq_cons
  rw [text] at present value ⊢
  rw [List.cons_append] at value ⊢
  rw [readOption, skipSpace_cons solid]
  split
  · next same =>
    obtain rfl := (List.cons.inj same).1
    exact absurd rfl present
  · rw [value]
    rfl

theorem head_string (s : String) : (Json.string s).compact.toList.head? ≠ some 'n' := by
  rw [compact, toList_writeText, nameText, List.head?_cons]
  decide

theorem head_natural (n : Nat) : (Json.integer n).compact.toList.head? ≠ some 'n' := by
  obtain ⟨c, cs, digits, digit⟩ := digitText_eq_cons n
  have written : (Json.integer n).compact.toList = c :: cs := by
    rw [Json.integer, compact]
    exact (toList_toString_nat n).trans digits
  rw [written, List.head?_cons]
  rintro ⟨rfl⟩
  cases digit

/-! ### Members -/

/-- How a value is taken in under its name. -/
def takeEach (read : Reader α) (name : String) (ms : List (String × α)) :
    Reader (List (String × α)) := fun text => do
  let (a, rest) ← read (← colon text)
  return ((name, a) :: ms, rest)

theorem readMembers_object (read : Nat → Reader α) (d : Nat) (text : List Char) :
    readMembers read (d + 1) ('\x7b' :: text) =
      (members (takeEach (read d)) [] text).map fun ms => (ms.1.reverse, ms.2) := by
  change (members (takeEach (read d)) [] text >>= fun ms => pure (ms.1.reverse, ms.2)) = _
  cases members (takeEach (read d)) [] text <;> rfl

theorem foldlM_front (es ms : List α) :
    es.foldlM (fun ms e => (.ok (e :: ms) : Except ε (List α))) ms = .ok (es.reverse ++ ms) := by
  have folded := @List.foldlM_pure (Except ε) _ _ _ _ (fun ms e => e :: ms) ms es
  rw [List.foldl_flip_cons_eq_append, List.map_id'] at folded
  exact folded

theorem restores_members {read : Nat → Reader α} {write : α → Json} {d : Nat}
    {es : List (String × α)} (each : ∀ e ∈ es, Restores (read d) (write e.2) e.2) :
    Restores (readMembers read (d + 1)) (.object (es.map fun e => (e.1, write e.2))) es := by
  intro rest _
  have inner : members (takeEach (read d)) []
      ((",".intercalate (compactMembers (es.map fun e => (e.1, write e.2)))).toList
        ++ '\x7d' :: rest) =
      (es.foldlM (fun ms e => (.ok (e :: ms) : Except ReadError (List _))) []).map
        fun ms => (ms, rest) := by
    apply members_writtenAs
    intro e member ms rest ends
    change (read d ((write e.2).compact.toList ++ rest) >>= fun a =>
      pure ((e.1, a.1) :: ms, a.2)) = _
    rw [each e member rest ends]
    rfl
  rw [toList_compact_object, readMembers_object, inner, foldlM_front, List.append_nil]
  change Except.ok (es.reverse.reverse, rest) = _
  rw [List.reverse_reverse]

/-! ### Records -/

/-- A member of a record: how it is written, and what it makes of the members in front of it. -/
structure Member (δ : Type) where
  name : String
  value : Json
  take : δ → Except ReadError δ

namespace Member

def form (m : Member δ) : String × Json := (m.name, m.value)

/-- A field, which may be named once. -/
def field (name : String) (value : Json) (slot : δ → Option α) (fill : δ → α → δ) (a : α) :
    Member δ :=
  ⟨name, value, fun d => (fresh name (slot d)).map fun _ => fill d a⟩

/-- What a reader of members makes of this one. -/
def ReadBy (m : Member δ) (member : String → δ → Reader δ) : Prop :=
  ∀ d rest, NumberEnds rest →
    member m.name d (':' :: (m.value.compact.toList ++ rest)) = (m.take d).map fun d => (d, rest)

theorem readBy_field {read : Reader α} {j : Json} {a : α} (h : Restores read j a) {name : String}
    {slot : δ → Option α} {fill : δ → α → δ} {member : String → δ → Reader δ}
    (reader : ∀ d text, member name d text =
      (Json.field name (slot d) read text >>= fun r => pure (fill d r.1, r.2))) :
    (field name j slot fill a).ReadBy member := by
  intro d rest ends
  change member name d (':' :: (j.compact.toList ++ rest)) =
    ((fresh name (slot d)).map fun _ => fill d a).map fun d => (d, rest)
  rw [reader, field_colon, h rest ends]
  cases fresh name (slot d) <;> rfl

/-- A record is read when its members are. -/
theorem members_written {ms : List (Member δ)} {member : String → δ → Reader δ}
    (each : ∀ m ∈ ms, m.ReadBy member) (d : δ) (rest : List Char) :
    members member d ((",".intercalate (compactMembers (ms.map form))).toList ++ '\x7d' :: rest) =
      (ms.foldlM (fun d (m : Member δ) => m.take d) d).map fun d => (d, rest) :=
  members_writtenAs form (fun m present => each m present) d rest

end Member

end Json

open Json

/-! ### Columns -/

namespace Column

def members (c : Column) : List (Member Draft) :=
  [.field "column" (.string c.column) Draft.column (fun d s => { d with column := some s })
      c.column,
    .field "type" (.string c.type.name) Draft.type (fun d t => { d with type := some t }) c.type,
    .field "sortable" (.bool c.sortable) Draft.sortable (fun d b => { d with sortable := some b })
      c.sortable]

theorem toJson_eq (c : Column) : c.toJson = .object (c.members.map Member.form) := rfl

theorem restores_type (t : ColumnType) (d : Nat) :
    Restores (ColumnType.read d) (.string t.name) t := by
  apply restores_name
  cases t <;> decide

theorem readBy_members (c : Column) (d : Nat) : ∀ m ∈ c.members, m.ReadBy (readField d) := by
  intro m member
  simp only [members, List.mem_cons, List.not_mem_nil, or_false] at member
  rcases member with rfl | rfl | rfl
  · exact Member.readBy_field (restores_string c.column) fun _ _ => rfl
  · exact Member.readBy_field (restores_type c.type d) fun _ _ => rfl
  · exact Member.readBy_field (restores_bool c.sortable) fun _ _ => rfl

theorem restores (c : Column) (d : Nat) : Restores (read (d + 1)) c.toJson c := by
  intro rest _
  rw [toJson_eq, toList_compact_object]
  change (Json.members (readField d) {} _ >>= fun r => r.1.finish >>= fun c => pure (c, r.2)) = _
  rw [Member.members_written (c.readBy_members d)]
  rfl

end Column

/-! ### Sections -/

namespace Section

def toJson (s : Section) : Json :=
  .object ([("mappings", .object (s.mappings.entries.map fun m => (m.1, m.2.toJson)))]
    ++ Json.optional "order_by" .string s.orderBy
    ++ Json.optional "order_direction" (fun d => .string d.name) s.direction
    ++ Json.optional "count" (fun n => .integer n.toNat) s.count)

def members (s : Section) : List (Member Draft) :=
  let mappings := Member.field "mappings"
    (.object (s.mappings.entries.map fun m => (m.1, m.2.toJson))) Draft.mappings
    (fun d ms => { d with mappings := some ms }) s.mappings
  let orderBy := s.orderBy.map fun text => Member.field "order_by" (.string text) Draft.orderBy
    (fun d text => { d with orderBy := some text }) (some text)
  let direction := s.direction.map fun o => Member.field "order_direction" (.string o.name)
    Draft.direction (fun d o => { d with direction := some o }) (some o)
  let count := s.count.map fun n => Member.field "count" (.integer n.toNat) Draft.count
    (fun d n => { d with count := some n }) (some n)
  [mappings] ++ orderBy.toList ++ direction.toList ++ count.toList

theorem toJson_eq (s : Section) : s.toJson = .object (s.members.map Member.form) := by
  obtain ⟨_, orderBy, direction, count⟩ := s
  cases orderBy <;> cases direction <;> cases count <;> rfl

theorem restores_mappings (ms : Dictionary String Column) (d : Nat) :
    Restores (readMappings (d + 2)) (.object (ms.entries.map fun m => (m.1, m.2.toJson))) ms := by
  have columns : ∀ m ∈ ms.entries, Restores (Column.read (d + 1)) m.2.toJson m.2 :=
    fun m _ => m.2.restores d
  have entries := (restores_members columns).map Dictionary.ofList
  rw [Dictionary.ofList_entries] at entries
  exact entries

theorem restores_direction (o : Direction) (d : Nat) :
    Restores (Direction.read d) (.string o.name) o := by
  apply restores_name
  cases o <;> decide

theorem readBy_members (s : Section) (d : Nat) :
    ∀ m ∈ s.members, m.ReadBy (readField (d + 2)) := by
  intro m member
  simp only [members, List.mem_append, List.mem_singleton, Option.mem_toList,
    Option.map_eq_some_iff] at member
  rcases member with ((rfl | ⟨text, _, rfl⟩) | ⟨o, _, rfl⟩) | ⟨n, _, rfl⟩
  · exact Member.readBy_field (restores_mappings s.mappings d) fun _ _ => rfl
  · exact Member.readBy_field (restores_option (restores_string text) (head_string text))
      fun _ _ => rfl
  · exact Member.readBy_field (restores_option (restores_direction o _) (head_string o.name))
      fun _ _ => rfl
  · exact Member.readBy_field (restores_option (restores_uint64 n) (head_natural n.toNat))
      fun _ _ => rfl

theorem restores (s : Section) (d : Nat) : Restores (read (d + 3)) s.toJson s := by
  intro rest _
  rw [toJson_eq, toList_compact_object]
  change (Json.members (readField (d + 2)) {} _ >>= fun r => pure (r.1.finish, r.2)) = _
  rw [Member.members_written (s.readBy_members d)]
  obtain ⟨_, orderBy, direction, count⟩ := s
  cases orderBy <;> cases direction <;> cases count <;> rfl

end Section

/-! ### Layers -/

namespace Layer

/-- Unknown names are noted once, and known ones never. -/
structure Tidy (layer : Layer) : Prop where
  once : layer.unknown.Nodup
  foreign : ∀ name ∈ layer.unknown, name ≠ "default_count" ∧ name ≠ "resources"

def toJson (layer : Layer) : Json :=
  .object (Json.optional "default_count" (fun n => .integer n.toNat) layer.defaultCount
    ++ [("resources", .object (layer.sections.entries.map fun e => (e.1, e.2.toJson)))]
    ++ layer.unknown.map fun name => (name, .null))

/-- The text of a settings file. -/
def file (layer : Layer) : String := layer.toJson.compact

def known (layer : Layer) : List (Member Draft) :=
  let defaultCount := layer.defaultCount.map fun n => Member.field "default_count"
    (.integer n.toNat) Draft.defaultCount (fun d n => { d with defaultCount := some n }) (some n)
  let sections := Member.field "resources"
    (.object (layer.sections.entries.map fun e => (e.1, e.2.toJson))) Draft.sections
    (fun d ss => { d with sections := some ss }) layer.sections
  defaultCount.toList ++ [sections]

def foreign (name : String) : Member Draft :=
  ⟨name, .null, fun d => .ok { d with unknown := note d.unknown name }⟩

theorem toJson_eq (layer : Layer) :
    layer.toJson = .object ((layer.known ++ layer.unknown.map foreign).map Member.form) := by
  obtain ⟨defaultCount, sections, unknown⟩ := layer
  rw [List.map_append, List.map_map]
  cases defaultCount <;> rfl

theorem restores_sections (ss : Catalog Section) (d : Nat) :
    Restores (readSections (d + 4)) (.object (ss.entries.map fun e => (e.1, e.2.toJson))) ss := by
  have each : ∀ e ∈ ss.entries, Restores (Section.read (d + 3)) e.2.toJson e.2 :=
    fun e _ => e.2.restores d
  have entries := (restores_members each).map Catalog.ofList
  rw [Catalog.ofList_entries] at entries
  exact entries

theorem readBy_known (layer : Layer) (d : Nat) :
    ∀ m ∈ layer.known, m.ReadBy (readMember (d + 4)) := by
  intro m member
  simp only [known, List.mem_append, List.mem_singleton, Option.mem_toList, Option.map_eq_some_iff]
    at member
  rcases member with ⟨n, _, rfl⟩ | rfl
  · exact Member.readBy_field (restores_option (restores_uint64 n) (head_natural n.toNat))
      fun _ _ => rfl
  · exact Member.readBy_field (restores_sections layer.sections d) fun _ _ => rfl

theorem readBy_foreign {name : String} (count : name ≠ "default_count")
    (resources : name ≠ "resources") (d : Nat) : (foreign name).ReadBy (readMember d) := by
  intro draft rest _
  change readMember d name draft (':' :: ("null".toList ++ rest)) = _
  unfold readMember
  split
  · exact absurd rfl count
  · exact absurd rfl resources
  · change (value d ("null".toList ++ rest) >>= fun r =>
      pure ({ draft with unknown := note draft.unknown name }, r.2)) = _
    rw [value_null]
    rfl

theorem note_of_fresh {names : List String} {name : String} (fresh : name ∉ names) :
    note names name = names ++ [name] := if_neg fresh

theorem foldl_note {names more : List String} (distinct : (names ++ more).Nodup) :
    more.foldl note names = names ++ more := by
  induction more generalizing names with
  | nil => rw [List.append_nil]; rfl
  | cons name more ih =>
    have fresh : name ∉ names := by
      intro early
      exact (List.nodup_append.mp distinct).2.2 name early name List.mem_cons_self rfl
    rw [List.append_cons] at distinct ⊢
    rw [List.foldl_cons, note_of_fresh fresh, ih distinct]

theorem foldlM_foreign (names : List String) (d : Draft) :
    (names.map foreign).foldlM (fun d (m : Member Draft) => m.take d) d =
      .ok { d with unknown := names.foldl note d.unknown } := by
  induction names generalizing d with
  | nil => rfl
  | cons name names ih =>
    rw [List.map_cons, List.foldlM_cons]
    exact ih { d with unknown := note d.unknown name }

theorem foldlM_members {layer : Layer} (tidy : layer.Tidy) :
    (layer.known ++ layer.unknown.map foreign).foldlM (fun d (m : Member Draft) => m.take d) {} =
      .ok ⟨layer.defaultCount.map some, some layer.sections, layer.unknown⟩ := by
  have noted : layer.unknown.foldl note [] = layer.unknown := foldl_note tidy.once
  rw [List.foldlM_append, known]
  cases layer.defaultCount with
  | none =>
    refine (foldlM_foreign _ _).trans ?_
    rw [noted]
    rfl
  | some n =>
    refine (foldlM_foreign _ _).trans ?_
    rw [noted]
    rfl

theorem restores {layer : Layer} (tidy : layer.Tidy) (d : Nat) :
    Restores (read (d + 5)) layer.toJson layer := by
  intro rest _
  have each : ∀ m ∈ layer.known ++ layer.unknown.map foreign, m.ReadBy (readMember (d + 4)) := by
    intro m member
    rcases List.mem_append.mp member with given | other
    · exact layer.readBy_known d m given
    · obtain ⟨name, noted, rfl⟩ := List.mem_map.mp other
      obtain ⟨count, resources⟩ := tidy.foreign name noted
      exact readBy_foreign count resources (d + 4)
  rw [toJson_eq, toList_compact_object]
  change (Json.members (readMember (d + 4)) {} _ >>= fun r => pure (r.1.finish, r.2)) = _
  rw [Member.members_written each, foldlM_members tidy]
  cases layer with
  | mk defaultCount sections unknown => cases defaultCount <;> rfl

/-- A layer is read back from its file. -/
theorem parse_file {layer : Layer} (tidy : layer.Tidy) : parse layer.file = .ok layer := by
  have whole := restores tidy 122 [] .nil
  rw [List.append_nil] at whole
  exact readAll_ok_iff.mpr ⟨[], whole, .nil⟩

/-! ### Layers that are read -/

theorem mem_note {names : List String} {name other : String} :
    other ∈ note names name ↔ other ∈ names ∨ other = name := by
  unfold note
  split
  · next noted =>
    constructor
    · exact Or.inl
    · rintro (early | rfl)
      · exact early
      · exact noted
  · rw [List.mem_append, List.mem_singleton]

theorem nodup_note {names : List String} (once : names.Nodup) (name : String) :
    (note names name).Nodup := by
  unfold note
  split
  · exact once
  · next fresh =>
    refine List.nodup_append.mpr ⟨once, List.nodup_singleton name, fun early member last late => ?_⟩
    rintro rfl
    exact fresh (List.mem_singleton.mp late ▸ member)

theorem tidy_readMember {depth : Nat} {name : String} {d d' : Draft} {text rest : List Char}
    (tidy : d.finish.Tidy) (taken : readMember depth name d text = .ok (d', rest)) :
    d'.finish.Tidy := by
  unfold readMember at taken
  split at taken
  · obtain ⟨_, _, same⟩ := bind_ok_iff.mp taken
    obtain ⟨rfl, _⟩ := Prod.mk.inj (pure_ok_iff.mp same)
    exact ⟨tidy.once, tidy.foreign⟩
  · obtain ⟨_, _, same⟩ := bind_ok_iff.mp taken
    obtain ⟨rfl, _⟩ := Prod.mk.inj (pure_ok_iff.mp same)
    exact ⟨tidy.once, tidy.foreign⟩
  · next count resources =>
    obtain ⟨_, _, taken⟩ := bind_ok_iff.mp taken
    obtain ⟨_, _, same⟩ := bind_ok_iff.mp taken
    obtain ⟨rfl, _⟩ := Prod.mk.inj (pure_ok_iff.mp same)
    refine ⟨nodup_note tidy.once name, fun other noted => ?_⟩
    rcases mem_note.mp noted with early | rfl
    · exact tidy.foreign other early
    · exact ⟨count, resources⟩

/-- What is read from a file is tidy. -/
theorem tidy_of_parse {text : String} {layer : Layer} (parsed : parse text = .ok layer) :
    layer.Tidy := by
  obtain ⟨rest, taken, _⟩ := readAll_ok_iff.mp parsed
  unfold read at taken
  split at taken
  · cases taken
  · obtain ⟨⟨d, _⟩, members, same⟩ := bind_ok_iff.mp taken
    obtain ⟨rfl, _⟩ := Prod.mk.inj (pure_ok_iff.mp same)
    refine @membersFrom_invariant _ (fun d : Draft => d.finish.Tidy) _ tidy_readMember _ _ _ _ _ _
      ?_ members
    exact ⟨.nil, nofun⟩
  · exact absurd taken unexpected_ne_ok

end Layer

end ScimQuery
