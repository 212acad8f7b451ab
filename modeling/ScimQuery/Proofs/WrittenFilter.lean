import ScimQuery.Filter.Reader
import ScimQuery.Filter
import ScimQuery.Proofs.ReadJson

/-!
# Written filters

A filter that is written as JSON and read back loses the values that JSON has no text for and
nothing else, as long as its tree is not too high; a higher one is refused (`parse_written`).
-/

namespace ScimQuery

open Json

namespace Filter

/-- The nodes on the longest way from the root to a condition. -/
def height : Filter → Nat
  | condition _ => 1
  | logical left _ right => max left.height right.height + 1
  | valuePath _ inner => inner.height + 1
  | negation inner => inner.height + 1

/-- The values that the conditions compare with, from left to right. -/
def values : Filter → List (Option Scalar)
  | condition c => [c.value]
  | logical left _ right => left.values ++ right.values
  | valuePath _ inner => inner.values
  | negation inner => inner.values

end Filter

/-- Null and floats without a text are read back as no value. -/
def Scalar.isKept : Scalar → Bool
  | null => false
  | decimal x => x.isFinite
  | bool _ | integer _ | string _ => true

def Condition.normal (c : Condition) : Condition :=
  { c with value := c.value.filter Scalar.isKept }

namespace Filter

def normal : Filter → Filter
  | condition c => condition c.normal
  | logical left connective right => logical left.normal connective right.normal
  | valuePath path inner => valuePath path inner.normal
  | negation inner => negation inner.normal

/-- Each finite float reads back from its own text. -/
def FloatsReadBack (f : Filter) : Prop :=
  ∀ x, some (.decimal x) ∈ f.values → x.isFinite = true →
    Json.parse (Json.decimal x).compact = .ok (.decimal x)

/-- The members of a node behind its kind. -/
def fields : Filter → List (String × Json)
  | condition c =>
    [("path", c.path.toJson), ("operator", .string c.operator.name)]
      ++ Json.optional "value" Scalar.toJson c.value
  | logical left connective right =>
    [("left", left.toJson), ("operator", .string connective.name), ("right", right.toJson)]
  | valuePath path inner => [("path", path.toJson), ("filter", inner.toJson)]
  | negation inner => [("expression", inner.toJson)]

theorem toJson_eq (f : Filter) :
    f.toJson = .object ((tagName, .string f.kind.name) :: f.fields) := by
  cases f <;> rfl

theorem fields_ne_tag (f : Filter) : ∀ m ∈ f.fields, m.1 ≠ tagName := by
  cases f with
  | condition c =>
    obtain ⟨path, operator, value⟩ := c
    cases value <;> simp [fields, Json.optional, tagName]
  | logical | valuePath | negation => simp [fields, tagName]

/-! ### Paths and scalars -/

end Filter

theorem AttributePath.depth_toJson (p : AttributePath) : p.toJson.depth = 1 := by
  obtain ⟨⟨name, sub⟩, schema⟩ := p
  cases schema <;> cases sub <;> rfl

theorem AttributePath.numbers_toJson (p : AttributePath) : p.toJson.numbers = [] := by
  obtain ⟨⟨name, sub⟩, schema⟩ := p
  cases schema <;> cases sub <;> rfl

theorem AttributePath.ofJson_reread (p : AttributePath) : ofJson p.toJson.reread = .ok p := by
  obtain ⟨⟨name, sub⟩, schema⟩ := p
  cases schema <;> cases sub <;> rfl

theorem Scalar.depth_toJson (s : Scalar) : s.toJson.depth = 0 := by
  cases s <;> rfl

theorem Scalar.ofJson_integer (n : Int64) : ofJson (.integer n.toInt) = .ok (integer n) := by
  have greatest : n.toInt ≤ Int64.maxValue.toInt := Int64.toInt_le n
  rw [Json.integer, ofJson, if_pos greatest, Int64.ofInt_toInt]

theorem Scalar.asOption_reread (s : Scalar) :
    asOption ofJson s.toJson.reread = .ok ((some s).filter isKept) := by
  cases s with
  | bool | string | null => rfl
  | integer n =>
    change (ofJson (.integer n.toInt)).map some = _
    rw [ofJson_integer]
    rfl
  | decimal x =>
    change asOption ofJson (if x.isFinite = true then .decimal x else .null) = _
    cases finite : x.isFinite with
    | true => simp [Option.filter, isKept, finite]; rfl
    | false => simp [Option.filter, isKept, finite]; rfl

theorem Json.Number.readsBack_decimal {x : Float}
    (finite : x.isFinite = true → Json.parse (Json.decimal x).compact = .ok (.decimal x)) :
    (Number.decimal x).ReadsBack := by
  have text : (Json.decimal x).compact = (Number.decimal x).write := by rw [Json.decimal, compact]
  cases h : x.isFinite with
  | true =>
    have alone := finite h
    rw [text] at alone
    rw [Number.ReadsBack, alone, Number.reread, h]
    rfl
  | false =>
    have none : floatLayout.write x = none := Decimal.write_eq_none_iff.mpr h
    rw [Number.ReadsBack, Number.write, Number.reread, none, h]
    rfl

namespace Filter

theorem depth_toJson (f : Filter) : f.toJson.depth = f.height + 1 := by
  induction f with
  | condition c =>
    obtain ⟨path, operator, value⟩ := c
    cases value <;>
      simp [toJson, depth, depthMembers, height, Json.optional, AttributePath.depth_toJson,
        Scalar.depth_toJson]
  | logical left connective right ihLeft ihRight =>
    simp [toJson, depth, depthMembers, height, ihLeft, ihRight]
  | valuePath path inner ih =>
    simp [toJson, depth, depthMembers, height, AttributePath.depth_toJson, ih]
  | negation inner ih => simp [toJson, depth, depthMembers, height, ih]

theorem readsBack_toJson {f : Filter} (floats : f.FloatsReadBack) :
    ∀ n ∈ f.toJson.numbers, n.ReadsBack := by
  induction f with
  | condition c =>
    obtain ⟨path, operator, value⟩ := c
    intro n member
    cases value with
    | none =>
      simp [toJson, numbers, numbersMembers, Json.optional, AttributePath.numbers_toJson] at member
    | some s =>
      simp only [toJson, numbers, numbersMembers, Json.optional, AttributePath.numbers_toJson,
        List.cons_append, List.nil_append, List.append_nil] at member
      cases s with
      | bool | string | null => cases member
      | integer m =>
        obtain rfl := List.mem_singleton.mp member
        have least := Int64.le_toInt m
        have greatest := Int64.toInt_lt m
        exact Number.readsBack_integer least (by omega)
      | decimal x =>
        obtain rfl := List.mem_singleton.mp member
        exact Number.readsBack_decimal (floats x (List.mem_singleton.mpr rfl))
  | logical left connective right ihLeft ihRight =>
    intro n member
    simp only [toJson, numbers, numbersMembers, List.nil_append, List.append_nil,
      List.mem_append] at member
    rcases member with first | second
    · exact ihLeft (fun x given => floats x (List.mem_append_left _ given)) n first
    · exact ihRight (fun x given => floats x (List.mem_append_right _ given)) n second
  | valuePath path inner ih =>
    intro n member
    simp only [toJson, numbers, numbersMembers, AttributePath.numbers_toJson, List.nil_append,
      List.append_nil] at member
    exact ih floats n member
  | negation inner ih =>
    intro n member
    simp only [toJson, numbers, numbersMembers, List.nil_append, List.append_nil] at member
    exact ih floats n member

/-! ### Decoding -/

theorem splitTag_untagged {ms : List (String × Held)} (untagged : ∀ m ∈ ms, m.1 ≠ tagName)
    (kind : Option NodeKind) : splitTag kind ms = .ok (kind, ms) := by
  induction ms with
  | nil => rfl
  | cons m ms ih =>
    obtain ⟨first, others⟩ := List.forall_mem_cons.mp untagged
    rw [splitTag, if_neg first, ih others]
    rfl

theorem holdItems_eq_map (js : List Json) : holdItems js = js.map fun j => ⟨j, ofJson j⟩ := by
  induction js with
  | nil => rfl
  | cons j js ih => rw [holdItems, ih, List.map_cons]

theorem holdMembers_eq_map (ms : List (String × Json)) :
    holdMembers ms = ms.map fun m => (m.1, ⟨m.2, ofJson m.2⟩) := by
  induction ms with
  | nil => rfl
  | cons m ms ih => rw [holdMembers, ih, List.map_cons]

theorem decodeKind_name (kind : NodeKind) : decodeKind (.string kind.name) = .ok kind := by
  cases kind <;> rfl

theorem ofJson_tagged (kind : NodeKind) {ms : List (String × Json)}
    (untagged : ∀ m ∈ ms, m.1 ≠ tagName) :
    ofJson (.object ((tagName, .string kind.name) :: ms)) = ofMembers kind (holdMembers ms) := by
  have others : ∀ m ∈ holdMembers ms, m.1 ≠ tagName := by
    rw [holdMembers_eq_map]
    intro m member
    obtain ⟨m, inside, rfl⟩ := List.mem_map.mp member
    exact untagged m inside
  rw [ofJson, holdMembers, splitTag, if_pos rfl, decodeKind_name]
  change (splitTag (some kind) (holdMembers ms) >>= fun _ => _) = _
  rw [splitTag_untagged others]
  rfl

theorem reread_toJson (f : Filter) :
    f.toJson.reread = .object ((tagName, .string f.kind.name) :: rereadMembers f.fields) := by
  rw [toJson_eq, reread, rereadMembers]
  rfl

theorem rereadMembers_untagged (f : Filter) : ∀ m ∈ rereadMembers f.fields, m.1 ≠ tagName := by
  rw [rereadMembers_eq_map]
  intro m member
  obtain ⟨m, inside, rfl⟩ := List.mem_map.mp member
  exact f.fields_ne_tag m inside

theorem asName_operator (o : Operator) : asName Operator.names (.string o.name) = .ok o := by
  cases o <;> rfl

theorem asName_connective (c : Connective) : asName Connective.names (.string c.name) = .ok c := by
  cases c <;> rfl

theorem ofJson_reread (f : Filter) : ofJson f.toJson.reread = .ok f.normal := by
  induction f with
  | condition c =>
    obtain ⟨path, operator, value⟩ := c
    rw [reread_toJson, ofJson_tagged _ (rereadMembers_untagged _)]
    cases value with
    | none =>
      simp only [fields, Json.optional, List.append_nil, rereadMembers, holdMembers, kind,
        ofMembers, List.foldlM_cons, List.foldlM_nil, conditionField, fresh,
        AttributePath.ofJson_reread, reread, asName_operator]
      rfl
    | some s =>
      simp only [fields, Json.optional, List.cons_append, List.nil_append, rereadMembers,
        holdMembers, kind, ofMembers, List.foldlM_cons, List.foldlM_nil, conditionField, fresh,
        AttributePath.ofJson_reread, reread, asName_operator, Scalar.asOption_reread]
      rfl
  | logical left connective right ihLeft ihRight =>
    rw [reread_toJson, ofJson_tagged _ (rereadMembers_untagged _)]
    simp only [fields, rereadMembers, holdMembers, kind, ofMembers, List.foldlM_cons,
      List.foldlM_nil, logicalField, ihLeft, ihRight, reread, asName_connective]
    rfl
  | valuePath path inner ih =>
    rw [reread_toJson, ofJson_tagged _ (rereadMembers_untagged _)]
    simp only [fields, rereadMembers, holdMembers, kind, ofMembers, List.foldlM_cons,
      List.foldlM_nil, valuePathField, ih, AttributePath.ofJson_reread]
    rfl
  | negation inner ih =>
    rw [reread_toJson, ofJson_tagged _ (rereadMembers_untagged _)]
    simp only [fields, rereadMembers, holdMembers, kind, ofMembers, List.foldlM_cons,
      List.foldlM_nil, negationField, ih]
    rfl

/-! ### The outermost node -/

/-- What a member does to a node that is being read. -/
def openMember (d : Nat) (o : Opening) (m : String × Json) : Except ReadError Opening :=
  if m.1 = tagName then do
    fresh tagName o.kind
    return { o with kind := some (← decodeKind m.2) }
  else (rereadMember d o.members m).map fun ms => { o with members := ms }

theorem readMember_written {m : String × Json} (named : m.1 = tagName → ∃ s, m.2 = .string s)
    (reads : ∀ n ∈ m.2.numbers, n.ReadsBack) (d : Nat) (o : Opening) {rest : List Char}
    (ends : NumberEnds rest) :
    readMember d m.1 o (':' :: (m.2.compact.toList ++ rest)) =
      (openMember d o m).map fun o => (o, rest) := by
  unfold readMember openMember
  by_cases tag : m.1 = tagName
  · obtain ⟨s, text⟩ := named tag
    have decoded : decodeKind (.string s) = knownName NodeKind.names s := rfl
    rw [if_pos tag, if_pos tag, text, tag, field_colon, readWord_written, decoded]
    cases fresh tagName o.kind with
    | error e => rfl
    | ok =>
      cases knownName NodeKind.names s <;> rfl
  · rw [if_neg tag, if_neg tag]
    change (value d (m.2.compact.toList ++ rest) >>= fun read =>
      pure ({ o with members := (m.1, read.1) :: o.members }, read.2)) = _
    rw [value_compact m.2 reads d ends, rereadMember]
    cases m.2.rereadWithin d <;> rfl

theorem foldlM_openMember (d : Nat) {ms : List (String × Json)}
    (untagged : ∀ m ∈ ms, m.1 ≠ tagName) (o : Opening) :
    ms.foldlM (openMember d) o =
      (ms.foldlM (rereadMember d) o.members).map fun ms => { o with members := ms } := by
  induction ms generalizing o with
  | nil => rfl
  | cons m ms ih =>
    obtain ⟨first, others⟩ := List.forall_mem_cons.mp untagged
    rw [List.foldlM_cons, List.foldlM_cons, openMember, if_neg first]
    cases rereadMember d o.members m with
    | error e => rfl
    | ok taken => exact ih others { o with members := taken }

theorem depth_fields_le_iff (f : Filter) (d : Nat) :
    (∀ m ∈ f.fields, m.2.depth ≤ d) ↔ f.height ≤ d := by
  have deep := f.depth_toJson
  rw [toJson_eq, depth, depthMembers, depth, Nat.zero_max, Nat.succ_inj] at deep
  rw [← depthMembers_le_iff, deep]

theorem readMember_node {f : Filter} (floats : f.FloatsReadBack) (d : Nat) :
    ∀ m ∈ (tagName, Json.string f.kind.name) :: f.fields, ∀ o rest, NumberEnds rest →
      readMember d m.1 o (':' :: (m.2.compact.toList ++ rest)) =
        (openMember d o m).map fun o => (o, rest) := by
  intro m member o rest ends
  refine readMember_written (fun tag => ?_) (fun n inside => ?_) d o ends
  · rcases List.mem_cons.mp member with rfl | later
    · exact ⟨_, rfl⟩
    · exact absurd tag (f.fields_ne_tag m later)
  · refine readsBack_toJson floats n ?_
    rw [toJson_eq]
    exact mem_numbersMembers.mpr ⟨m, member, inside⟩

theorem read_written {f : Filter} (floats : f.FloatsReadBack) (d : Nat) (rest : List Char) :
    Filter.read (d + 1) (f.toJson.compact.toList ++ rest) =
      if f.height ≤ d then .ok (f.normal, rest) else malformed .tooDeep := by
  rw [toJson_eq, toList_compact_object]
  change (Json.members (readMember d) {} _ >>= fun o => required tagName o.1.kind >>= fun kind =>
    ofMembers kind (holdMembers o.1.members.reverse) >>= fun f => pure (f, o.2)) = _
  rw [members_written (readMember_node floats d), List.foldlM_cons]
  -- The kind stands first, so it is known before any other member is decoded.
  have opened : openMember d {} (tagName, .string f.kind.name) = .ok { kind := some f.kind } := by
    rw [openMember, if_pos rfl, decodeKind_name]
    rfl
  have decoded : ofMembers f.kind (holdMembers (rereadMembers f.fields)) = .ok f.normal := by
    rw [← ofJson_tagged _ f.rereadMembers_untagged, ← reread_toJson]
    exact f.ofJson_reread
  rw [opened]
  change ((f.fields.foldlM (openMember d) { kind := some f.kind }).map fun o =>
    (o, rest)) >>= _ = _
  rw [foldlM_openMember d f.fields_ne_tag, foldlM_rereadMember, List.append_nil]
  simp only [depth_fields_le_iff]
  split
  · change (ofMembers f.kind (holdMembers (f.fields.map _).reverse.reverse) >>= fun f =>
      pure (f, rest)) = _
    rw [List.reverse_reverse, ← rereadMembers_eq_map, decoded]
    rfl
  · rfl

theorem parse_written {f : Filter} (floats : f.FloatsReadBack) :
    Filter.parse f.toJson.compact =
      if f.height ≤ 126 then .ok (some f.normal) else malformed .tooDeep := by
  have read : readOption (Filter.read depthLimit) f.toJson.compact.toList =
      if f.height ≤ 126 then .ok (some f.normal, []) else malformed .tooDeep := by
    have inner := read_written floats 126 []
    rw [toJson_eq, toList_compact_object] at inner
    have text := toList_compact_object ((tagName, .string f.kind.name) :: f.fields) []
    rw [List.append_nil] at text
    rw [toJson_eq, text]
    change (Filter.read (126 + 1) _ >>= fun f => pure (some f.1, f.2)) = _
    rw [inner]
    split <;> rfl
  rw [Filter.parse, readAll, read]
  split <;> rfl

end Filter

end ScimQuery
