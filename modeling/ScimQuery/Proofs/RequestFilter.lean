import ScimQuery.ListRequest
import ScimQuery.Proofs.Compilation
import ScimQuery.Proofs.FilterText
import ScimQuery.Proofs.JsonLayout
import ScimQuery.Proofs.Meaning

/-!
# Filters in requests

A filter reads the same as a text of its own and as a member of a list request, one level deeper.
So a request is compiled as its filter, its order and its page are (`request_same_path`).
-/

namespace ScimQuery

open Json

/-! ### Requests -/

/-- A member of a list request: its filter as any text, or a number of its page. -/
inductive RequestField where
  | filter (text : String)
  | startIndex (n : UInt64)
  | count (n : UInt64)

namespace RequestField

def name : RequestField → String
  | filter _ => "filter"
  | startIndex _ => "startIndex"
  | count _ => "count"

def text : RequestField → String
  | filter text => "\"filter\":" ++ text
  | startIndex n => "\"startIndex\":" ++ toString n.toNat
  | count n => "\"count\":" ++ toString n.toNat

def filter? : RequestField → Option String
  | filter text => some text
  | _ => none

def startIndex? : RequestField → Option UInt64
  | startIndex n => some n
  | _ => none

def count? : RequestField → Option UInt64
  | count n => some n
  | _ => none

end RequestField

/-- The text of a request with some of its members, in any order. -/
def requestText (fields : List RequestField) : String :=
  "\x7b" ++ ",".intercalate (fields.map RequestField.text) ++ "\x7d"

/-- The filter text of a request; no filter is null. -/
def requestFilter (fields : List RequestField) : String :=
  (fields.findSome? RequestField.filter?).getD "null"

def requestPage (fields : List RequestField) : Page where
  startIndex := (fields.findSome? RequestField.startIndex?).getD 0
  count := (fields.findSome? RequestField.count?).getD 0

namespace RequestField

/-- The value of a member, given the filter text with its blanks apart. -/
def pad (filter : String → Padded) : RequestField → Padded
  | .filter text => filter text
  | .startIndex n | .count n => .bare (Nat.toDigits 10 n.toNat)

theorem text_pad {filter : String → Padded} {f : RequestField}
    (same : ∀ text, f = .filter text → (filter text).text = text.toList) :
    (Named.written f.name (f.pad filter)).text = f.text.toList := by
  rw [Named.text_written]
  cases f with
  | filter text =>
    have head : "\"filter\":".toList = nameText "filter" ++ [':'] := by decide
    rw [pad, same text rfl, RequestField.text, String.toList_append, head, List.append_assoc]
    rfl
  | startIndex n =>
    have head : "\"startIndex\":".toList = nameText "startIndex" ++ [':'] := by decide
    rw [pad, Padded.text_bare, RequestField.text, String.toList_append, head, List.append_assoc,
      toList_toString_nat]
    rfl
  | count n =>
    have head : "\"count\":".toList = nameText "count" ++ [':'] := by decide
    rw [pad, Padded.text_bare, RequestField.text, String.toList_append, head, List.append_assoc,
      toList_toString_nat]
    rfl

/-- Takes in a member, given what filter texts read as. -/
def step (read : String → Except ReadError (Option Filter)) (d : ListRequest.Draft) :
    RequestField → Except ReadError ListRequest.Draft
  | .filter text =>
    (fresh "filter" d.filter).bind fun _ => (read text).map fun f => { d with filter := some f }
  | .startIndex n =>
    (fresh "startIndex" d.startIndex).map fun _ => { d with startIndex := some n }
  | .count n => (fresh "count" d.count).map fun _ => { d with count := some n }

end RequestField

/-- What a filter text reads as, inside a request or not. -/
def readAlone (text : String) : Except ReadError (Option Filter) :=
  outcome (readOption (Filter.read 126)) text.toList

theorem readOption_padded {p : Padded} (h : ValueText 126 p.core) {d : Nat} (deep : 126 ≤ d)
    {rest : List Char} (ends : NumberEnds rest) :
    readOption (Filter.read d) (p.before ++ (p.core ++ rest)) =
      (readAlone (String.ofList p.text)).map fun f => (f, rest) := by
  have settled : ∀ d, 126 ≤ d → ∀ rest, NumberEnds rest →
      readOption (Filter.read d) (p.core ++ rest) =
        (outcome (readOption (Filter.read 126)) p.core).map fun f => (f, rest) :=
    settled_readOption h (Filter.settled_read h)
  have alone : readAlone (String.ofList p.text) = outcome (readOption (Filter.read 126)) p.core := by
    have read := settled 126 (Nat.le_refl 126) p.behind p.numberEnds_behind
    rw [readAlone, String.toList_ofList, Padded.text, outcome, readOption_blanks p.blankBefore, read]
    cases outcome (readOption (Filter.read 126)) p.core <;> rfl
  rw [readOption_blanks p.blankBefore, settled d deep rest ends, alone]

theorem ListRequest.read_object (d : Nat) (text : List Char) :
    ListRequest.read (d + 1) ('\x7b' :: text) =
      (members (readField d) {} text).bind fun (d, rest) => .ok (d.finish, rest) := by
  rfl

theorem ListRequest.readField_padded {filter : String → Padded} {f : RequestField}
    (valid : ∀ text, f = .filter text →
      (filter text).text = text.toList ∧ ValueText 126 (filter text).core)
    (d : Draft) {rest : List Char} (ends : NumberEnds rest) :
    readField 126 f.name d (':' :: ((f.pad filter).before ++ ((f.pad filter).core ++ rest))) =
      (f.step readAlone d).map fun d => (d, rest) := by
  cases f with
  | filter text =>
    obtain ⟨same, spelled⟩ := valid text rfl
    have read := readOption_padded spelled (Nat.le_refl 126) ends
    rw [same, String.ofList_toList] at read
    change (field "filter" d.filter (readOption (Filter.read 126)) (':' :: ((filter text).before ++
      ((filter text).core ++ rest))) >>= fun f =>
        pure ({ d with filter := some f.1 }, f.2)) = _
    rw [field_colon, RequestField.step]
    cases fresh "filter" d.filter with
    | error e => rfl
    | ok =>
      simp only [Except.bind, read]
      cases readAlone text <;> rfl
  | startIndex n =>
    have read := readUInt64_written n .nil ends
    change (field "startIndex" d.startIndex readUInt64 (':' :: ([] ++ (Nat.toDigits 10 n.toNat ++
      rest))) >>= fun n => pure ({ d with startIndex := some n.1 }, n.2)) = _
    rw [field_colon, RequestField.step]
    cases fresh "startIndex" d.startIndex with
    | error e => rfl
    | ok =>
      simp only [Except.bind, read]
      rfl
  | count n =>
    have read := readUInt64_written n .nil ends
    change (field "count" d.count readUInt64 (':' :: ([] ++ (Nat.toDigits 10 n.toNat ++
      rest))) >>= fun n => pure ({ d with count := some n.1 }, n.2)) = _
    rw [field_colon, RequestField.step]
    cases fresh "count" d.count with
    | error e => rfl
    | ok =>
      simp only [Except.bind, read]
      rfl

/-! ### All members of a request -/

section Draft

variable (read : String → Except ReadError (Option Filter))

/-- What the filter of some members reads as, if one of them is a filter. -/
def readAmong (fields : List RequestField) : Except ReadError (Option (Option Filter)) :=
  match fields.findSome? RequestField.filter? with
  | some text => (read text).map some
  | none => .ok none

/-- The slot of a member has not been filled. -/
def ListRequest.Draft.Open (d : ListRequest.Draft) : RequestField → Prop
  | .filter _ => d.filter = none
  | .startIndex _ => d.startIndex = none
  | .count _ => d.count = none

variable {read}

/-- A member fills its own slot and no other. -/
theorem open_step {d d' : ListRequest.Draft} {f g : RequestField} (other : g.name ≠ f.name)
    (slot : d.Open g) (taken : f.step read d = .ok d') : d'.Open g := by
  cases f with
  | filter text =>
    obtain ⟨_, _, taken⟩ := except_bind_ok_iff.mp taken
    obtain ⟨_, _, rfl⟩ := except_map_ok_iff.mp taken
    cases g with
    | filter => exact (other rfl).elim
    | startIndex | count => exact slot
  | startIndex n =>
    obtain ⟨_, _, rfl⟩ := except_map_ok_iff.mp taken
    cases g with
    | startIndex => exact (other rfl).elim
    | filter | count => exact slot
  | count n =>
    obtain ⟨_, _, rfl⟩ := except_map_ok_iff.mp taken
    cases g with
    | count => exact (other rfl).elim
    | filter | startIndex => exact slot

theorem readAmong_of_unnamed {fields : List RequestField}
    (unnamed : "filter" ∉ fields.map RequestField.name) : readAmong read fields = .ok none := by
  have absent : fields.findSome? RequestField.filter? = none := by
    rw [List.findSome?_eq_none_iff]
    intro g member
    cases g with
    | filter => exact (unnamed (List.mem_map.mpr ⟨_, member, rfl⟩)).elim
    | startIndex | count => rfl
  rw [readAmong, absent]

theorem foldlM_step {fields : List RequestField} (distinct : (fields.map RequestField.name).Nodup)
    {d : ListRequest.Draft} (slots : ∀ f ∈ fields, d.Open f) :
    fields.foldlM (RequestField.step read) d =
      (readAmong read fields).map fun filter =>
        { filter := d.filter.or filter
          startIndex := d.startIndex.or (fields.findSome? RequestField.startIndex?)
          count := d.count.or (fields.findSome? RequestField.count?) } := by
  -- No later member has the name of an earlier one, so every slot is free when it is filled.
  induction fields generalizing d with
  | nil => simp [readAmong, pure, Except.pure, Except.map]
  | cons f fields ih =>
    obtain ⟨unnamed, distinct'⟩ := List.nodup_cons.mp distinct
    obtain ⟨slot, others⟩ := List.forall_mem_cons.mp slots
    have later : ∀ d', f.step read d = .ok d' → ∀ g ∈ fields, d'.Open g := by
      intro d' taken g member
      refine open_step (fun same => unnamed ?_) (others g member) taken
      exact List.mem_map.mpr ⟨g, member, same⟩
    rw [List.foldlM_cons]
    cases f with
    | filter text =>
      have free : d.filter = none := slot
      have taken : RequestField.step read d (.filter text) =
          (read text).map fun f => { d with filter := some f } := by
        rw [RequestField.step, free]
        rfl
      have among : readAmong read (.filter text :: fields) = (read text).map some := rfl
      rw [among]
      cases reads : read text with
      | error e =>
        rw [taken, reads]
        rfl
      | ok filter =>
        rw [reads] at taken
        have rest := ih distinct' (later _ taken)
        rw [readAmong_of_unnamed unnamed] at rest
        rw [taken, free]
        exact rest
    | startIndex n =>
      have free : d.startIndex = none := slot
      have taken : RequestField.step read d (.startIndex n) = .ok { d with startIndex := some n } := by
        rw [RequestField.step, free]
        rfl
      have rest := ih distinct' (later _ taken)
      rw [taken, free]
      exact rest
    | count n =>
      have free : d.count = none := slot
      have taken : RequestField.step read d (.count n) = .ok { d with count := some n } := by
        rw [RequestField.step, free]
        rfl
      have rest := ih distinct' (later _ taken)
      rw [taken, free]
      exact rest

end Draft

theorem parse_jsonText {text : String} (valid : JsonText 126 text.toList) :
    Filter.parse text = readAlone text := by
  obtain ⟨p, same, spelled⟩ := valid
  refine Filter.parse_padded same fun rest ends => ?_
  have read := readOption_padded spelled (by decide : 126 ≤ depthLimit) ends
  rwa [readOption_blanks p.blankBefore, same, String.ofList_toList] at read

theorem readAlone_null : readAlone "null" = .ok none := by rfl

/-- The filter of a request reads as null where it is left out. -/
theorem readAmong_join (fields : List RequestField) :
    (readAmong readAlone fields).map Option.join = readAlone (requestFilter fields) := by
  unfold readAmong requestFilter
  cases fields.findSome? RequestField.filter? with
  | none => exact readAlone_null.symm
  | some text =>
    show ((readAlone text).map some).map Option.join = readAlone text
    cases readAlone text <;> rfl

theorem jsonText_null (n : Nat) : JsonText n "null".toList :=
  ⟨.bare "null".toList, Padded.text_bare _, .scalar (.word (.inl rfl))⟩

theorem jsonText_requestFilter {fields : List RequestField}
    (valid : ∀ text, .filter text ∈ fields → JsonText 126 text.toList) :
    JsonText 126 (requestFilter fields).toList := by
  unfold requestFilter
  cases given : fields.findSome? RequestField.filter? with
  | none => exact jsonText_null 126
  | some text =>
    obtain ⟨f, member, same⟩ := List.exists_of_findSome?_eq_some given
    cases f with
    | filter text' =>
      obtain rfl := Option.some.inj same
      exact valid text' member
    | startIndex | count => cases same

instance : Inhabited Padded := ⟨.bare []⟩

theorem parse_requestText {fields : List RequestField}
    (distinct : (fields.map RequestField.name).Nodup)
    (valid : ∀ text, .filter text ∈ fields → JsonText 126 text.toList) :
    ListRequest.parse (requestText fields) =
      (readAlone (requestFilter fields)).map fun f => ⟨f, requestPage fields⟩ := by
  choose! filter spelled using valid
  have pads : ∀ f ∈ fields, ∀ text, f = .filter text →
      (filter text).text = text.toList ∧ ValueText 126 (filter text).core := by
    rintro f member text rfl
    exact spelled text member
  have texts : joined (fields.map fun f => (Named.written f.name (f.pad filter)).text) =
      (",".intercalate (fields.map RequestField.text)).toList := by
    rw [toList_intercalate, List.map_map]
    refine congrArg joined (List.map_congr_left fun f member => ?_)
    exact RequestField.text_pad fun text same => (pads f member text same).1
  have whole : (requestText fields).toList =
      '\x7b' :: ((",".intercalate (fields.map RequestField.text)).toList ++ ['\x7d']) := by
    rw [requestText, String.toList_append, String.toList_append, List.append_assoc]
    rfl
  have read := members_padded (fun f : RequestField => .written f.name (f.pad filter))
    (fun f => .ok f.name) (fun f _ d => f.step readAlone d)
    (fun f _ more => scanString_written f.name more)
    (fun f member _ named d rest ends => by
      obtain rfl := Except.ok.inj named
      exact ListRequest.readField_padded (pads f member) d ends) .nil {} []
  have folded := @foldlM_step readAlone fields distinct {} fun f _ => by cases f <;> rfl
  rw [texts, List.nil_append] at read
  rw [ListRequest.parse, readAll, whole, depthLimit, ListRequest.read_object, read]
  change ((fields.foldlM (RequestField.step readAlone) {}).map fun d => (d, [])).bind _ >>= _ = _
  rw [folded, ← readAmong_join]
  cases readAmong readAlone fields <;> rfl

/-! ### Compiling -/

theorem Query.result_requestId (filter : Option Filter) (table : MappingTable) (order : SortOrder)
    (page : Page) (requestId requestId' : String) :
    (Query.compile filter table order page requestId).result =
      (Query.compile filter table order page requestId').result := by
  cases filter with
  | none => rfl
  | some f =>
    rw [result_compile, result_compile,
      Filter.result_compile_congr (fun _ _ => rfl) requestId requestId']

theorem ListRequest.result_compile_as (r : ListRequest) (table : MappingTable)
    (column direction requestId : String) :
    (r.compile table column direction).result =
      (SortOrder.parse column direction).bind fun order =>
        (Query.compile r.filter table order r.page requestId).result := by
  rw [ListRequest.compile, Recorded.result_bind, Recorded.result_silent]
  congr
  funext order
  exact Query.result_requestId _ _ _ _ _ _

/-- A request with a JSON text for its filter is accepted when the text is accepted as a filter. It
then has this filter, the page that its numbers ask for, with 0 for those left out, and it compiles
as its order, its filter and its page do. -/
theorem request_same_path {fields : List RequestField}
    (distinct : (fields.map RequestField.name).Nodup)
    (valid : ∀ text, .filter text ∈ fields → JsonText 126 text.toList) :
    ((∃ r, ListRequest.parse (requestText fields) = .ok r) ↔
      ∃ f, Filter.ofRequest (requestFilter fields) = .ok f) ∧
    ∀ r f, ListRequest.parse (requestText fields) = .ok r →
      Filter.ofRequest (requestFilter fields) = .ok f →
      r = ⟨f, requestPage fields⟩ ∧
      ∀ table column direction requestId,
        (r.compile table column direction).result =
          (SortOrder.parse column direction).bind fun order =>
            (Query.compile f table order (requestPage fields) requestId).result := by
  have parsed := parse_requestText distinct valid
  have alone : ∀ f, Filter.ofRequest (requestFilter fields) = .ok f ↔
      readAlone (requestFilter fields) = .ok f := by
    intro f
    rw [Filter.ofRequest, mapError_ok_iff, parse_jsonText (jsonText_requestFilter valid)]
  constructor
  · simp only [parsed, alone, except_map_ok_iff]
    constructor
    · rintro ⟨_, f, read, _⟩
      exact ⟨f, read⟩
    · rintro ⟨f, read⟩
      exact ⟨_, f, read, rfl⟩
  · intro r f accepted read
    rw [parsed, (alone f).mp read] at accepted
    obtain rfl := Except.ok.inj accepted
    exact ⟨rfl, fun table column direction requestId => ListRequest.result_compile_as _ _ _ _ _⟩

/-! ### A request whose page stands around its filter -/

/-- `size ge 4 or id co "\"\n"`. -/
def pagedFilter : Filter :=
  .logical (.condition ⟨{ name := "size" }, .ge, some (.integer 4)⟩) .or
    (.condition ⟨{ name := "id" }, .co, some (.string "\"\n")⟩)

def pagedFields : List RequestField :=
  [.count 7, .filter pagedFilter.toJson.compact, .startIndex 3]

theorem pagedFields_same_path :
    (pagedFields.map RequestField.name).Nodup ∧
    JsonText 126 pagedFilter.toJson.compact.toList ∧
    Filter.ofRequest (requestFilter pagedFields) = .ok (some pagedFilter) ∧
    ListRequest.parse (requestText pagedFields) = .ok ⟨some pagedFilter, ⟨3, 7⟩⟩ ∧
    (ListRequest.compile ⟨some pagedFilter, ⟨3, 7⟩⟩ messages "msg.id" "asc").result =
      (SortOrder.parse "msg.id" "asc").bind fun order =>
        (Query.compile (some pagedFilter) messages order ⟨3, 7⟩ "page").result := by
  have distinct : (pagedFields.map RequestField.name).Nodup := by decide
  have text : JsonText 126 pagedFilter.toJson.compact.toList :=
    (laidOut_compact _).jsonText (by decide)
  have valid : ∀ text, .filter text ∈ pagedFields → JsonText 126 text.toList := by
    intro t member
    simp only [pagedFields, List.mem_cons, reduceCtorEq, RequestField.filter.injEq, false_or,
      List.not_mem_nil, or_false] at member
    exact member ▸ text
  have floats : pagedFilter.FloatsReadBack := by
    intro x given
    have listed : some (Scalar.decimal x) ∈ [some (.integer 4), some (.string "\"\n")] := given
    simp at listed
  have read : Filter.ofRequest (requestFilter pagedFields) = .ok (some pagedFilter) := by
    change (Filter.parse pagedFilter.toJson.compact).mapError _ = _
    rw [Filter.parse_written floats, if_pos (by decide)]
    rfl
  obtain ⟨accepts, same⟩ := request_same_path distinct valid
  obtain ⟨r, accepted⟩ := accepts.mpr ⟨_, read⟩
  obtain ⟨rfl, compiles⟩ := same r _ accepted read
  exact ⟨distinct, text, read, accepted, compiles _ _ _ _⟩

end ScimQuery
