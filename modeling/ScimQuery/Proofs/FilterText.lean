import ScimQuery.Proofs.JsonText
import ScimQuery.Proofs.WrittenFilter

/-!
# Texts of filters

How the text of a value is read as a filter: as its members are, each by itself, and whatever stands
behind the text. What a text reads as does not depend on how many lists and objects may be opened, if
they are enough (`settled_read`); where they are not, it is taken as a whole still (`takes_read`).
-/

namespace ScimQuery

open Json

/-! ### Expected values -/

namespace Json

theorem unexpected_scalar {core : List Char} (h : ScalarText core) (expected : String)
    (rest : List Char) :
    (unexpected expected (core ++ rest) : Except ReadError (α × List Char)) =
      (scalar (core ++ rest)).bind fun (j, _) => mismatch (.wrongType j.found expected) := by
  obtain ⟨c, cs, rfl, start, list, object⟩ := h.start
  rw [List.cons_append, unexpected, skipSpace_cons start.solid]
  split
  · next same => exact absurd (List.cons.inj same).1 list
  · next same => exact absurd (List.cons.inj same).1 object
  · rfl

variable {n : Nat} {core : List Char}

theorem exists_takes_unexpected (h : ValueText n core) (expected : String) :
    ∃ e, Takes (unexpected expected : Reader α) core (.error e) := by
  cases h with
  | scalar h =>
    cases read : outcome scalar core with
    | error e =>
      refine ⟨e, fun rest ends => ?_⟩
      rw [unexpected_scalar h, takes_scalar h rest ends, read]
      rfl
    | ok j =>
      refine ⟨.mismatch (.wrongType j.found expected), fun rest ends => ?_⟩
      rw [unexpected_scalar h, takes_scalar h rest ends, read]
      rfl
  | list => exact ⟨.mismatch (.wrongType .array expected), fun _ _ => rfl⟩
  | object => exact ⟨.mismatch (.wrongType .object expected), fun _ _ => rfl⟩

/-- A name is read from a text; no other value is one. -/
theorem takes_readWord_text {body : List Char} (spelled : TextBody body)
    (names : List (String × α)) :
    Takes (readWord names) ('"' :: (body ++ ['"']))
      ((lift ((scanString (body ++ ['"'])).map Prod.fst)).bind (knownName names)) := by
  intro rest _
  rw [List.cons_append, List.append_assoc, List.singleton_append]
  change (lift (scanString (body ++ '"' :: rest)) >>= fun name =>
    knownName names name.1 >>= fun a => pure (a, name.2)) = _
  rw [spelled.scanString]
  cases scanString (body ++ ['"']) with
  | error e => rfl
  | ok s =>
    change (knownName names s.1 >>= fun a => pure (a, rest)) =
      (knownName names s.1).map fun a => (a, rest)
    cases knownName names s.1 <;> rfl

theorem readWord_eq_unexpected {c : Char} (solid : isSpace c = false) (quote : c ≠ '"')
    (names : List (String × α)) (text : List Char) :
    readWord names (c :: text) = unexpected "variant identifier" (c :: text) := by
  rw [readWord, skipSpace_cons solid]
  split
  · next same => exact absurd (List.cons.inj same).1 quote
  · rfl

theorem takes_readWord (h : ValueText n core) (names : List (String × α)) :
    Takes (readWord names) core (outcome (readWord names) core) := by
  obtain ⟨c, cs, rfl, start⟩ := h.start
  by_cases quote : c = '"'
  · obtain ⟨body, spelled, rfl⟩ := start.quote quote
    exact quote ▸ (takes_readWord_text spelled names).self
  · obtain ⟨e, refused⟩ := exists_takes_unexpected (α := α) h "variant identifier"
    exact Takes.self fun rest ends =>
      (readWord_eq_unexpected start.solid quote names _).trans (refused rest ends)

theorem readWord_blanks {blanks : List Char} (blank : Blanks blanks) (names : List (String × α))
    (text : List Char) : readWord names (blanks ++ text) = readWord names text := by
  simp only [readWord, skipSpace_append blank]

theorem takes_readOption_null (read : Reader α) :
    Takes (readOption read) "null".toList (.ok none) := fun rest _ =>
  readOption_none_iff.mpr (skipSpace_cons (by decide) _)

theorem takes_readOption (h : ValueText n core) {read : Reader α} {r : Except ReadError α}
    (taken : Takes read core r) :
    Takes (readOption read) core (if core = "null".toList then .ok none else r.map some) := by
  obtain ⟨c, cs, rfl, start⟩ := h.start
  by_cases null : c = 'n'
  · rw [if_pos (start.null null), start.null null]
    exact takes_readOption_null read
  · have other : c :: cs ≠ "null".toList := fun same => null (List.cons.inj same).1
    rw [if_neg other]
    intro rest ends
    have given := taken rest ends
    rw [List.cons_append] at given ⊢
    rw [readOption, skipSpace_cons start.solid]
    split
    · next same => exact absurd (List.cons.inj same).1 null
    · change (read (c :: (cs ++ rest)) >>= fun a => pure (some a.1, a.2)) = _
      rw [given]
      cases r <;> rfl

theorem settled_readOption (h : ValueText n core) {read : Nat → Reader α}
    (settled : Settled n read core) : Settled n (fun d => readOption (read d)) core :=
  .intro _ fun d deep => takes_readOption h (settled d deep)

theorem readOption_blanks {blanks : List Char} (blank : Blanks blanks) (read : Reader α)
    (text : List Char) : readOption read (blanks ++ text) = readOption read text := by
  simp only [readOption, skipSpace_append blank]

end Json

theorem itemField_first {before core : List Char} (blank : Blanks before) (form : ItemText core)
    (absent : Except ReadError α) (read : Reader α) (more : List Char) :
    itemField true absent read (before ++ (core ++ more)) = read (core ++ more) := by
  rw [itemField, nextItem_first blank form]
  rfl

/-! ### The outermost node -/

namespace Filter

theorem read_list (d : Nat) (text : List Char) :
    Filter.read (d + 1) ('[' :: text) =
      (itemField true (mismatch (.missingField tagName)) (readWord NodeKind.names) text).bind
        fun (kind, rest) => (itemsFrom (value d) rest false rest).bind
          fun (js, rest) => (ofItems kind (holdItems js)).bind fun f => .ok (f, rest) := by
  rfl

theorem read_object (d : Nat) (text : List Char) :
    Filter.read (d + 1) ('\x7b' :: text) =
      (Json.members (readMember d) {} text).bind fun (o, rest) =>
        (required tagName o.kind).bind fun kind =>
          (ofMembers kind (holdMembers o.members.reverse)).bind fun f => .ok (f, rest) := by
  rfl

/-- What a member of the outermost node does, given the two readings of its value. -/
def stepMember (kind : Except ReadError NodeKind) (json : Except ReadError Json) (name : String)
    (o : Opening) : Except ReadError Opening :=
  if name = tagName then
    (fresh tagName o.kind).bind fun _ => kind.map fun k => { o with kind := some k }
  else json.map fun j => { o with members := (name, j) :: o.members }

theorem readMember_padded {m : Named} {d : Nat} {kind : Except ReadError NodeKind}
    {json : Except ReadError Json} (word : Takes (readWord NodeKind.names) m.value.core kind)
    (read : Takes (value d) m.value.core json) (name : String) (o : Opening) {rest : List Char}
    (ends : NumberEnds rest) :
    readMember d name o (m.behind ++ ':' :: (m.value.before ++ (m.value.core ++ rest))) =
      (stepMember kind json name o).map fun o => (o, rest) := by
  unfold readMember stepMember
  by_cases tag : name = tagName
  · simp only [field, colon_cons m.blankBehind, tag]
    cases fresh tagName o.kind with
    | error e => rfl
    | ok =>
      change (readWord NodeKind.names (m.value.before ++ (m.value.core ++ rest)) >>=
        fun kind => pure ({ o with kind := some kind.1 }, kind.2)) = _
      rw [readWord_blanks m.value.blankBefore, word rest ends]
      cases kind <;> rfl
  · simp only [if_neg tag, colon_cons m.blankBehind]
    change (value d (m.value.before ++ (m.value.core ++ rest)) >>= fun j =>
      pure ({ o with members := (name, j.1) :: o.members }, j.2)) = _
    rw [value_blanks m.value.blankBefore, read rest ends]
    cases json <;> rfl

/-- What the members of the outermost node make of it, each read by itself. -/
def ofNamed (n : Nat) (members : List Named) : Except ReadError Filter :=
  (members.foldlM (fun o m => takeNamed m.key (stepMember
    (outcome (readWord NodeKind.names) m.value.core) (outcome (value n) m.value.core)) o) {}).bind
    fun o => (required tagName o.kind).bind fun kind =>
      ofMembers kind (holdMembers o.members.reverse)

/-- What the elements of the outermost node make of it, the first of which says its kind. -/
def ofPadded (n : Nat) (first : Padded) (others : List Padded) : Except ReadError Filter :=
  (outcome (readWord NodeKind.names) first.core).bind fun kind =>
    (others.mapM fun p => outcome (value n) p.core).bind fun js => ofItems kind (holdItems js)

section Nodes

variable {k n d : Nat} {close : List Char}

theorem takes_named {members : List Named} (blank : Blanks close)
    (names : ∀ m ∈ members, TextBody m.name) (inner : ∀ m ∈ members, ValueText k m.value.core)
    (read : ∀ m ∈ members, Takes (value d) m.value.core (outcome (value n) m.value.core)) :
    Takes (Filter.read (d + 1))
      ('\x7b' :: (joined (members.map Named.text) ++ (close ++ ['\x7d']))) (ofNamed n members) := by
  intro rest _
  let step (m : Named) := stepMember (outcome (readWord NodeKind.names) m.value.core)
    (outcome (value n) m.value.core)
  have whole := members_padded (fun m : Named => m) Named.key step
    (fun m member more => (names m member).scanString more)
    (fun m member name _ o rest ends => readMember_padded
      (takes_readWord (inner m member) NodeKind.names) (read m member) name o ends)
    blank {} rest
  simp only [List.cons_append, List.append_assoc, List.nil_append] at whole ⊢
  rw [read_object, whole, ofNamed]
  cases members.foldlM (fun o m => takeNamed m.key (step m) o) {} with
  | error e => rfl
  | ok o =>
    change ((required tagName o.kind).bind fun kind =>
      (ofMembers kind (holdMembers o.members.reverse)).bind fun f => .ok (f, rest)) =
      ((required tagName o.kind).bind fun kind =>
        ofMembers kind (holdMembers o.members.reverse)).map fun f => (f, rest)
    cases required tagName o.kind with
    | error e => rfl
    | ok kind =>
      change ((ofMembers kind (holdMembers o.members.reverse)).bind fun f => .ok (f, rest)) =
        (ofMembers kind (holdMembers o.members.reverse)).map fun f => (f, rest)
      cases ofMembers kind (holdMembers o.members.reverse) <;> rfl

theorem takes_padded {p : Padded} {items : List Padded} (blank : Blanks close)
    (inner : ∀ q ∈ p :: items, ValueText k q.core)
    (read : ∀ q ∈ items, Takes (value d) q.core (outcome (value n) q.core)) :
    Takes (Filter.read (d + 1))
      ('[' :: (joined ((p :: items).map Padded.text) ++ (close ++ [']']))) (ofPadded n p items) := by
  intro rest _
  obtain ⟨first, others⟩ := List.forall_mem_cons.mp inner
  have ends := NumberEnds.blanks p.blankBehind
    (.others (.inl rfl) blank (fun q : Padded => q.text) items rest)
  have kind := takes_readWord first NodeKind.names _ ends
  have steps : items.length ≤ (items.flatMap fun q => ',' :: q.text).length :=
    length_le_flatMap_cons items
  have later := itemsFrom_padded (fun q : Padded => q)
    (fun q member => (others q member).itemText) read
    p.blankBehind blank (p.behind ++ (items.flatMap (fun q => ',' :: q.text) ++
      (close ++ ']' :: rest))) (by simp only [List.length_append, List.length_cons]; omega) rest
  simp only [List.map_cons, joined, List.flatMap_map, Padded.text, List.append_assoc,
    List.cons_append, List.nil_append] at kind later ⊢
  rw [read_list, itemField_first p.blankBefore first.itemText, kind, ofPadded]
  cases outcome (readWord NodeKind.names) p.core with
  | error e => rfl
  | ok k =>
    change ((itemsFrom (value d) _ false _).bind _) = _
    rw [later]
    cases items.mapM fun q => outcome (value n) q.core with
    | error e => rfl
    | ok js =>
      change ((ofItems k (holdItems js)).bind fun f => .ok (f, rest)) =
        (ofItems k (holdItems js)).map fun f => (f, rest)
      cases ofItems k (holdItems js) <;> rfl

theorem takes_empty (blank : Blanks close) (d : Nat) :
    Takes (Filter.read (d + 1)) ('[' :: (close ++ [']'])) (mismatch (.missingField tagName)) := by
  intro rest _
  have closing := nextItem_closing blank true rest
  simp only [List.nil_append, List.cons_append, List.append_assoc]
  rw [read_list, itemField, closing]
  rfl

end Nodes

/-- A value that is neither a list nor an object is no node. -/
theorem exists_takes_scalar {core : List Char} (h : ScalarText core) :
    ∃ e, ∀ d, Takes (Filter.read d) core (.error e) := by
  obtain ⟨e, refused⟩ := exists_takes_unexpected (α := Filter) (.scalar (n := 0) h) Filter.title
  obtain ⟨c, cs, rfl, start, list, object⟩ := h.start
  refine ⟨e, fun d rest ends => ?_⟩
  have first : ∀ {b more}, skipSpace (c :: (cs ++ rest)) = b :: more → c = b := by
    intro b more same
    rw [skipSpace_cons start.solid] at same
    exact (List.cons.inj same).1
  have given := refused rest ends
  rw [List.cons_append] at given ⊢
  rw [← given]
  unfold Filter.read opened
  split
  · next same => exact absurd (first same) list
  · next same => exact absurd (first same) object
  · next same => exact absurd (first same) list
  · next same => exact absurd (first same) object
  · rw [skipSpace_cons start.solid]

theorem settled_read {n : Nat} {core : List Char} (h : ValueText n core) :
    Settled n Filter.read core := by
  cases h with
  | scalar h =>
    obtain ⟨e, refused⟩ := exists_takes_scalar h
    exact .intro (.error e) fun d _ => refused d
  | @list n close items blank inner =>
    cases items with
    | nil =>
      refine .intro (mismatch (.missingField tagName)) fun d deep => ?_
      obtain ⟨d, rfl⟩ := Nat.exists_eq_succ_of_ne_zero (by omega : d ≠ 0)
      exact takes_empty blank d
    | cons p items =>
      refine .intro (ofPadded n p items) fun d deep => ?_
      obtain ⟨d, rfl⟩ := Nat.exists_eq_succ_of_ne_zero (by omega : d ≠ 0)
      exact takes_padded blank inner fun q member =>
        settled_value (inner q (List.mem_cons_of_mem p member)) d (by omega)
  | @object n close members blank names inner =>
    refine .intro (ofNamed n members) fun d deep => ?_
    obtain ⟨d, rfl⟩ := Nat.exists_eq_succ_of_ne_zero (by omega : d ≠ 0)
    exact takes_named blank names inner fun m member => settled_value (inner m member) d (by omega)

theorem takes_read {n : Nat} {core : List Char} (h : ValueText n core) (d : Nat) :
    Takes (Filter.read d) core (outcome (Filter.read d) core) := by
  cases h with
  | scalar h =>
    obtain ⟨e, refused⟩ := exists_takes_scalar h
    exact (refused d).self
  | @list n close items blank inner =>
    cases d with
    | zero => exact fun _ _ => rfl
    | succ d =>
      cases items with
      | nil => exact (takes_empty blank d).self
      | cons p items =>
        exact .self (takes_padded blank inner fun q member =>
          takes_value (inner q (List.mem_cons_of_mem p member)) d)
  | @object n close members blank names inner =>
    cases d with
    | zero => exact fun _ _ => rfl
    | succ d =>
      exact .self (takes_named blank names inner fun m member => takes_value (inner m member) d)

/-- Blanks around a text do not count. -/
theorem parse_padded {p : Padded} {text : String} (same : p.text = text.toList)
    {r : Except ReadError (Option Filter)}
    (taken : Takes (readOption (Filter.read depthLimit)) p.core r) : parse text = r := by
  rw [parse, readAll, ← same, Padded.text, readOption_blanks p.blankBefore,
    taken p.behind p.numberEnds_behind]
  cases r with
  | error e => rfl
  | ok f =>
    have empty : skipSpace p.behind = [] := skipSpace_eq_nil.mpr p.blankBehind
    change (if (skipSpace p.behind).isEmpty then pure f else malformed .trailingCharacters) = _
    rw [empty]
    rfl

end Filter

end ScimQuery
