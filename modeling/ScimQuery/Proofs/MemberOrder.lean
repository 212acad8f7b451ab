import ScimQuery.Filter
import ScimQuery.Proofs.JsonLayout
import ScimQuery.Proofs.ReadJson
import ScimQuery.Proofs.ShuffledFilter

/-!
# The order of members

The order of the members inside an object does not count, nor do the blanks between the tokens: two
texts that differ in nothing else are the same filter, or both are refused (`member_order`). So the
kind of a node may come first, last or in between.
-/

namespace ScimQuery

open Json

namespace Json

/-- The texts of two values, without blanks around them, that differ in the blanks inside and in the
order of the members inside objects, at any depth. -/
inductive Rearranged : Nat → List Char → List Char → Prop where
  | scalar {n core} (h : ScalarText core) : Rearranged n core core
  | list {n close close'} {items : List (Padded × Padded)} (blank : Blanks close)
      (blank' : Blanks close') (inner : ∀ p ∈ items, Rearranged n p.1.core p.2.core) :
      Rearranged (n + 1)
        ('[' :: (joined ((items.map Prod.fst).map Padded.text) ++ (close ++ [']'])))
        ('[' :: (joined ((items.map Prod.snd).map Padded.text) ++ (close' ++ [']'])))
  | object {n close close'} {members : List Named} {ordered : List (Named × Named)}
      (blank : Blanks close) (blank' : Blanks close') (perm : members.Perm (ordered.map Prod.fst))
      (names : ∀ m ∈ ordered, TextBody m.1.name ∧ m.2.name = m.1.name)
      (inner : ∀ m ∈ ordered, Rearranged n m.1.value.core m.2.value.core) :
      Rearranged (n + 1)
        ('\x7b' :: (joined (members.map Named.text) ++ (close ++ ['\x7d'])))
        ('\x7b' :: (joined ((ordered.map Prod.snd).map Named.text) ++ (close' ++ ['\x7d'])))

/-- Two JSON texts that differ only in the blanks between the tokens and in the order of the members
inside objects. -/
def SameButOrder (text text' : String) : Prop :=
  ∃ n, ∃ p p' : Padded, p.text = text.toList ∧ p'.text = text'.toList ∧ Rearranged n p.core p'.core

variable {n : Nat} {core core' : List Char}

namespace Rearranged

section Objects

variable {members : List Named} {ordered : List (Named × Named)}

theorem forall_members {P : Named → Prop} (perm : members.Perm (ordered.map Prod.fst))
    (each : ∀ m ∈ ordered, P m.1) : ∀ m ∈ members, P m := by
  intro m member
  obtain ⟨m, inside, rfl⟩ := List.mem_map.mp (perm.mem_iff.mp member)
  exact each m inside

theorem names_right (names : ∀ m ∈ ordered, TextBody m.1.name ∧ m.2.name = m.1.name) :
    ∀ m ∈ ordered.map Prod.snd, TextBody m.name :=
  List.forall_mem_map.mpr fun m member => (names m member).2 ▸ (names m member).1

end Objects

theorem valueText (h : Rearranged n core core') : ValueText n core := by
  induction h with
  | scalar h => exact .scalar h
  | list blank _ _ ih => exact .list blank (List.forall_mem_map.mpr ih)
  | object blank _ perm names _ ih =>
    exact .object blank (forall_members perm fun m member => (names m member).1)
      (forall_members perm ih)

theorem valueText_right (h : Rearranged n core core') : ValueText n core' := by
  induction h with
  | scalar h => exact .scalar h
  | list _ blank _ ih => exact .list blank (List.forall_mem_map.mpr ih)
  | object _ blank _ names _ ih =>
    exact .object blank (names_right names) (List.forall_mem_map.mpr ih)

section Texts

variable {items : List (Padded × Padded)} {members : List Named} {ordered : List (Named × Named)}

theorem items_left (inner : ∀ p ∈ items, Rearranged n p.1.core p.2.core) :
    ∀ p ∈ items.map Prod.fst, ValueText n p.core :=
  List.forall_mem_map.mpr fun p member => (inner p member).valueText

theorem items_right (inner : ∀ p ∈ items, Rearranged n p.1.core p.2.core) :
    ∀ p ∈ items.map Prod.snd, ValueText n p.core :=
  List.forall_mem_map.mpr fun p member => (inner p member).valueText_right

theorem members_left (perm : members.Perm (ordered.map Prod.fst))
    (inner : ∀ m ∈ ordered, Rearranged n m.1.value.core m.2.value.core) :
    ∀ m ∈ members, ValueText n m.value.core :=
  forall_members perm fun m member => (inner m member).valueText

theorem members_right (inner : ∀ m ∈ ordered, Rearranged n m.1.value.core m.2.value.core) :
    ∀ m ∈ ordered.map Prod.snd, ValueText n m.value.core :=
  List.forall_mem_map.mpr fun m member => (inner m member).valueText_right

end Texts

/-! ### Values -/

theorem depth_of_scalarText {d : Nat} {j : Json} (h : ScalarText core)
    (read : outcome (value d) core = .ok j) : j.depth = 0 := by
  obtain ⟨⟨i, rest⟩, taken, rfl⟩ := except_map_ok_iff.mp read
  have same := value_scalarText h d []
  rw [List.append_nil, taken] at same
  exact Nat.le_zero.mp (sound_scalar same.symm 0).1

theorem agree_items {items : List (Padded × Padded)} {d : Nat}
    (each : ∀ p ∈ items, Agree Shuffled (outcome (value d) p.1.core) (outcome (value d) p.2.core)) :
    Agree (List.Forall₂ Shuffled) ((items.map Prod.fst).mapM fun p => outcome (value d) p.core)
      ((items.map Prod.snd).mapM fun p => outcome (value d) p.core) := by
  have alike : List.Forall₂
      (fun p p' => Agree Shuffled (outcome (value d) p.core) (outcome (value d) p'.core))
      (items.map Prod.fst) (items.map Prod.snd) := by
    rwa [List.forall₂_map_left_iff, List.forall₂_map_right_iff, List.forall₂_same]
  exact .mapM (fun _ _ same => same) alike

theorem agree_members {members : List Named} {ordered : List (Named × Named)} {d : Nat}
    (perm : members.Perm (ordered.map Prod.fst)) (names : ∀ m ∈ ordered, m.2.name = m.1.name)
    (each : ∀ m ∈ ordered,
      Agree Shuffled (outcome (value d) m.1.value.core) (outcome (value d) m.2.value.core)) :
    Agree (Reordered Shuffled) (members.mapM (Named.outcome d))
      ((ordered.map Prod.snd).mapM (Named.outcome d)) := by
  have alike : List.Forall₂ (fun m m' : Named => m'.name = m.name ∧
      Agree Shuffled (outcome (value d) m.value.core) (outcome (value d) m'.value.core))
      (ordered.map Prod.fst) (ordered.map Prod.snd) := by
    rw [List.forall₂_map_left_iff, List.forall₂_map_right_iff, List.forall₂_same]
    exact fun m member => ⟨names m member, each m member⟩
  have replaced : Agree (List.Forall₂ (SameName Shuffled))
      ((ordered.map Prod.fst).mapM (Named.outcome d))
      ((ordered.map Prod.snd).mapM (Named.outcome d)) := by
    refine .mapM (fun m m' same => ?_) alike
    unfold Named.outcome Named.key
    rw [same.1]
    exact Agree.rfl.bind fun name name' eq => same.2.map fun j j' h => ⟨eq, h⟩
  exact (Agree.mapM_perm perm).trans (fun _ ms _ perm alike => ⟨ms, perm, alike⟩) replaced

theorem agree_value (h : Rearranged n core core') (d : Nat) :
    Agree Shuffled (outcome (value d) core) (outcome (value d) core') := by
  -- The limit goes down with the nesting, on both sides alike; where it is spent both are refused.
  induction h generalizing d with
  | @scalar n core h =>
    cases read : outcome (value d) core with
    | ok j => exact .ok (.flat (depth_of_scalarText h read))
    | error e => exact .error
  | @list n close close' items blank blank' inner ih =>
    cases d with
    | zero => exact .error
    | succ d =>
      have left := items_left inner
      have right := items_right inner
      rw [(takes_list blank (fun p member => (left p member).itemText)
          fun p member => takes_value (left p member) d).outcome,
        (takes_list blank' (fun p member => (right p member).itemText)
          fun p member => takes_value (right p member) d).outcome]
      exact (agree_items fun p member => ih p member d).map fun js js' => .of_items
  | @object n close close' members ordered blank blank' perm names inner ih =>
    cases d with
    | zero => exact .error
    | succ d =>
      have left := members_left perm inner
      have right := members_right inner
      rw [(takes_object blank (forall_members perm fun m member => (names m member).1)
          fun m member => takes_value (left m member) d).outcome,
        (takes_object blank' (names_right names) fun m member =>
          takes_value (right m member) d).outcome]
      have members := agree_members perm (fun m member => (names m member).2)
        fun m member => ih m member d
      exact members.map fun ms ms' => .of_members

/-! ### Names -/

theorem agree_readWord (h : Rearranged n core core') (names : List (String × α)) :
    Agree Eq (outcome (readWord names) core) (outcome (readWord names) core') := by
  cases h with
  | scalar => exact .rfl
  | list => exact .error
  | object => exact .error

end Rearranged

end Json

/-! ### The outermost node -/

namespace Filter

/-- A member of a text. -/
def Given.ofNamed (n : Nat) (m : Named) : Given :=
  ⟨m.key, outcome (readWord NodeKind.names) m.value.core, outcome (value n) m.value.core⟩

theorem ofNamed_eq (n : Nat) (members : List Named) :
    ofNamed n members = ofGiven (members.map (Given.ofNamed n)) := by
  rw [ofGiven, List.foldlM_map]
  rfl

theorem agree_ofPadded {n d : Nat} {p : Padded × Padded} {items : List (Padded × Padded)}
    (inner : ∀ q ∈ p :: items, Rearranged n q.1.core q.2.core) :
    Agree Eq (ofPadded d p.1 (items.map Prod.fst)) (ofPadded d p.2 (items.map Prod.snd)) := by
  obtain ⟨first, others⟩ := List.forall_mem_cons.mp inner
  refine (first.agree_readWord NodeKind.names).bind fun kind _ same => ?_
  have items := Rearranged.agree_items fun q member => (others q member).agree_value d
  refine items.bind fun js js' alike => ?_
  rw [holdItems_eq_map, holdItems_eq_map]
  refine same ▸ agree_ofItems kind ?_
  rw [List.forall₂_map_left_iff, List.forall₂_map_right_iff]
  exact alike.imp fun j j' h => ⟨h, agree_ofJson h⟩

theorem agree_ofNamed {n d : Nat} {members : List Named} {ordered : List (Named × Named)}
    (perm : members.Perm (ordered.map Prod.fst)) (names : ∀ m ∈ ordered, m.2.name = m.1.name)
    (inner : ∀ m ∈ ordered, Rearranged n m.1.value.core m.2.value.core) :
    Agree Eq (ofNamed d members) (ofNamed d (ordered.map Prod.snd)) := by
  rw [ofNamed_eq, ofNamed_eq]
  refine agree_ofGiven (perm.map _) ?_
  rw [List.forall₂_map_left_iff, List.forall₂_map_right_iff, List.forall₂_map_left_iff,
    List.forall₂_map_right_iff, List.forall₂_same]
  intro m member
  have value := (inner m member).agree_value d
  refine ⟨?_, (inner m member).agree_readWord NodeKind.names, ?_⟩
  · exact congrArg (fun name => (scanString (name ++ ['"'])).map Prod.fst) (names m member).symm
  · exact value.mono fun j j' h => ⟨h, agree_ofJson h⟩

theorem agree_read {n : Nat} {core core' : List Char} (h : Rearranged n core core') (d : Nat) :
    Agree Eq (outcome (Filter.read d) core) (outcome (Filter.read d) core') := by
  cases h with
  | scalar => exact .rfl
  | @list n close close' items blank blank' inner =>
    cases d with
    | zero => exact .error
    | succ d =>
      have left := Rearranged.items_left inner
      have right := Rearranged.items_right inner
      cases items with
      | nil =>
        change Agree Eq (outcome (Filter.read (d + 1)) ('[' :: (close ++ [']'])))
          (outcome (Filter.read (d + 1)) ('[' :: (close' ++ [']'])))
        rw [(takes_empty blank d).outcome, (takes_empty blank' d).outcome]
        exact .rfl
      | cons p items =>
        have taken := (takes_padded blank left fun q member =>
          takes_value (left q (List.mem_cons_of_mem _ member)) d).outcome
        have taken' := (takes_padded blank' right fun q member =>
          takes_value (right q (List.mem_cons_of_mem _ member)) d).outcome
        simp only [List.map_cons] at taken taken' ⊢
        rw [taken, taken']
        exact agree_ofPadded inner
  | @object n close close' members ordered blank blank' perm names inner =>
    cases d with
    | zero => exact .error
    | succ d =>
      have left := Rearranged.members_left perm inner
      have right := Rearranged.members_right inner
      rw [(takes_named blank (Rearranged.forall_members perm fun m member => (names m member).1) left
          fun m member => takes_value (left m member) d).outcome,
        (takes_named blank' (Rearranged.names_right names) right fun m member =>
          takes_value (right m member) d).outcome]
      exact agree_ofNamed perm (fun m member => (names m member).2) inner

theorem agree_readOption {n : Nat} {core core' : List Char} (h : Rearranged n core core') (d : Nat) :
    Agree Eq (outcome (readOption (Filter.read d)) core)
      (outcome (readOption (Filter.read d)) core') := by
  have option := fun {core} (h : ValueText n core) =>
    (takes_readOption h (takes_read h d)).outcome
  have read := agree_read h d
  rw [option h.valueText, option h.valueText_right]
  cases h with
  | scalar => exact .rfl
  | list => exact read.map fun _ _ same => congrArg some same
  | object => exact read.map fun _ _ same => congrArg some same

theorem parse_of_padded {n : Nat} {p : Padded} {text : String} (same : p.text = text.toList)
    (h : ValueText n p.core) :
    parse text = outcome (readOption (Filter.read depthLimit)) p.core :=
  parse_padded same (takes_readOption h (takes_read h depthLimit)).self

/-- Two texts that differ only in blanks and in the order of members are both accepted, as the same
filter, or both refused. -/
theorem member_order {text text' : String} (h : SameButOrder text text') (f : Option Filter) :
    ofRequest text = .ok f ↔ ofRequest text' = .ok f := by
  obtain ⟨n, p, p', same, same', rearranged⟩ := h
  simp only [ofRequest, mapError_ok_iff]
  rw [parse_of_padded same rearranged.valueText, parse_of_padded same' rearranged.valueText_right]
  exact Agree.eq_iff.mp (agree_readOption rearranged depthLimit) f

/-- `userName pr`: the kind stands between the other members, and an unknown name occurs twice. -/
def orderedText : String :=
  "\x7b\"note\":[],\"operator\":\"pr\",\"type\":\"attribute\",\"path\":" ++
    "\x7b\"uri\":null,\"name\":\"userName\"\x7d,\"note\":true\x7d"

/-- The same members the other way round, with blanks. -/
def reversedText : String :=
  "\x7b\"note\": true,\"path\": \x7b\"name\": \"userName\",\"uri\": null\x7d," ++
    "\"type\": \"attribute\",\"operator\": \"pr\",\"note\": []\x7d"

theorem blanks_space : Blanks [' '] := List.all_eq_true.mp (by decide)

/-- A member of both texts. -/
def bothWays (m : String × List Char × List Char) : Named × Named :=
  (.written m.1 (.bare m.2.1),
    .written m.1 ⟨[' '], m.2.2, [], blanks_space, .nil⟩)

def objectOf (members : List Named) : List Char :=
  '\x7b' :: (joined (members.map Named.text) ++ ([] ++ ['\x7d']))

theorem rearranged_reversed {n : Nat} {ms : List (String × List Char × List Char)}
    (inner : ∀ m ∈ ms, Rearranged n m.2.1 m.2.2) :
    Rearranged (n + 1) (objectOf ((ms.map bothWays).map Prod.fst).reverse)
      (objectOf ((ms.map bothWays).map Prod.snd)) := by
  refine .object .nil .nil (List.reverse_perm _) (List.forall_mem_map.mpr fun m _ => ?_)
    (List.forall_mem_map.mpr inner)
  exact ⟨textBody_escaped m.1.toList, rfl⟩

theorem reversedText_order : SameButOrder orderedText reversedText ∧
    ∃ f, ofRequest orderedText = .ok (some f) ∧ ofRequest reversedText = .ok (some f) ∧
      f.toJson.compact = "\x7b\"type\":\"attribute\",\"path\":\x7b\"name\":\"userName\"\x7d," ++
        "\"operator\":\"pr\"\x7d" := by
  have text : ∀ {n} (s : String), Rearranged n (nameText s) (nameText s) :=
    fun s => .scalar (.text (textBody_escaped s.toList))
  have path := @rearranged_reversed 1 [("name", nameText "userName", nameText "userName"),
    ("uri", "null".toList, "null".toList)] (by
      simp only [List.forall_mem_cons]
      exact ⟨text _, .scalar (.word (.inl rfl)), nofun⟩)
  have whole := @rearranged_reversed 2 [("note", "true".toList, "true".toList), ("path", _, _),
    ("type", nameText "attribute", nameText "attribute"),
    ("operator", nameText "pr", nameText "pr"), ("note", ['[', ']'], ['[', ']'])] (by
      simp only [List.forall_mem_cons]
      exact ⟨.scalar (.word (.inr (.inl rfl))), path, text _, text _,
        @Rearranged.list 1 [] [] [] .nil .nil nofun, nofun⟩)
  have same : SameButOrder orderedText reversedText :=
    ⟨3, .bare _, .bare _, by decide +kernel, by decide +kernel, whole⟩
  have accepted : ((ofRequest orderedText).toOption.map fun f => f.map (·.toJson.compact)) =
      some (some ("\x7b\"type\":\"attribute\",\"path\":\x7b\"name\":\"userName\"\x7d," ++
        "\"operator\":\"pr\"\x7d")) := by
    decide +kernel
  obtain ⟨f?, given, present⟩ := Option.map_eq_some_iff.mp accepted
  obtain ⟨f, rfl, written⟩ := Option.map_eq_some_iff.mp present
  have read := toOption_eq_some_iff.mp given
  exact ⟨same, f, read, (member_order same (some f)).mp read, written⟩

end Filter

end ScimQuery
