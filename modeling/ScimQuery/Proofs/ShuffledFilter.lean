import ScimQuery.Proofs.FilterText
import ScimQuery.Proofs.NodeFields
import ScimQuery.Proofs.ShuffledJson

/-!
# Filters in shuffled values

Two values that differ in the order of members only are the same filter, or neither is one
(`Filter.agree_ofJson`). Names may occur more than once: a field that does is refused wherever it
stands, and members with other names do not count.
-/

namespace ScimQuery

open Json

theorem Json.Shuffled.asScalar {j j' : Json} (h : Shuffled j j') :
    Agree Eq (Scalar.ofJson j) (Scalar.ofJson j') :=
  h.agree_of_flat (fun _ => ⟨_, rfl⟩) fun _ => ⟨_, rfl⟩

theorem Json.Shuffled.decodeKind {j j' : Json} (h : Shuffled j j') :
    Agree Eq (Filter.decodeKind j) (Filter.decodeKind j') :=
  h.agree_of_flat (fun _ => ⟨_, rfl⟩) fun _ => ⟨_, rfl⟩

/-! ### Attribute paths -/

namespace AttributePath

theorem agree_ofJson {j j' : Json} (h : Shuffled j j') : Agree Eq (ofJson j) (ofJson j') := by
  induction h using Shuffled.induct with
  | flat => exact .rfl
  | array js js' alike =>
    refine (agree_nextField alike _ fun j j' h => h.1.asOption h.1.asString).bind ?_
    rintro ⟨schema, js⟩ ⟨_, js'⟩ ⟨rfl, alike⟩
    refine (agree_nextField alike _ fun j j' h => h.1.asString).bind ?_
    rintro ⟨name, js⟩ ⟨_, js'⟩ ⟨rfl, alike⟩
    refine (agree_nextField alike _ fun j j' h => h.1.asOption h.1.asString).bind ?_
    rintro ⟨sub, js⟩ ⟨_, js'⟩ ⟨rfl, alike⟩
    exact (agree_noneLeft alike 3).bind fun _ _ _ => .rfl
  | object ms ordered ms' perm alike =>
    have fields : decodeField = fillNamed slots := funext₂ decodeField_eq
    have decode : ∀ s ∈ slots, ∀ j j', Shuffled j j' → Agree Eq (s.2.decode j) (s.2.decode j') := by
      simp only [slots, List.forall_mem_cons, List.not_mem_nil, false_implies, implies_true,
        and_true]
      exact ⟨fun _ _ h => h.asOption h.asString, fun _ _ h => h.asString,
        fun _ _ h => h.asOption h.asString⟩
    unfold ofJson
    rw [fields]
    refine (agree_foldlM_fillNamed separate_slots decode perm ?_ {}).bind fun d d' same => same ▸ .rfl
    exact alike.imp fun m m' h => ⟨h.1, h.2.1⟩

end AttributePath

namespace Filter

/-! ### Nodes -/

/-- Values that differ in the order of members only, and are the same node or both none. -/
def Held.Alike (h h' : Held) : Prop := h.json.Shuffled h'.json ∧ Agree Eq h.node h'.node

section Parts

variable {h h' : Held} (alike : h.Alike h')

include alike

theorem Held.Alike.path : Agree Eq (AttributePath.ofJson h.json) (AttributePath.ofJson h'.json) :=
  AttributePath.agree_ofJson alike.1

theorem Held.Alike.name (names : List (String × α)) :
    Agree Eq (asName names h.json) (asName names h'.json) :=
  alike.1.asName names

theorem Held.Alike.value :
    Agree Eq (asOption Scalar.ofJson h.json) (asOption Scalar.ofJson h'.json) :=
  alike.1.asOption alike.1.asScalar

end Parts

theorem agree_slots (kind : NodeKind) : ∀ s ∈ slots kind, ∀ h h' : Held, h.Alike h' →
    Agree Eq (s.2.decode h) (s.2.decode h') := by
  cases kind <;>
    simp only [slots, List.forall_mem_cons, List.not_mem_nil, false_implies, implies_true, and_true]
  · exact ⟨fun _ _ h => h.2, fun _ _ h => h.name _, fun _ _ h => h.2⟩
  · exact ⟨fun _ _ h => h.path, fun _ _ h => h.name _, fun _ _ h => h.value⟩
  · exact ⟨fun _ _ h => h.path, fun _ _ h => h.2⟩
  · exact fun _ _ h => h.2

/-- The members of a node may come in any order. -/
theorem agree_ofMembers (kind : NodeKind) {ms ordered ms' : List (String × Held)}
    (perm : ms.Perm ordered) (alike : List.Forall₂ (SameName Held.Alike) ordered ms') :
    Agree Eq (ofMembers kind ms) (ofMembers kind ms') := by
  have fields := agree_foldlM_fillNamed (separate_slots kind) (agree_slots kind) perm alike {}
  rw [ofMembers_eq, ofMembers_eq]
  exact fields.bind fun d d' same => same ▸ .rfl

theorem agree_ofItems (kind : NodeKind) {hs hs' : List Held}
    (alike : List.Forall₂ Held.Alike hs hs') : Agree Eq (ofItems kind hs) (ofItems kind hs') := by
  unfold ofItems
  cases kind with
  | condition =>
    refine (agree_nextField alike _ fun _ _ h => h.path).bind ?_
    rintro ⟨path, hs⟩ ⟨_, hs'⟩ ⟨rfl, alike⟩
    refine (agree_nextField alike _ fun _ _ h => h.name _).bind ?_
    rintro ⟨operator, hs⟩ ⟨_, hs'⟩ ⟨rfl, alike⟩
    refine (agree_nextField alike _ fun _ _ h => h.value).bind ?_
    rintro ⟨value, hs⟩ ⟨_, hs'⟩ ⟨rfl, alike⟩
    exact (agree_noneLeft alike 3).bind fun _ _ _ => .rfl
  | logical =>
    refine (agree_nextField alike _ fun _ _ h => h.2).bind ?_
    rintro ⟨left, hs⟩ ⟨_, hs'⟩ ⟨rfl, alike⟩
    refine (agree_nextField alike _ fun _ _ h => h.name _).bind ?_
    rintro ⟨connective, hs⟩ ⟨_, hs'⟩ ⟨rfl, alike⟩
    refine (agree_nextField alike _ fun _ _ h => h.2).bind ?_
    rintro ⟨right, hs⟩ ⟨_, hs'⟩ ⟨rfl, alike⟩
    exact (agree_noneLeft alike 3).bind fun _ _ _ => .rfl
  | valuePath =>
    refine (agree_nextField alike _ fun _ _ h => h.path).bind ?_
    rintro ⟨path, hs⟩ ⟨_, hs'⟩ ⟨rfl, alike⟩
    refine (agree_nextField alike _ fun _ _ h => h.2).bind ?_
    rintro ⟨inner, hs⟩ ⟨_, hs'⟩ ⟨rfl, alike⟩
    exact (agree_noneLeft alike 2).bind fun _ _ _ => .rfl
  | negation =>
    refine (agree_nextField alike _ fun _ _ h => h.2).bind ?_
    rintro ⟨inner, hs⟩ ⟨_, hs'⟩ ⟨rfl, alike⟩
    exact (agree_noneLeft alike 1).bind fun _ _ _ => .rfl

/-! ### The member that says the kind -/

/-- A member that has been read: its name, and its value as a kind and as any value. -/
structure Given where
  name : Except Malformed String
  kind : Except ReadError NodeKind
  json : Except ReadError Json

/-- Nodes of the same kind as far as they have been read, with related members. -/
def Opening.Alike (L : List (String × Json) → List (String × Json) → Prop) (o o' : Opening) :
    Prop :=
  o.kind = o'.kind ∧ L o.members o'.members

namespace Given

/-- A member of a value. -/
def ofMember (m : String × Json) : Given := ⟨.ok m.1, decodeKind m.2, .ok m.2⟩

def take (o : Opening) (g : Given) : Except ReadError Opening :=
  takeNamed g.name (stepMember g.kind g.json) o

def Alike (R : Json → Json → Prop) (g g' : Given) : Prop :=
  g.name = g'.name ∧ Agree Eq g.kind g'.kind ∧ Agree R g.json g'.json

theorem take_ok_iff {g : Given} {o o' : Opening} :
    take o g = .ok o' ↔ ∃ name, g.name = .ok name ∧
      ((name = tagName ∧ o.kind = none ∧ ∃ k, g.kind = .ok k ∧ { o with kind := some k } = o') ∨
        (name ≠ tagName ∧ ∃ j, g.json = .ok j ∧
          { o with members := (name, j) :: o.members } = o')) := by
  simp only [take, takeNamed, lift, except_bind_ok_iff, mapError_ok_iff]
  refine exists_congr fun name => and_congr_right fun _ => ?_
  unfold stepMember
  by_cases tag : name = tagName
  · simp [tag, fresh_eq_ok]
  · simp [tag]

theorem take_tag {g : Given} {name : String} {k : NodeKind} (o : Opening)
    (named : g.name = .ok name) (tag : name = tagName) (free : o.kind = none)
    (kind : g.kind = .ok k) : take o g = .ok { o with kind := some k } :=
  take_ok_iff.mpr ⟨name, named, .inl ⟨tag, free, k, kind, rfl⟩⟩

theorem take_other {g : Given} {name : String} {j : Json} (o : Opening)
    (named : g.name = .ok name) (other : name ≠ tagName) (json : g.json = .ok j) :
    take o g = .ok { o with members := (name, j) :: o.members } :=
  take_ok_iff.mpr ⟨name, named, .inr ⟨other, j, json, rfl⟩⟩

/-- Of two members that say the kind the second is refused; others only change places. -/
theorem take_take {g g' : Given} {o o' : Opening}
    (taken : (take o g >>= fun o => take o g') = .ok o') :
    ∃ o'', (take o g' >>= fun o => take o g) = .ok o'' ∧ Opening.Alike List.Perm o' o'' := by
  obtain ⟨o₁, first, second⟩ := bind_ok_iff.mp taken
  obtain ⟨name, named, first⟩ := take_ok_iff.mp first
  obtain ⟨name', named', second⟩ := take_ok_iff.mp second
  rcases first with ⟨tag, free, k, kind, rfl⟩ | ⟨other, j, json, rfl⟩ <;>
    rcases second with ⟨tag', free', k', kind', rfl⟩ | ⟨other', j', json', rfl⟩
  · cases free'
  · have earlier := take_other o named' other' json'
    have later := take_tag { o with members := (name', j') :: o.members } named tag free kind
    exact ⟨_, bind_ok_iff.mpr ⟨_, earlier, later⟩, rfl, .refl _⟩
  · have earlier := take_tag o named' tag' free' kind'
    have later := take_other { o with kind := some k' } named other json
    exact ⟨_, bind_ok_iff.mpr ⟨_, earlier, later⟩, rfl, .refl _⟩
  · have earlier := take_other o named' other' json'
    have later := take_other { o with members := (name', j') :: o.members } named other json
    exact ⟨_, bind_ok_iff.mpr ⟨_, earlier, later⟩, rfl, .swap _ _ _⟩

theorem agree_take_swap (o : Opening) (g g' : Given) :
    Agree (Opening.Alike List.Perm) (take o g >>= fun o => take o g')
      (take o g' >>= fun o => take o g) := by
  cases taken : take o g >>= fun o => take o g' with
  | ok o' =>
    obtain ⟨o'', taken', same⟩ := take_take taken
    exact taken' ▸ .ok same
  | error e =>
    cases taken' : take o g' >>= fun o => take o g with
    | ok o' =>
      obtain ⟨o'', refused, _⟩ := take_take taken'
      cases taken.symm.trans refused
    | error => exact .error

theorem agree_take {R : Json → Json → Prop} {L : List (String × Json) → List (String × Json) → Prop}
    (push : ∀ name j j' ms ms', R j j' → L ms ms' → L ((name, j) :: ms) ((name, j') :: ms'))
    {g g' : Given} (alike : g.Alike R g') {o o' : Opening} (same : o.Alike L o') :
    Agree (Opening.Alike L) (take o g) (take o' g') := by
  obtain ⟨name, kind, json⟩ := alike
  obtain ⟨sameKind, members⟩ := same
  unfold take takeNamed stepMember
  rw [name, sameKind]
  refine Agree.rfl.bind fun name name' eq => ?_
  subst eq
  split
  · refine Agree.rfl.bind fun _ _ _ => kind.map fun k k' eq => ?_
    exact ⟨congrArg some eq, members⟩
  · exact json.map fun j j' related => ⟨rfl, push name j j' _ _ related members⟩

end Given

/-- The node of some members, one of which says its kind. -/
def ofGiven (gs : List Given) : Except ReadError Filter := do
  let o ← gs.foldlM Given.take {}
  let kind ← required tagName o.kind
  ofMembers kind (holdMembers o.members.reverse)

theorem foldlM_take (ms : List (String × Json)) (o : Opening) :
    ((ms.map Given.ofMember).foldlM Given.take o).map
        (fun o => (o.kind, holdMembers o.members.reverse)) =
      (splitTag o.kind (holdMembers ms)).map fun p => (p.1, holdMembers o.members.reverse ++ p.2) := by
  induction ms generalizing o with
  | nil => simp [holdMembers, splitTag, pure, Except.pure, Except.map]
  | cons m ms ih =>
    rw [List.map_cons, List.foldlM_cons, holdMembers, splitTag]
    change ((stepMember (decodeKind m.2) (.ok m.2) m.1 o).bind _).map _ = _
    by_cases tag : m.1 = tagName
    · rw [stepMember, if_pos tag, if_pos tag]
      cases fresh tagName o.kind with
      | error => rfl
      | ok =>
        cases decodeKind m.2 with
        | error => rfl
        | ok kind => exact ih { o with kind := some kind }
    · rw [stepMember, if_neg tag, if_neg tag]
      change ((ms.map Given.ofMember).foldlM Given.take _).map _ = _
      rw [ih]
      cases splitTag o.kind (holdMembers ms) with
      | error => rfl
      | ok p => simp [holdMembers_eq_map, Except.map]

theorem ofJson_object (ms : List (String × Json)) :
    ofJson (.object ms) = ofGiven (ms.map Given.ofMember) := by
  have given : ofGiven (ms.map Given.ofMember) =
      (((ms.map Given.ofMember).foldlM Given.take {}).map
        fun o => (o.kind, holdMembers o.members.reverse)).bind
        fun p => (required tagName p.1).bind fun kind => ofMembers kind p.2 := by
    unfold ofGiven
    cases (ms.map Given.ofMember).foldlM Given.take {} <;> rfl
  rw [given, foldlM_take, ofJson]
  cases splitTag none (holdMembers ms) <;> rfl

theorem agree_foldlM_take {R : Json → Json → Prop} {gs ordered gs' : List Given}
    (perm : gs.Perm ordered) (alike : List.Forall₂ (Given.Alike R) ordered gs') :
    Agree (Opening.Alike (Reordered R)) (gs.foldlM Given.take {}) (gs'.foldlM Given.take {}) := by
  -- First the members change places, then each is replaced by its like.
  have equiv : Equivalence (Opening.Alike List.Perm) :=
    ⟨fun o => ⟨rfl, .refl _⟩, fun h => ⟨h.1.symm, h.2.symm⟩,
      fun h h' => ⟨h.1.trans h'.1, h.2.trans h'.2⟩⟩
  have same : ∀ g : Given, g.Alike Eq g := fun g => ⟨rfl, .rfl, .rfl⟩
  have swapped : Agree (Opening.Alike List.Perm) (gs.foldlM Given.take {})
      (ordered.foldlM Given.take {}) := by
    refine .foldlM_perm equiv (fun g o o' => Given.agree_take ?_ (same g)) Given.agree_take_swap perm
      (equiv.refl {})
    rintro name j _ ms ms' rfl perm
    exact perm.cons _
  have replaced : Agree (Opening.Alike (List.Forall₂ (SameName R))) (ordered.foldlM Given.take {})
      (gs'.foldlM Given.take {}) := by
    have push : ∀ name j j' ms ms', R j j' → List.Forall₂ (SameName R) ms ms' →
        List.Forall₂ (SameName R) ((name, j) :: ms) ((name, j') :: ms') :=
      fun name j j' ms ms' related rest => .cons ⟨rfl, related⟩ rest
    have start : Opening.Alike (List.Forall₂ (SameName R)) {} {} := ⟨rfl, .nil⟩
    have each : ∀ g g', g.Alike R g' → ∀ o o', Opening.Alike (List.Forall₂ (SameName R)) o o' →
        Agree (Opening.Alike (List.Forall₂ (SameName R))) (Given.take o g) (Given.take o' g') :=
      fun g g' related o o' => Given.agree_take push related
    exact .foldlM each alike start
  refine swapped.trans (fun o o₁ o' h h' => ?_) replaced
  exact ⟨h.1.trans h'.1, o₁.members, h.2, h'.2⟩

/-- The order of the members does not count, where the kind may stand anywhere among them. -/
theorem agree_ofGiven {gs ordered gs' : List Given} (perm : gs.Perm ordered)
    (alike : List.Forall₂ (Given.Alike fun j j' => Shuffled j j' ∧ Agree Eq (ofJson j) (ofJson j'))
      ordered gs') : Agree Eq (ofGiven gs) (ofGiven gs') := by
  refine (agree_foldlM_take perm alike).bind fun o o' ⟨kind, ordered, perm, alike⟩ => ?_
  rw [kind]
  refine Agree.rfl.bind fun kind _ same => same ▸ ?_
  rw [holdMembers_eq_map, holdMembers_eq_map]
  refine agree_ofMembers kind ((o.members.reverse_perm.trans (perm.trans
    ordered.reverse_perm.symm)).map _) ?_
  rw [List.forall₂_map_left_iff, List.forall₂_map_right_iff, List.forall₂_reverse_iff]
  exact alike

/-- The same tree, whatever the order of members inside objects. -/
theorem agree_ofJson {j j' : Json} (h : Shuffled j j') : Agree Eq (ofJson j) (ofJson j') := by
  induction h using Shuffled.induct with
  | flat => exact .rfl
  | array js js' alike =>
    cases alike with
    | nil => exact .rfl
    | @cons j j' js js' first others =>
      rw [ofJson, ofJson, holdItems_eq_map, holdItems_eq_map]
      refine first.1.decodeKind.bind fun kind _ same => same ▸ agree_ofItems kind ?_
      rw [List.forall₂_map_left_iff, List.forall₂_map_right_iff]
      exact others.imp fun j j' h => ⟨h.1, h.2⟩
  | object ms ordered ms' perm alike =>
    rw [ofJson_object, ofJson_object]
    refine agree_ofGiven (perm.map _) ?_
    rw [List.forall₂_map_left_iff, List.forall₂_map_right_iff]
    exact alike.imp fun m m' h => ⟨congrArg Except.ok h.1, h.2.1.decodeKind, .ok ⟨h.2.1, h.2.2⟩⟩

end Filter

end ScimQuery
