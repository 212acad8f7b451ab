import ScimQuery.Proofs.NodeFields
import ScimQuery.Proofs.WrittenFilter

/-!
# Read filters

Whatever the text, the filter that is read from it is no higher than the limit on open lists and
objects leaves room for, and it holds no value that JSON has no text for. With the filters that
were written this is `request_round_trip`.
-/

namespace ScimQuery

open Json

namespace Filter

/-- A filter that fits into so many open lists and objects, without a value that is not kept. -/
def Fits (n : Nat) (f : Filter) : Prop :=
  f.height + 1 ≤ n ∧ ∀ s, some s ∈ f.values → s.isKept = true

theorem fits_logical {n : Nat} {left right : Filter} (connective : Connective)
    (first : left.Fits n) (second : right.Fits n) :
    (logical left connective right).Fits (n + 1) := by
  refine ⟨Nat.succ_le_succ (Nat.max_lt.mpr ⟨first.1, second.1⟩), fun s given => ?_⟩
  exact (List.mem_append.mp given).elim (first.2 s) (second.2 s)

theorem fits_valuePath {n : Nat} {inner : Filter} (path : AttributePath) (h : inner.Fits n) :
    (valuePath path inner).Fits (n + 1) :=
  ⟨Nat.succ_le_succ h.1, h.2⟩

theorem fits_negation {n : Nat} {inner : Filter} (h : inner.Fits n) :
    (negation inner).Fits (n + 1) :=
  ⟨Nat.succ_le_succ h.1, h.2⟩

theorem fits_condition {n : Nat} {c : Condition} (path : 1 ≤ n)
    (kept : ∀ s, c.value = some s → s.isKept = true) : (condition c).Fits (n + 1) :=
  ⟨Nat.succ_le_succ path, fun s given => kept s (List.mem_singleton.mp given).symm⟩

/-- A value that has been read where so many lists and objects could be opened. -/
def Held.Within (n : Nat) (h : Held) : Prop :=
  h.json.Sound n ∧ ∀ f, h.node = .ok f → f.Fits n

end Filter

/-! ### Parts of a condition -/

theorem AttributePath.pos_of_ofJson {j : Json} {n : Nat} {p : AttributePath} (sound : j.Sound n)
    (read : ofJson j = .ok p) : 1 ≤ n := by
  have deep := sound.1
  cases j with
  | array js =>
    rw [depth] at deep
    omega
  | object ms =>
    rw [depth] at deep
    omega
  | null | bool | number | string => cases read

theorem Scalar.isKept_of_ofJson {j : Json} {n : Nat} {s : Scalar} (sound : j.Sound n)
    (present : j ≠ .null) (read : ofJson j = .ok s) : s.isKept = true := by
  cases j with
  | null => exact absurd rfl present
  | bool b =>
    obtain rfl := Except.ok.inj read
    rfl
  | string t =>
    obtain rfl := Except.ok.inj read
    rfl
  | number m =>
    have spelled : m.Sound := sound.2 m (List.mem_singleton.mpr rfl)
    cases m with
    | integer i =>
      rw [ofJson] at read
      split at read
      · obtain rfl := Except.ok.inj read
        rfl
      · obtain rfl := Except.ok.inj read
        have size : i.toNat < UInt64.size := by
          have greatest : i < 2 ^ 64 := spelled.2
          simp only [UInt64.size]
          omega
        exact (Decimal.bounded_whole size).isFinite
    | decimal x =>
      obtain rfl := Except.ok.inj read
      exact spelled
  | array | object => cases read

theorem Scalar.isKept_of_asOption {j : Json} {n : Nat} {v : Option Scalar} (sound : j.Sound n)
    (read : asOption ofJson j = .ok v) : ∀ s, v = some s → s.isKept = true := by
  rintro s rfl
  unfold asOption at read
  split at read
  · cases read
  · next present =>
    obtain ⟨_, decoded, same⟩ := except_map_ok_iff.mp read
    obtain rfl := Option.some.inj same
    exact isKept_of_ofJson sound present decoded

namespace Filter

/-! ### Nodes -/

/-- What the fields of a node hold is within the bounds. -/
structure Draft.Within (n : Nat) (d : Draft) : Prop where
  path : ∀ p, d.path = some p → 1 ≤ n
  value : ∀ s, d.value = some (some s) → s.isKept = true
  left : ∀ f, d.left = some f → f.Fits n
  right : ∀ f, d.right = some f → f.Fits n
  inner : ∀ f, d.inner = some f → f.Fits n

theorem Draft.within_empty (n : Nat) : Draft.Within n {} := by
  constructor <;> exact nofun

theorem within_slots {n : Nat} (kind : NodeKind) : ∀ s ∈ slots kind, ∀ (d : Draft) (h : Held) v,
    d.Within n → h.Within n → s.2.decode h = .ok v → (s.2.set d v).Within n := by
  have fits {h : Held} {f : Filter} (held : h.Within n) (decoded : h.node = .ok f) :
      ∀ g, some f = some g → g.Fits n := by
    intro g given
    rw [← Option.some.inj given]
    exact held.2 f decoded
  have path (d : Draft) (h : Held) (p : AttributePath) (within : d.Within n) (held : h.Within n)
      (decoded : AttributePath.ofJson h.json = .ok p) : { d with path := some p }.Within n :=
    { within with path := fun _ _ => AttributePath.pos_of_ofJson held.1 decoded }
  have inner (d : Draft) (h : Held) (f : Filter) (within : d.Within n) (held : h.Within n)
      (decoded : h.node = .ok f) : { d with inner := some f }.Within n :=
    { within with inner := fits held decoded }
  cases kind <;>
    simp only [slots, List.forall_mem_cons, List.not_mem_nil, false_implies, implies_true, and_true]
  case condition =>
    refine ⟨path, fun d h o within held decoded => { within with }, ?_⟩
    intro d h v within held decoded
    refine { within with value := fun s given => ?_ }
    exact Scalar.isKept_of_asOption held.1 decoded s (Option.some.inj given)
  case logical =>
    refine ⟨fun d h f within held decoded => { within with left := fits held decoded },
      fun d h c within held decoded => { within with },
      fun d h f within held decoded => { within with right := fits held decoded }⟩
  case valuePath => exact ⟨path, inner⟩
  case negation => exact inner

theorem within_fillNamed {n : Nat} {kind : NodeKind} {d d' : Draft} {m : String × Held}
    (held : m.2.Within n) (within : d.Within n) (filled : fillNamed (slots kind) d m = .ok d') :
    d'.Within n := by
  rcases fillNamed_ok_iff.mp filled with ⟨_, rfl⟩ | ⟨slot, found, _, v, decoded, rfl⟩
  · exact within
  · exact within_slots kind _ (mem_of_lookup found) d m.2 v within held decoded

theorem required_ok_iff {name : String} {slot : Option α} {a : α} :
    required name slot = .ok a ↔ slot = some a := by
  cases slot with
  | none => exact ⟨nofun, nofun⟩
  | some b =>
    constructor
    · exact fun h => congrArg some (Except.ok.inj h)
    · exact fun h => congrArg Except.ok (Option.some.inj h)

theorem fits_ofMembers {n : Nat} {kind : NodeKind} {ms : List (String × Held)} {f : Filter}
    (held : ∀ m ∈ ms, m.2.Within n) (read : ofMembers kind ms = .ok f) : f.Fits (n + 1) := by
  rw [ofMembers_eq] at read
  obtain ⟨d, filled, read⟩ := bind_ok_iff.mp read
  have within := foldlM_invariant (fun member => within_fillNamed (held _ member))
    (Draft.within_empty n) filled
  cases kind with
  | condition =>
    obtain ⟨path, hasPath, read⟩ := bind_ok_iff.mp read
    obtain ⟨operator, _, same⟩ := bind_ok_iff.mp read
    obtain rfl := pure_ok_iff.mp same
    refine fits_condition (within.path path (required_ok_iff.mp hasPath)) fun s given => ?_
    exact within.value s (Option.join_eq_some_iff.mp given)
  | logical =>
    obtain ⟨left, hasLeft, read⟩ := bind_ok_iff.mp read
    obtain ⟨connective, _, read⟩ := bind_ok_iff.mp read
    obtain ⟨right, hasRight, same⟩ := bind_ok_iff.mp read
    obtain rfl := pure_ok_iff.mp same
    exact fits_logical connective (within.left left (required_ok_iff.mp hasLeft))
      (within.right right (required_ok_iff.mp hasRight))
  | valuePath =>
    obtain ⟨path, _, read⟩ := bind_ok_iff.mp read
    obtain ⟨inner, hasInner, same⟩ := bind_ok_iff.mp read
    obtain rfl := pure_ok_iff.mp same
    exact fits_valuePath path (within.inner inner (required_ok_iff.mp hasInner))
  | negation =>
    obtain ⟨inner, hasInner, same⟩ := bind_ok_iff.mp read
    obtain rfl := pure_ok_iff.mp same
    exact fits_negation (within.inner inner (required_ok_iff.mp hasInner))

theorem nextField_ok {absent : Except ReadError α} {decode : β → Except ReadError α}
    {js js' : List β} {a : α} (h : nextField absent decode js = .ok (a, js')) :
    (absent = .ok a ∧ js' = []) ∨ ∃ j, js = j :: js' ∧ decode j = .ok a := by
  unfold nextField at h
  split at h
  · obtain ⟨_, ended, same⟩ := except_map_ok_iff.mp h
    obtain ⟨rfl, rfl⟩ := Prod.mk.inj same
    exact .inl ⟨ended, rfl⟩
  · next j js =>
    obtain ⟨_, decoded, same⟩ := except_map_ok_iff.mp h
    obtain ⟨rfl, rfl⟩ := Prod.mk.inj same
    exact .inr ⟨j, rfl, decoded⟩

theorem nextField_required {title : String} {size k : Nat} {decode : β → Except ReadError α}
    {js js' : List β} {a : α} (h : nextField (tooShort title size k) decode js = .ok (a, js')) :
    ∃ j, js = j :: js' ∧ decode j = .ok a := by
  rcases nextField_ok h with ⟨short, _⟩ | present
  · cases short
  · exact present

theorem fits_ofItems {n : Nat} {kind : NodeKind} {hs : List Held} {f : Filter}
    (held : ∀ h ∈ hs, h.Within n) (read : ofItems kind hs = .ok f) : f.Fits (n + 1) := by
  unfold ofItems at read
  cases kind with
  | condition =>
    obtain ⟨⟨path, _⟩, first, read⟩ := bind_ok_iff.mp read
    obtain ⟨⟨operator, _⟩, second, read⟩ := bind_ok_iff.mp read
    obtain ⟨⟨value, _⟩, third, read⟩ := bind_ok_iff.mp read
    obtain ⟨_, _, same⟩ := bind_ok_iff.mp read
    obtain rfl := pure_ok_iff.mp same
    obtain ⟨h, rfl, hasPath⟩ := nextField_required first
    obtain ⟨h', rfl, _⟩ := nextField_required second
    refine fits_condition (AttributePath.pos_of_ofJson (held h List.mem_cons_self).1 hasPath) ?_
    rcases nextField_ok third with ⟨absent, _⟩ | ⟨h'', rfl, given⟩
    · obtain rfl := Except.ok.inj absent
      exact nofun
    · exact Scalar.isKept_of_asOption (held h'' (by simp)).1 given
  | logical =>
    obtain ⟨⟨left, _⟩, first, read⟩ := bind_ok_iff.mp read
    obtain ⟨⟨connective, _⟩, second, read⟩ := bind_ok_iff.mp read
    obtain ⟨⟨right, _⟩, third, read⟩ := bind_ok_iff.mp read
    obtain ⟨_, _, same⟩ := bind_ok_iff.mp read
    obtain rfl := pure_ok_iff.mp same
    obtain ⟨h, rfl, isLeft⟩ := nextField_required first
    obtain ⟨h', rfl, _⟩ := nextField_required second
    obtain ⟨h'', rfl, isRight⟩ := nextField_required third
    exact fits_logical connective ((held h (by simp)).2 left isLeft)
      ((held h'' (by simp)).2 right isRight)
  | valuePath =>
    obtain ⟨⟨path, _⟩, first, read⟩ := bind_ok_iff.mp read
    obtain ⟨⟨inner, _⟩, second, read⟩ := bind_ok_iff.mp read
    obtain ⟨_, _, same⟩ := bind_ok_iff.mp read
    obtain rfl := pure_ok_iff.mp same
    obtain ⟨h, rfl, _⟩ := nextField_required first
    obtain ⟨h', rfl, isInner⟩ := nextField_required second
    exact fits_valuePath path ((held h' (by simp)).2 inner isInner)
  | negation =>
    obtain ⟨⟨inner, _⟩, first, read⟩ := bind_ok_iff.mp read
    obtain ⟨_, _, same⟩ := bind_ok_iff.mp read
    obtain rfl := pure_ok_iff.mp same
    obtain ⟨h, rfl, isInner⟩ := nextField_required first
    exact fits_negation ((held h (by simp)).2 inner isInner)

theorem mem_of_splitTag {ms ms' : List (String × Held)} {kind kind' : Option NodeKind}
    (h : splitTag kind ms = .ok (kind', ms')) : ∀ m ∈ ms', m ∈ ms := by
  induction ms generalizing kind kind' ms' with
  | nil =>
    obtain ⟨_, rfl⟩ := Prod.mk.inj (Except.ok.inj h)
    exact nofun
  | cons m ms ih =>
    rw [splitTag] at h
    split at h
    · obtain ⟨_, _, h⟩ := bind_ok_iff.mp h
      obtain ⟨_, _, h⟩ := bind_ok_iff.mp h
      exact fun m' member => List.mem_cons_of_mem m (ih h m' member)
    · obtain ⟨⟨_, ms'⟩, others, same⟩ := except_map_ok_iff.mp h
      obtain ⟨_, rfl⟩ := Prod.mk.inj same
      refine List.forall_mem_cons.mpr ⟨List.mem_cons_self, fun m' member => ?_⟩
      exact List.mem_cons_of_mem m (ih others m' member)

theorem sound_items {n : Nat} {js : List Json} (h : (Json.array js).Sound n) :
    ∃ k, n = k + 1 ∧ ∀ j ∈ js, j.Sound k := by
  obtain ⟨deep, spelled⟩ := h
  rw [depth] at deep
  obtain ⟨k, rfl⟩ := Nat.exists_eq_succ_of_ne_zero (by omega : n ≠ 0)
  refine ⟨k, rfl, fun j member => ⟨?_, fun m inside => ?_⟩⟩
  · exact depthItems_le_iff.mp (Nat.le_of_succ_le_succ deep) j member
  · exact spelled m (mem_numbersItems.mpr ⟨j, member, inside⟩)

theorem sound_members {n : Nat} {ms : List (String × Json)} (h : (Json.object ms).Sound n) :
    ∃ k, n = k + 1 ∧ ∀ m ∈ ms, m.2.Sound k := by
  obtain ⟨deep, spelled⟩ := h
  rw [depth] at deep
  obtain ⟨k, rfl⟩ := Nat.exists_eq_succ_of_ne_zero (by omega : n ≠ 0)
  refine ⟨k, rfl, fun m member => ⟨?_, fun i inside => ?_⟩⟩
  · exact depthMembers_le_iff.mp (Nat.le_of_succ_le_succ deep) m member
  · exact spelled i (mem_numbersMembers.mpr ⟨m, member, inside⟩)

theorem fits_ofJson {n : Nat} {j : Json} {f : Filter} (sound : j.Sound n)
    (read : ofJson j = .ok f) : f.Fits n := by
  -- Each part of a node is one level below it, so it fits where one level less is left.
  induction j using induct generalizing n f with
  | null => cases read
  | bool => cases read
  | number => cases read
  | string => cases read
  | array js ih =>
    obtain ⟨k, rfl, items⟩ := sound_items sound
    rw [ofJson, holdItems_eq_map] at read
    cases js with
    | nil => cases read
    | cons j js =>
      obtain ⟨kind, _, read⟩ := bind_ok_iff.mp read
      refine fits_ofItems (fun h member => ?_) read
      obtain ⟨i, inside, rfl⟩ := List.mem_map.mp member
      have present := List.mem_cons_of_mem j inside
      exact ⟨items i present, fun f decoded => ih i present (items i present) decoded⟩
  | object ms ih =>
    obtain ⟨k, rfl, members⟩ := sound_members sound
    rw [ofJson, holdMembers_eq_map] at read
    obtain ⟨⟨kind?, others⟩, parted, read⟩ := bind_ok_iff.mp read
    obtain ⟨kind, _, read⟩ := bind_ok_iff.mp read
    refine fits_ofMembers (fun m member => ?_) read
    obtain ⟨i, inside, rfl⟩ := List.mem_map.mp (mem_of_splitTag parted m member)
    exact ⟨members i inside, fun f decoded => ih i inside (members i inside) decoded⟩

/-! ### The outermost node -/

theorem sound_members_readMember {d : Nat} {text rest : List Char} {o : Opening}
    (read : Json.members (readMember d) {} text = .ok (o, rest)) :
    ∀ m ∈ o.members, m.2.Sound d := by
  have start : ∀ m ∈ (({} : Opening).members), m.2.Sound d := fun _ member => nomatch member
  refine @membersFrom_invariant _ (fun o : Opening => ∀ m ∈ o.members, m.2.Sound d) _ ?_
    _ _ _ _ _ _ start read
  intro name o text o' rest sound one
  unfold readMember at one
  split at one
  · obtain ⟨_, _, same⟩ := bind_ok_iff.mp one
    obtain ⟨rfl, _⟩ := Prod.mk.inj (pure_ok_iff.mp same)
    exact sound
  · obtain ⟨_, _, one⟩ := bind_ok_iff.mp one
    obtain ⟨⟨j, _⟩, inner, same⟩ := bind_ok_iff.mp one
    obtain ⟨rfl, _⟩ := Prod.mk.inj (pure_ok_iff.mp same)
    exact List.forall_mem_cons.mpr ⟨sound_value inner, sound⟩

theorem fits_read {d : Nat} {text rest : List Char} {f : Filter}
    (read : Filter.read d text = .ok (f, rest)) : f.Fits d := by
  unfold Filter.read opened at read
  split at read
  · cases read
  · cases read
  · next text d _ =>
    obtain ⟨⟨kind, text'⟩, _, read⟩ := bind_ok_iff.mp read
    obtain ⟨⟨js, _⟩, items, read⟩ := bind_ok_iff.mp read
    obtain ⟨f, decoded, same⟩ := bind_ok_iff.mp read
    obtain ⟨rfl, _⟩ := Prod.mk.inj (pure_ok_iff.mp same)
    have sound : ∀ j ∈ js, j.Sound d := itemsFrom_forall sound_value items
    refine fits_ofItems (fun h member => ?_) decoded
    rw [holdItems_eq_map] at member
    obtain ⟨j, inside, rfl⟩ := List.mem_map.mp member
    exact ⟨sound j inside, fun f => fits_ofJson (sound j inside)⟩
  · next text d _ =>
    obtain ⟨⟨o, _⟩, members, read⟩ := bind_ok_iff.mp read
    obtain ⟨kind, _, read⟩ := bind_ok_iff.mp read
    obtain ⟨f, decoded, same⟩ := bind_ok_iff.mp read
    obtain ⟨rfl, _⟩ := Prod.mk.inj (pure_ok_iff.mp same)
    have sound := sound_members_readMember members
    refine fits_ofMembers (fun h member => ?_) decoded
    rw [holdMembers_eq_map] at member
    obtain ⟨m, inside, rfl⟩ := List.mem_map.mp member
    have within := sound m (List.mem_reverse.mp inside)
    exact ⟨within, fun f => fits_ofJson within⟩
  · exact absurd read unexpected_ne_ok

theorem fits_parse {text : String} {f : Filter} (read : Filter.parse text = .ok (some f)) :
    f.Fits depthLimit := by
  obtain ⟨⟨f?, rest⟩, inner, ended⟩ := bind_ok_iff.mp read
  dsimp only at ended
  split at ended
  · obtain rfl := pure_ok_iff.mp ended
    unfold readOption at inner
    split at inner
    · obtain ⟨_, _, same⟩ := bind_ok_iff.mp inner
      cases (Prod.mk.inj (pure_ok_iff.mp same)).1
    · obtain ⟨⟨g, _⟩, root, same⟩ := bind_ok_iff.mp inner
      obtain rfl := Option.some.inj (Prod.mk.inj (pure_ok_iff.mp same)).1
      exact fits_read root
  · cases ended

/-- Written filters read back without the values that JSON has no text for, or are refused for
their height alone, as text that is nested too deep; and whatever text a filter is read from, it has
neither. -/
theorem request_round_trip :
    (∀ f : Filter, f.FloatsReadBack →
      ofRequest f.toJson.compact =
        if f.height ≤ 126 then .ok (some f.normal)
        else .error (.ofRead (.malformed .tooDeep))) ∧
    ∀ text f, ofRequest text = .ok (some f) →
      f.height ≤ 126 ∧ some .null ∉ f.values ∧
        ∀ x, some (.decimal x) ∈ f.values → x.isFinite = true := by
  constructor
  · intro f floats
    rw [ofRequest, parse_written floats]
    split <;> rfl
  · intro text f read
    obtain ⟨low, kept⟩ := fits_parse (mapError_ok_iff.mp read)
    refine ⟨Nat.le_of_succ_le_succ low, fun given => ?_, fun x given => kept _ given⟩
    cases kept .null given

/-- `not (emails[value co "\"\n\u0001é" or score ge 1.5]) and (count le -9223372036854775808 and
(note eq null or rate lt ∞))`. -/
def deliveredFilter : Filter :=
  .logical
    (.negation (.valuePath { name := "emails" }
      (.logical (.condition ⟨{ name := "value" }, .co, some (.string "\"\n\x01é")⟩) .or
        (.condition ⟨{ name := "score", schema := some "urn:x" }, .ge, some (.decimal 1.5)⟩))))
    .and
    (.logical (.condition ⟨{ name := "count" }, .le, some (.integer (-9223372036854775808))⟩) .and
      (.logical (.condition ⟨{ name := "note", sub := some "text" }, .eq, some .null⟩) .or
        (.condition ⟨{ name := "rate" }, .lt, some (.decimal (1.0 / 0.0))⟩)))

theorem deliveredFilter_round_trip :
    deliveredFilter.FloatsReadBack ∧ deliveredFilter.height ≤ 126 ∧
      ofRequest deliveredFilter.toJson.compact = .ok (some deliveredFilter.normal) ∧
      some .null ∉ deliveredFilter.normal.values := by
  have floats : deliveredFilter.FloatsReadBack := by
    intro x given finite
    have listed : some (Scalar.decimal x) ∈
        [some (.string "\"\n\x01é"), some (.decimal 1.5), some (.integer (-9223372036854775808)),
          some .null, some (.decimal (1.0 / 0.0))] := given
    simp only [List.mem_cons, Option.some.injEq, Scalar.decimal.injEq, reduceCtorEq, false_or,
      List.not_mem_nil, or_false] at listed
    rcases listed with rfl | rfl
    · have text : (Json.decimal 1.5).compact = "1.5" := by decide +kernel
      rw [text]
      rfl
    · exact absurd finite (by decide)
  have low : deliveredFilter.height ≤ 126 := by decide
  have read := request_round_trip.1 deliveredFilter floats
  rw [if_pos low] at read
  exact ⟨floats, low, read, (request_round_trip.2 _ _ read).2.1⟩

end Filter

end ScimQuery
