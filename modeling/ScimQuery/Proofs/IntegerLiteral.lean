import ScimQuery.Proofs.Binding
import ScimQuery.Proofs.ReadFilter
import ScimQuery.Proofs.RequestFilter

/-!
# Integer literals

A whole number that is written out in a condition is bound as just this number or not as an integer
at all. Where it leaves the range of a column it is refused, and only a text column takes it as a
float (`integer_literal`).
-/

namespace ScimQuery

open Json

/-! ### Numbers of literals -/

namespace Json

/-- An integer as JSON writes it: digits without zeros in front, maybe behind a minus. Minus zero is
no integer. -/
inductive IntegerText : Int → List Char → Prop where
  | plain {digits} (whole : WholeText digits) :
      IntegerText (Decimal.ofDigits (digits.map Decimal.digitValue)) digits
  | minus {digits} (whole : WholeText digits) (nonzero : digits ≠ ['0']) :
      IntegerText (-Decimal.ofDigits (digits.map Decimal.digitValue)) ('-' :: digits)

/-- The number that an integer is read as: a float beyond 64 bits. -/
inductive Number.OfInteger (n : Int) : Number → Prop where
  | integer (least : -2 ^ 63 ≤ n) (greatest : n < 2 ^ 64) : OfInteger n (.integer n)
  | decimal (x : Float) (beyond : ¬(-2 ^ 63 ≤ n ∧ n < 2 ^ 64)) : OfInteger n (.decimal x)

/-- The digits that are absorbed make up their number if none are left over. -/
theorem absorb_spent {s : Nat} {ds : List Nat} (spent : (absorb s ds).2 = []) :
    (absorb s ds).1 = ds.foldl (fun n d => n * 10 + d) s := by
  induction ds generalizing s with
  | nil => rfl
  | cons d ds ih =>
    rw [absorb] at spent ⊢
    split
    · next fits =>
      rw [if_pos fits] at spent
      exact ih spent
    · next full =>
      rw [if_neg full] at spent
      cases spent

theorem spent_iff {ds : List Nat} : (absorb 0 ds).2 = [] ↔ Decimal.ofDigits ds < 2 ^ 64 := by
  constructor
  · intro spent
    have value : (absorb 0 ds).1 = Decimal.ofDigits ds := absorb_spent spent
    have size : (absorb 0 ds).1 < UInt64.size := absorb_lt ds (by decide)
    exact value ▸ size
  · intro small
    have fits : ds.foldl (fun n d => n * 10 + d) 0 < UInt64.size := small
    rw [absorb_all fits]

theorem Numeral.value_small {ds : List Nat} (small : Decimal.ofDigits ds < 2 ^ 64)
    (negative : Bool) :
    value ⟨ds, none, none⟩ negative =
      if !negative then some (.integer (Decimal.ofDigits ds))
      else if 0 < Decimal.ofDigits ds && Decimal.ofDigits ds ≤ Nat.pow 2 63 then
        some (.integer (-Decimal.ofDigits ds))
      else some (.decimal (-Decimal.whole (Decimal.ofDigits ds))) := by
  have spent := spent_iff.mpr small
  have whole : absorb 0 ds = (Decimal.ofDigits ds, []) := Prod.ext (absorb_spent spent) spent
  simp only [value, whole]
  rfl

theorem Numeral.decimal_of_large {ds : List Nat} (large : ¬Decimal.ofDigits ds < 2 ^ 64)
    {negative : Bool} {num : Number} (h : value ⟨ds, none, none⟩ negative = some num) :
    ∃ x, num = .decimal x := by
  have left : (absorb 0 ds).2.isEmpty = false := by
    rw [List.isEmpty_eq_false_iff]
    exact mt spent_iff.mp large
  simp only [value, left, Bool.and_false, Bool.false_eq_true, if_false] at h
  obtain ⟨x, _, rfl⟩ := Option.map_eq_some_iff.mp h
  exact ⟨_, rfl⟩

theorem Number.OfInteger.of_plain {ds : List Nat} {num : Number}
    (h : Numeral.value ⟨ds, none, none⟩ false = some num) :
    num.OfInteger (Decimal.ofDigits ds) := by
  by_cases small : Decimal.ofDigits ds < 2 ^ 64
  · rw [Numeral.value_small small] at h
    obtain rfl := Option.some.inj h
    exact .integer (by omega) (by omega)
  · obtain ⟨x, rfl⟩ := Numeral.decimal_of_large small h
    exact .decimal x (by omega)

theorem Number.OfInteger.of_minus {ds : List Nat} (positive : 0 < Decimal.ofDigits ds) {num : Number}
    (h : Numeral.value ⟨ds, none, none⟩ true = some num) :
    num.OfInteger (-Decimal.ofDigits ds) := by
  have least : Nat.pow 2 63 = 2 ^ 63 := rfl
  by_cases small : Decimal.ofDigits ds < 2 ^ 64
  · rw [Numeral.value_small small, Bool.not_true, if_neg Bool.false_ne_true] at h
    split at h
    · next within =>
      rw [Bool.and_eq_true, decide_eq_true_eq, decide_eq_true_eq] at within
      obtain rfl := Option.some.inj h
      exact .integer (by omega) (by omega)
    · next outside =>
      rw [Bool.and_eq_true, decide_eq_true_eq, decide_eq_true_eq] at outside
      obtain rfl := Option.some.inj h
      exact .decimal _ (by omega)
  · obtain ⟨x, rfl⟩ := Numeral.decimal_of_large small h
    exact .decimal x (by omega)

/-- Digits without zeros in front make up a positive number, unless they are zero itself. -/
theorem WholeText.positive {digits : List Char} (whole : WholeText digits)
    (nonzero : digits ≠ ['0']) : 0 < Decimal.ofDigits (digits.map Decimal.digitValue) := by
  cases whole with
  | zero => exact absurd rfl nonzero
  | @run d ds other digits =>
    have digit : d.isDigit = true := digits.2 d List.mem_cons_self
    have first : 0 < Decimal.digitValue d := by
      simp only [Char.isDigit, Bool.and_eq_true, decide_eq_true_eq, ge_iff_le,
        UInt32.le_iff_toNat_le] at digit
      have least : 48 ≤ d.toNat := digit.1
      have differ : d.toNat ≠ 48 := fun same => other (Char.toNat_inj.mp same)
      show 0 < d.toNat - 48
      omega
    have rest := foldl_digits_le (0 * 10 + Decimal.digitValue d) (ds.map Decimal.digitValue)
    rw [List.map_cons, Decimal.ofDigits, List.foldl_cons]
    omega

theorem WholeText.scanNumber {digits : List Char} (whole : WholeText digits) (negative : Bool) :
    Json.scanNumber negative digits =
      (Numeral.number ⟨digits.map Decimal.digitValue, none, none⟩ negative).map
        fun n => (n, []) := by
  have numeral := scanNumeral_parts whole .none .none (rfl : scanExponent [] = .ok (none, []))
  rw [List.append_nil, List.append_nil] at numeral
  exact scanNumber_numeral negative numeral

/-- What reads as a scalar by itself reads as a value. -/
theorem outcome_value_scalar {core : List Char} (h : ScalarText core) (d : Nat) :
    outcome (value d) core = outcome scalar core := by
  have read := value_scalarText h d []
  rw [List.append_nil] at read
  rw [outcome, read, outcome]

theorem outcome_number {numeral : Numeral} {negative : Bool} {j : Json} {text : List Char}
    (scanned : scalar text =
      lift (((numeral.number negative).map fun n => (n, [])).map fun (n, rest) => (.number n, rest)))
    (read : outcome scalar text = .ok j) :
    ∃ num, numeral.value negative = some num ∧ j = .number num := by
  rw [outcome, scanned, Numeral.number] at read
  cases value : numeral.value negative with
  | none =>
    rw [value] at read
    cases read
  | some num =>
    rw [value] at read
    obtain rfl := Except.ok.inj read
    exact ⟨num, rfl, rfl⟩

/-- Each integer has a literal. -/
theorem integerText_toString (n : Int) : IntegerText n (toString n).toList := by
  have whole := wholeText_toDigits n.natAbs
  have value : Decimal.ofDigits ((Nat.toDigits 10 n.natAbs).map Decimal.digitValue) = n.natAbs :=
    ofDigits_toDigits n.natAbs
  rw [toList_toString]
  by_cases negative : n < 0
  · have nonzero : Nat.toDigits 10 n.natAbs ≠ ['0'] := toDigits_ne_zero_cons (by omega) []
    have literal := IntegerText.minus whole nonzero
    have same : -(n.natAbs : Int) = n := by omega
    rw [value, same] at literal
    rw [decide_eq_true negative]
    exact literal
  · have literal := IntegerText.plain whole
    have same : (n.natAbs : Int) = n := by omega
    rw [value, same] at literal
    rw [decide_eq_false negative]
    exact literal

/-- What an integer reads as by itself. -/
theorem ofInteger_of_read {n : Int} {literal : List Char} (spelled : IntegerText n literal)
    {d : Nat} {j : Json} (read : outcome (value d) literal = .ok j) :
    ∃ num, j = .number num ∧ num.OfInteger n := by
  cases spelled with
  | plain whole =>
    have form : ScalarText literal := .number (.inl rfl) whole.numeralText
    obtain ⟨c, cs, rfl, digit⟩ := whole.numeralText.head_isDigit
    have scanned := scalar_digit digit cs
    rw [whole.scanNumber] at scanned
    rw [outcome_value_scalar form] at read
    obtain ⟨num, value, same⟩ := outcome_number scanned read
    exact ⟨num, same, .of_plain value⟩
  | @minus digits whole nonzero =>
    have form : ScalarText ('-' :: digits) := .number (.inr rfl) whole.numeralText
    have scanned := scalar_minus digits
    rw [whole.scanNumber] at scanned
    rw [outcome_value_scalar form] at read
    obtain ⟨num, value, same⟩ := outcome_number scanned read
    exact ⟨num, same, .of_minus (whole.positive nonzero) value⟩

end Json

/-! ### Values of literals -/

/-- The value that an integer is decoded as: a decimal beyond 64 bits with sign. -/
inductive Scalar.OfInteger (n : Int) : Scalar → Prop where
  | integer {i : Int64} (same : i.toInt = n) : OfInteger n (.integer i)
  | decimal (x : Float) (beyond : ¬(-2 ^ 63 ≤ n ∧ n ≤ 2 ^ 63 - 1)) : OfInteger n (.decimal x)

theorem Scalar.ofInteger_of_ofJson {n : Int} {num : Number} (h : num.OfInteger n) {s : Scalar}
    (decoded : ofJson (.number num) = .ok s) : s.OfInteger n := by
  have greatest : Int64.maxValue.toInt = 2 ^ 63 - 1 := by decide
  cases h with
  | integer least below =>
    rw [ofJson, greatest] at decoded
    split at decoded
    · next within =>
      obtain rfl := Except.ok.inj decoded
      exact .integer (Int64.toInt_ofInt_of_le least (by omega))
    · next outside =>
      obtain rfl := Except.ok.inj decoded
      exact .decimal _ fun range => outside range.2
  | decimal x beyond =>
    obtain rfl := Except.ok.inj decoded
    exact .decimal x fun range => beyond ⟨range.1, by omega⟩

/-! ### Conditions as texts -/

namespace Filter

/-- A condition as an object with its members in any order, or as a list. Its value is a literal; the
other parts are any JSON values that may still be opened. -/
inductive LeafText (literal : List Char) : List Char → Prop where
  | object {close} {members : List Named} {m} (blank : Blanks close)
      (names : ∀ m ∈ members, TextBody m.name)
      (inner : ∀ m ∈ members, ValueText 126 m.value.core) (given : m ∈ members)
      (key : m.key = .ok "value") (spelled : m.value.core = literal) :
      LeafText literal ('\x7b' :: (joined (members.map Named.text) ++ (close ++ ['\x7d'])))
  | list {close} {kind path operator value : Padded} {others} (blank : Blanks close)
      (inner : ∀ p ∈ kind :: path :: operator :: value :: others, ValueText 126 p.core)
      (spelled : value.core = literal) :
      LeafText literal ('[' :: (joined ((kind :: path :: operator :: value :: others).map
        Padded.text) ++ (close ++ [']'])))

theorem leafText_compact {ms : List (String × Json)} {n : Int}
    (given : ("value", Json.integer n) ∈ ms) (low : ∀ m ∈ ms, m.2.depth ≤ 126) :
    ∃ p : Padded, p.text = (Json.object ms).compact.toList ∧
      LeafText (toString n).toList p.core := by
  have names : ∀ m ∈ ms.map Named.compact, TextBody m.name := by
    intro m member
    obtain ⟨_, _, rfl⟩ := List.mem_map.mp member
    exact textBody_escaped _
  have inner : ∀ m ∈ ms.map Named.compact, ValueText 126 m.value.core := by
    intro m member
    obtain ⟨o, listed, rfl⟩ := List.mem_map.mp member
    exact (laidOut_compact o.2).valueText (low o listed)
  refine ⟨.bare _, Padded.text_bare _, ?_⟩
  rw [toList_compact_named]
  exact .object .nil names inner (List.mem_map_of_mem given) (Named.key_compact _) rfl

/-- Members stay where they have been put. -/
theorem mem_of_stepMember {kind : Except ReadError NodeKind} {json : Except ReadError Json}
    {key : Except Malformed String} {o o' : Opening} {m : String × Json} (present : m ∈ o.members)
    (step : takeNamed key (stepMember kind json) o = .ok o') : m ∈ o'.members := by
  obtain ⟨name, _, step⟩ := except_bind_ok_iff.mp step
  unfold stepMember at step
  split at step
  · obtain ⟨_, _, step⟩ := except_bind_ok_iff.mp step
    obtain ⟨_, _, rfl⟩ := except_map_ok_iff.mp step
    exact present
  · obtain ⟨_, _, rfl⟩ := except_map_ok_iff.mp step
    exact List.mem_cons_of_mem _ present

theorem kind_of_ofMembers {kind : NodeKind} {ms : List (String × Held)} {f : Filter}
    (read : ofMembers kind ms = .ok f) : f.kind = kind := by
  unfold ofMembers at read
  cases kind <;> simp only [bind_ok_iff, pure_ok_iff] at read
  case condition =>
    obtain ⟨_, _, _, _, _, _, rfl⟩ := read
    rfl
  case logical =>
    obtain ⟨_, _, _, _, _, _, _, _, rfl⟩ := read
    rfl
  case valuePath =>
    obtain ⟨_, _, _, _, _, _, rfl⟩ := read
    rfl
  case negation =>
    obtain ⟨_, _, _, _, rfl⟩ := read
    rfl

theorem kind_of_ofItems {kind : NodeKind} {hs : List Held} {f : Filter}
    (read : ofItems kind hs = .ok f) : f.kind = kind := by
  unfold ofItems at read
  cases kind <;> simp only [bind_ok_iff, pure_ok_iff] at read
  case condition =>
    obtain ⟨_, _, _, _, _, _, _, _, rfl⟩ := read
    rfl
  case logical =>
    obtain ⟨_, _, _, _, _, _, _, _, rfl⟩ := read
    rfl
  case valuePath =>
    obtain ⟨_, _, _, _, _, _, rfl⟩ := read
    rfl
  case negation =>
    obtain ⟨_, _, _, _, rfl⟩ := read
    rfl

theorem value_of_ofMembers {kind : NodeKind} {ms : List (String × Held)} {c : Condition}
    (read : ofMembers kind ms = .ok (.condition c)) {h : Held} (given : ("value", h) ∈ ms) :
    asOption Scalar.ofJson h.json = .ok c.value := by
  obtain rfl := kind_of_ofMembers read
  rw [ofMembers_eq] at read
  obtain ⟨d, filled, read⟩ := bind_ok_iff.mp read
  obtain ⟨path, _, read⟩ := bind_ok_iff.mp read
  obtain ⟨operator, _, same⟩ := bind_ok_iff.mp read
  obtain ⟨v, decoded, taken⟩ :
      ∃ v, asOption Scalar.ofJson h.json = .ok v ∧ d.value = some v :=
    (separate_slots .condition).get_of_fields rfl filled given
  obtain rfl := Filter.condition.inj (pure_ok_iff.mp same)
  rw [decoded, taken]
  rfl

theorem value_of_ofNamed {n : Nat} {members : List Named} {c : Condition}
    (read : ofNamed n members = .ok (.condition c)) {m : Named} (given : m ∈ members)
    (key : m.key = .ok "value") :
    ∃ j, outcome (value n) m.value.core = .ok j ∧ asOption Scalar.ofJson j = .ok c.value := by
  obtain ⟨before, after, rfl⟩ := List.append_of_mem given
  obtain ⟨o, folded, read⟩ := except_bind_ok_iff.mp read
  obtain ⟨kind, _, read⟩ := except_bind_ok_iff.mp read
  rw [List.foldlM_append] at folded
  obtain ⟨o₁, _, folded⟩ := bind_ok_iff.mp folded
  rw [List.foldlM_cons] at folded
  obtain ⟨o₂, taken, folded⟩ := bind_ok_iff.mp folded
  rw [key] at taken
  obtain ⟨j, decoded, rfl⟩ := except_map_ok_iff.mp taken
  have present : ("value", j) ∈ o.members :=
    foldlM_invariant (P := fun o => ("value", j) ∈ o.members)
      (fun _ there step => mem_of_stepMember there step) List.mem_cons_self folded
  have held : ("value", Held.mk j (ofJson j)) ∈ holdMembers o.members.reverse := by
    rw [holdMembers_eq_map]
    exact List.mem_map.mpr ⟨("value", j), List.mem_reverse.mpr present, rfl⟩
  exact ⟨j, decoded, value_of_ofMembers read held⟩

theorem value_of_ofItems {kind : NodeKind} {path operator v : Held} {others : List Held}
    {c : Condition} (read : ofItems kind (path :: operator :: v :: others) = .ok (.condition c)) :
    asOption Scalar.ofJson v.json = .ok c.value := by
  obtain rfl := kind_of_ofItems read
  obtain ⟨⟨_, _⟩, first, read⟩ := bind_ok_iff.mp read
  obtain ⟨⟨_, _⟩, second, read⟩ := bind_ok_iff.mp read
  obtain ⟨⟨_, _⟩, third, read⟩ := bind_ok_iff.mp read
  obtain ⟨_, _, same⟩ := bind_ok_iff.mp read
  obtain rfl := Filter.condition.inj (pure_ok_iff.mp same)
  obtain ⟨_, listed, _⟩ := nextField_required first
  obtain ⟨_, rfl⟩ := List.cons.inj listed
  obtain ⟨_, listed, _⟩ := nextField_required second
  obtain ⟨_, rfl⟩ := List.cons.inj listed
  obtain ⟨_, decoded, same⟩ := except_map_ok_iff.mp third
  obtain ⟨rfl, _⟩ := Prod.mk.inj same
  exact decoded

theorem value_of_ofPadded {n : Nat} {kind path operator v : Padded} {others : List Padded}
    {c : Condition}
    (read : ofPadded n kind (path :: operator :: v :: others) = .ok (.condition c)) :
    ∃ j, outcome (value n) v.core = .ok j ∧ asOption Scalar.ofJson j = .ok c.value := by
  obtain ⟨k, _, read⟩ := except_bind_ok_iff.mp read
  obtain ⟨js, decoded, read⟩ := except_bind_ok_iff.mp read
  simp only [List.mapM_cons, bind_ok_iff, pure_ok_iff] at decoded
  obtain ⟨_, _, _, ⟨_, _, _, ⟨j, third, _, _, rfl⟩, rfl⟩, rfl⟩ := decoded
  rw [holdItems_eq_map] at read
  exact ⟨j, third, value_of_ofItems read⟩

theorem read_of_ofRequest {text : String} {p : Padded} (same : p.text = text.toList) {f : Filter}
    (accepted : ofRequest text = .ok (some f)) :
    ∃ rest, Filter.read depthLimit (skipSpace (p.core ++ p.behind)) = .ok (f, rest) := by
  obtain ⟨⟨f?, rest⟩, inner, ended⟩ := bind_ok_iff.mp (mapError_ok_iff.mp accepted)
  dsimp only at ended
  split at ended
  · obtain rfl := pure_ok_iff.mp ended
    rw [← same, Padded.text, readOption_blanks p.blankBefore] at inner
    unfold readOption at inner
    split at inner
    · obtain ⟨_, _, same⟩ := bind_ok_iff.mp inner
      cases (Prod.mk.inj (pure_ok_iff.mp same)).1
    · obtain ⟨⟨g, rest'⟩, root, same⟩ := bind_ok_iff.mp inner
      obtain rfl := Option.some.inj (Prod.mk.inj (pure_ok_iff.mp same)).1
      exact ⟨rest', root⟩
  · cases ended

/-- The value of a condition that is read from a text is what its literal is decoded as. -/
theorem value_of_leaf {literal core behind rest : List Char} (leaf : LeafText literal core)
    {c : Condition} (ends : NumberEnds behind)
    (read : Filter.read depthLimit (skipSpace (core ++ behind)) = .ok (.condition c, rest)) :
    ∃ j, outcome (value 126) literal = .ok j ∧ asOption Scalar.ofJson j = .ok c.value := by
  cases leaf with
  | object blank names inner given key spelled =>
    have taken := takes_named blank names inner (fun m member => takes_value (inner m member) 126)
      behind ends
    rw [List.cons_append] at read taken
    rw [skipSpace_cons (by decide), depthLimit, taken] at read
    obtain ⟨_, members, same⟩ := except_map_ok_iff.mp read
    obtain ⟨rfl, _⟩ := Prod.mk.inj same
    exact spelled ▸ value_of_ofNamed members given key
  | list blank inner spelled =>
    have taken := takes_padded blank inner
      (fun q member => takes_value (inner q (List.mem_cons_of_mem _ member)) 126) behind ends
    rw [List.cons_append] at read taken
    rw [skipSpace_cons (by decide), depthLimit, taken] at read
    obtain ⟨_, items, same⟩ := except_map_ok_iff.mp read
    obtain ⟨rfl, _⟩ := Prod.mk.inj same
    exact spelled ▸ value_of_ofPadded items

/-- An integer that is written out in a condition is its value, as an integer or as a decimal. -/
theorem ofInteger_of_ofRequest {n : Int} {literal : List Char} (spelled : IntegerText n literal)
    {text : String} {p : Padded} (same : p.text = text.toList) (leaf : LeafText literal p.core)
    {c : Condition} (accepted : ofRequest text = .ok (some (.condition c))) :
    ∃ s, c.value = some s ∧ s.OfInteger n := by
  obtain ⟨rest, read⟩ := read_of_ofRequest same accepted
  obtain ⟨j, outcome, given⟩ := value_of_leaf leaf p.numberEnds_behind read
  obtain ⟨num, rfl, number⟩ := ofInteger_of_read spelled outcome
  obtain ⟨s, decoded, some⟩ := except_map_ok_iff.mp given
  exact ⟨s, some.symm, Scalar.ofInteger_of_ofJson number decoded⟩

end Filter

/-! ### Comparisons -/

theorem Condition.bind_compare {c : Condition} {value : Scalar} (given : c.value = some value)
    (compared : c.operator ∈ [.eq, .ne, .gt, .ge, .lt, .le]) (column : Column) :
    c.bind column =
      match Parameter.coerce? column.type value with
      | some p => .ok (some p)
      | none => .error (.coercion c.path.toAttribute.text column.type value) := by
  have comparison : c.operator ≠ .pr := by
    intro presence
    rw [presence] at compared
    revert compared
    decide
  have plain : c.operator.wildcards = none := by
    revert compared
    cases c.operator <;> decide
  cases coerced : Parameter.coerce? column.type value <;>
    simp [Condition.bind, comparison, given, plain, coerced]

/-- The only parameter of a compiled query. -/
def BindsOnly (compiled : Except CompileError Query) (p : Parameter) : Prop :=
  ∃ q, compiled = .ok q ∧ q.predicate.parameters = [p]

section Compare

variable {c : Condition} {value : Scalar} (given : c.value = some value)
  (compared : c.operator ∈ [.eq, .ne, .gt, .ge, .lt, .le]) {table : MappingTable}
  {column : Column} (mapped : table.resolve c.path.toAttribute none = .ok column)
  (order : SortOrder) (page : Page) (requestId : String)

include given compared mapped

/-- A comparison compiles to a query with one parameter, or its value does not fit the column. -/
theorem Condition.result_compare :
    (Query.compile (some (.condition c)) table order page requestId).result =
      match Parameter.coerce? column.type value with
      | some p => .ok ⟨.ofCondition column c.operator (some p) Predicate.noConnective, page.sql,
          order.sql⟩
      | none => .error (.coercion c.path.toAttribute.text column.type value) := by
  rw [Query.result_compile, Filter.compile, Condition.result_compile, mapped]
  simp only [Except.bind, Condition.bind_compare given compared]
  cases Parameter.coerce? column.type value <;> rfl

theorem Condition.binds_of_coerce {p : Parameter}
    (fits : Parameter.coerce? column.type value = some p) :
    BindsOnly (Query.compile (some (.condition c)) table order page requestId).result p := by
  rw [Condition.result_compare given compared mapped, fits]
  exact ⟨_, rfl, rfl⟩

theorem Condition.refused_of_coerce (misfits : Parameter.coerce? column.type value = none) :
    (Query.compile (some (.condition c)) table order page requestId).result =
      .error (.coercion c.path.toAttribute.text column.type value) := by
  rw [Condition.result_compare given compared mapped, misfits]

end Compare

/-! ### Integers on typed columns -/

/-- An integer that is written out in a condition on a mapped attribute is bound as this integer, or
it is refused by its column. Only a text column binds a float for it, if it has more than 64
bits. -/
theorem integer_literal {n : Int} {literal : List Char} (spelled : IntegerText n literal)
    {text : String} {p : Padded} (same : p.text = text.toList)
    (leaf : Filter.LeafText literal p.core) {c : Condition}
    (accepted : Filter.ofRequest text = .ok (some (.condition c)))
    (compared : c.operator ∈ [.eq, .ne, .gt, .ge, .lt, .le]) {table : MappingTable}
    {column : Column} (mapped : table.resolve c.path.toAttribute none = .ok column)
    (order : SortOrder) (page : Page) (requestId : String) :
    let compiled := (Query.compile (some (.condition c)) table order page requestId).result
    let long := -2 ^ 63 ≤ n ∧ n ≤ 2 ^ 63 - 1
    ∃ value, c.value = some value ∧ value.kind = (if long then "integer" else "decimal") ∧
      match column.type with
      | .int =>
        if -2 ^ 31 ≤ n ∧ n ≤ 2 ^ 31 - 1 then ∃ m : Int32, m.toInt = n ∧ BindsOnly compiled (.int m)
        else compiled = .error (.coercion c.path.toAttribute.text .int value)
      | .int64 =>
        if long then ∃ m : Int64, m.toInt = n ∧ BindsOnly compiled (.int64 m)
        else compiled = .error (.coercion c.path.toAttribute.text .int64 value)
      | .string =>
        if long then ∃ m : Int64, m.toInt = n ∧ BindsOnly compiled (.int64 m)
        else ∃ x, BindsOnly compiled (.float x)
      | .bool => compiled = .error (.coercion c.path.toAttribute.text .bool value) := by
  intro compiled long
  obtain ⟨value, given, holds⟩ := Filter.ofInteger_of_ofRequest spelled same leaf accepted
  have binds {p : Parameter} (fits : Parameter.coerce? column.type value = some p) :=
    Condition.binds_of_coerce given compared mapped order page requestId fits
  have refused (misfits : Parameter.coerce? column.type value = none) :=
    Condition.refused_of_coerce given compared mapped order page requestId misfits
  refine ⟨value, given, ?_⟩
  cases holds with
  | @integer i same =>
    subst same
    have range : long := ⟨i.le_toInt, Int.le_sub_one_of_lt i.toInt_lt⟩
    simp only [if_pos range]
    refine ⟨rfl, ?_⟩
    cases type : column.type <;> rw [type] at binds refused
    case int =>
      by_cases short : -2 ^ 31 ≤ i.toInt ∧ i.toInt ≤ 2 ^ 31 - 1
      · simp only [if_pos short]
        exact ⟨i.toInt32, toInt_toInt32_of_short short,
          binds (by rw [Parameter.coerce?_int, if_pos short])⟩
      · simp only [if_neg short]
        exact refused (by rw [Parameter.coerce?_int, if_neg short])
    case int64 => exact ⟨i, rfl, binds rfl⟩
    case string => exact ⟨i, rfl, binds rfl⟩
    case bool => exact refused rfl
  | decimal x beyond =>
    have wide : ¬(-2 ^ 31 ≤ n ∧ n ≤ 2 ^ 31 - 1) := by omega
    simp only [long, if_neg beyond, if_neg wide]
    refine ⟨rfl, ?_⟩
    cases type : column.type <;> rw [type] at binds refused
    case string => exact ⟨x, binds rfl⟩
    case int | int64 | bool => exact refused rfl

/-! ### The ends of 64 bits -/

/-- A condition on `size` with its value in front. -/
def sizeLeaf (n : Int) : String :=
  (Json.object [("value", .integer n), ("path", .object [("name", .string "size")]),
    ("type", .string "attribute"), ("operator", .string "ge")]).compact

theorem sizeLeaf_reads : ∀ n ∈ [-2 ^ 63, -2 ^ 63 - 1],
    ((Filter.ofRequest (sizeLeaf n)).toOption.join.bind Filter.condition?).map
      (fun c => (c.path, c.operator)) = some ({ name := "size" }, .ge) := by
  decide +kernel

theorem sizeLeaf_accepted {n : Int} (end64 : n ∈ [-2 ^ 63, -2 ^ 63 - 1]) :
    ∃ c, Filter.ofRequest (sizeLeaf n) = .ok (some (.condition c)) ∧
      c.path = { name := "size" } ∧ c.operator = .ge := by
  obtain ⟨c, found, same⟩ := Option.map_eq_some_iff.mp (sizeLeaf_reads n end64)
  obtain ⟨path, operator⟩ := Prod.mk.inj same
  obtain ⟨f, given, isLeaf⟩ := Option.bind_eq_some_iff.mp found
  obtain rfl := Filter.condition?_eq_some isLeaf
  have accepted := toOption_eq_some_iff.mp (Option.join_eq_some_iff.mp given)
  exact ⟨c, accepted, path, operator⟩

theorem sizeLeaf_integers :
    (∃ c, Filter.ofRequest (sizeLeaf (-2 ^ 63)) = .ok (some (.condition c)) ∧
      ∃ m : Int64, m.toInt = -2 ^ 63 ∧ BindsOnly
        (Query.compile (some (.condition c)) messages ⟨"msg.id", .asc⟩ ⟨0, 10⟩ "").result
        (.int64 m)) ∧
    ∃ c value, Filter.ofRequest (sizeLeaf (-2 ^ 63 - 1)) = .ok (some (.condition c)) ∧
      value.kind = "decimal" ∧
      (Query.compile (some (.condition c)) messages ⟨"msg.id", .asc⟩ ⟨0, 10⟩ "").result =
        .error (.coercion "size" .int64 value) := by
  have leaf (n : Int) : ∃ p : Padded, p.text = (sizeLeaf n).toList ∧
      Filter.LeafText (toString n).toList p.core :=
    Filter.leafText_compact List.mem_cons_self (by simp [depth, depthMembers, integer])
  have mapped {c : Condition} (path : c.path = { name := "size" }) :
      messages.resolve c.path.toAttribute none = .ok ⟨"msg.size", .int64, true⟩ := by
    rw [path]
    rfl
  have compared {c : Condition} (operator : c.operator = .ge) :
      c.operator ∈ [.eq, .ne, .gt, .ge, .lt, .le] := by
    rw [operator]
    decide
  constructor
  · have least : -2 ^ 63 ≤ (-2 ^ 63 : Int) ∧ (-2 ^ 63 : Int) ≤ 2 ^ 63 - 1 := by omega
    obtain ⟨c, accepted, path, operator⟩ := @sizeLeaf_accepted (-2 ^ 63) (by simp)
    obtain ⟨_, same, spelled⟩ := leaf (-2 ^ 63)
    obtain ⟨_, _, _, bound⟩ :=
      integer_literal (integerText_toString (-2 ^ 63)) same spelled accepted (compared operator)
        (mapped path) ⟨"msg.id", .asc⟩ ⟨0, 10⟩ ""
    simp only [if_pos least] at bound
    exact ⟨c, accepted, bound⟩
  · have beyond : ¬(-2 ^ 63 ≤ (-2 ^ 63 - 1 : Int) ∧ (-2 ^ 63 - 1 : Int) ≤ 2 ^ 63 - 1) := by omega
    obtain ⟨c, accepted, path, operator⟩ := @sizeLeaf_accepted (-2 ^ 63 - 1) (by simp)
    obtain ⟨_, same, spelled⟩ := leaf (-2 ^ 63 - 1)
    obtain ⟨value, _, kind, refused⟩ :=
      integer_literal (integerText_toString (-2 ^ 63 - 1)) same spelled accepted (compared operator)
        (mapped path) ⟨"msg.id", .asc⟩ ⟨0, 10⟩ ""
    simp only [if_neg beyond] at kind refused
    rw [path] at refused
    exact ⟨c, value, accepted, kind, refused⟩

end ScimQuery
