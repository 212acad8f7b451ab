import ScimQuery.Proofs.Meaning

/-!
# Alike filters

Two filters are alike when they have one shape and their conditions stand on the same columns, each
in its own table. `alike_same_predicate` shows that they become the same text: names and values
reach a predicate through columns and parameters only.
-/

namespace ScimQuery

/-- Two conditions with one operator whose columns have one name. -/
def Condition.Alike (t u : MappingTable) (scope scope' : Option String) (c d : Condition) : Prop :=
  c.operator = d.operator ∧ ∃ column column', t.resolve c.path.toAttribute scope = .ok column ∧
    u.resolve d.path.toAttribute scope' = .ok column' ∧ column.column = column'.column

/-- Two filters with the same nodes, connectives and operators in the same places, and alike
conditions. -/
inductive Alike (t u : MappingTable) : Option String → Option String → Filter → Filter → Prop where
  | condition {scope scope' c d} (leaves : c.Alike t u scope scope' d) :
      Alike t u scope scope' (.condition c) (.condition d)
  | logical {scope scope' f g f' g'} (k) (left : Alike t u scope scope' f g)
      (right : Alike t u scope scope' f' g') :
      Alike t u scope scope' (.logical f k f') (.logical g k g')
  | valuePath {scope scope' path path' f g}
      (within : Alike t u (some path.toAttribute.text) (some path'.toAttribute.text) f g) :
      Alike t u scope scope' (.valuePath path f) (.valuePath path' g)
  | negation {scope scope' f g} (inner : Alike t u scope scope' f g) :
      Alike t u scope scope' (.negation f) (.negation g)

/-- Two pieces with one text and as many parameters. -/
def Predicate.Same (p q : Predicate) : Prop :=
  p.text = q.text ∧ p.parameters.length = q.parameters.length

theorem Predicate.Same.group {p q p' q' : Predicate} (left : p.Same q) (right : p'.Same q') :
    (p.group p').Same (q.group q') := by
  obtain ⟨leftText, leftLength⟩ := left
  obtain ⟨rightText, rightLength⟩ := right
  constructor
  · rw [Predicate.group, Predicate.group, leftText, rightText]
  · simp [Predicate.group, leftLength, rightLength]

theorem Predicate.Same.followedBy {p q : Predicate} (h : p.Same q) (k : Connective) :
    (p.followedBy k).Same (q.followedBy k) := by
  obtain ⟨text, length⟩ := h
  exact ⟨by rw [Predicate.followedBy, Predicate.followedBy, text], length⟩

variable {t u : MappingTable} {scope scope' : Option String}

/-- Whether a condition takes a parameter is seen from its operator. -/
theorem Condition.Alike.same {c d : Condition} {column column' : Column}
    {p p' : Option Parameter} (alike : c.Alike t u scope scope' d)
    (first : c.Binds t scope column p) (second : d.Binds u scope' column' p') (tail : String) :
    (Predicate.ofCondition column c.operator p tail).Same
      (Predicate.ofCondition column' d.operator p' tail) := by
  obtain ⟨operator, own, own', found, found', name⟩ := alike
  obtain rfl := Except.ok.inj (found.symm.trans first.1)
  obtain rfl := Except.ok.inj (found'.symm.trans second.1)
  have presence := bind_presence first.2
  have presence' := bind_presence second.2
  rw [operator] at presence ⊢
  have both : p = none ↔ p' = none := presence.trans presence'.symm
  cases p with
  | some p =>
    cases p' with
    | some p' => exact ⟨by simp [Predicate.ofCondition, name], rfl⟩
    | none => exact absurd (both.mpr rfl) (by simp)
  | none =>
    obtain rfl := both.mp rfl
    exact ⟨by simp [Predicate.ofCondition, name], rfl⟩

theorem Alike.of_condition {c : Condition} {g : Filter}
    (h : Alike t u scope scope' (.condition c) g) :
    ∃ d, g = .condition d ∧ c.Alike t u scope scope' d := by
  cases h with
  | condition leaves => exact ⟨_, rfl, leaves⟩

theorem Alike.condition?_eq_none {f g : Filter} (h : Alike t u scope scope' f g)
    (inner : f.condition? = none) : g.condition? = none := by
  cases h with
  | condition => cases inner
  | _ => rfl

theorem Alike.same {f g : Filter} {p q : Predicate} (alike : Alike t u scope scope' f g)
    (first : Compiles t scope f p) (second : Compiles u scope' g q) : p.Same q := by
  induction alike generalizing p q with
  | condition leaves =>
    cases first with
    | condition binds =>
      cases second with
      | condition binds' => exact leaves.same binds binds' _
  | logical k left _ ihLeft ihRight =>
    cases first with
    | leaf binds rest =>
      -- The induction hypothesis is about conditions without a connective behind them.
      obtain ⟨d, rfl, leaves⟩ := left.of_condition
      cases second with
      | leaf binds' rest' => exact (leaves.same binds binds' _).group (ihRight rest rest')
      | group inner _ _ => cases inner
    | group inner start rest =>
      have inner' := left.condition?_eq_none inner
      cases second with
      | leaf => cases inner'
      | group _ start' rest' =>
        exact ((ihLeft start start').followedBy k).group (ihRight rest rest')
  | valuePath _ ih =>
    cases first with
    | valuePath within =>
      cases second with
      | valuePath within' => exact ih within within'
  | negation => cases first

/-- Alike filters that compile become one text with as many parameters. -/
theorem alike_same_predicate {f g : Filter} {t u : MappingTable} {order order' : SortOrder}
    {page page' : Page} {requestId requestId' : String} {q r : Query}
    (alike : Alike t u none none f g)
    (first : (Query.compile (some f) t order page requestId).result = .ok q)
    (second : (Query.compile (some g) u order' page' requestId').result = .ok r) :
    q.predicate.text = r.predicate.text ∧
      q.predicate.parameters.length = r.predicate.parameters.length := by
  obtain ⟨p, compiles, rfl⟩ := Query.compile_ok_iff.mp first
  obtain ⟨p', compiles', rfl⟩ := Query.compile_ok_iff.mp second
  exact alike.same compiles compiles'

/-! ### A filter with other names -/

def letters : MappingTable := .ofList [
  ({ name := "id" }, ⟨"msg.id", .string, false⟩),
  ({ name := "bytes" }, ⟨"msg.size", .string, true⟩),
  ({ name := "kind" }, ⟨"rcp.type", .bool, false⟩)]

/-- `from.name[kind co true and id pr] or bytes ge "? or (1 = 1)"`. The first condition is not
mapped within its scope. -/
def renamedFilter : Filter :=
  .logical
    (.valuePath { name := "from", sub := some "name" }
      (.logical (.condition ⟨{ name := "kind" }, .co, some (.bool true)⟩) .and
        (.condition ⟨{ name := "id" }, .pr, none⟩)))
    .or (.condition ⟨{ name := "bytes" }, .ge, some (.string "? or (1 = 1)")⟩)

def renamedQuery : Query :=
  ⟨⟨scopedQuery.predicate.text, [.text "%true%", .text "? or (1 = 1)"]⟩, "limit 0, 1",
    "order by msg.size asc"⟩

theorem renamedFilter_same_predicate :
    Alike messages letters none none scopedFilter renamedFilter ∧
    (Query.compile (some scopedFilter) messages ⟨"msg.id", .desc⟩ ⟨2, 10⟩ "").result =
      .ok scopedQuery ∧
    (Query.compile (some renamedFilter) letters ⟨"msg.size", .asc⟩ ⟨0, 1⟩ "other").result =
      .ok renamedQuery ∧
    scopedQuery.predicate.text = renamedQuery.predicate.text ∧
      scopedQuery.predicate.parameters.length = renamedQuery.predicate.parameters.length :=
  have alike : Alike messages letters none none scopedFilter renamedFilter :=
    .logical .or
      (.valuePath (.logical .and (.condition ⟨rfl, _, _, rfl, rfl, rfl⟩)
        (.condition ⟨rfl, _, _, rfl, rfl, rfl⟩)))
      (.condition ⟨rfl, _, _, rfl, rfl, rfl⟩)
  have second : (Query.compile (some renamedFilter) letters ⟨"msg.size", .asc⟩ ⟨0, 1⟩
      "other").result = .ok renamedQuery := by rfl
  ⟨alike, compile_scopedFilter, second, alike_same_predicate alike compile_scopedFilter second⟩

end ScimQuery
