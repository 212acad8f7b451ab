import ScimQuery.Proofs.Compilation
import ScimQuery.Proofs.Grammar

/-!
# What a predicate means

The text of a compiled filter, with its parameters, has one reading: the filter without its value
paths. So whatever single comparisons mean, the predicate is true when the filter is.
-/

namespace ScimQuery

/-- The filter without its value paths: at each condition the column within its scope, the SQL
operator and the bound value. A filter with a negation, or with a condition that has no column or no
fitting value, is not read. -/
def Filter.erased (table : MappingTable) (scope : Option String) : Filter → Option Reading
  | condition c =>
    match table.resolve c.path.toAttribute scope with
    | .ok column =>
      match c.bind column with
      | .ok p => some (.leaf column.column c.operator.sql p)
      | .error _ => none
    | .error _ => none
  | logical left k right => do
    return .joined (← left.erased table scope) k (← right.erased table scope)
  | valuePath path inner => inner.erased table (some path.toAttribute.text)
  | negation _ => none

/-- When a column compares with a value, or is present. -/
abbrev Interpretation := String → String → Option Parameter → Prop

def Reading.Holds (I : Interpretation) : Reading → Prop
  | leaf column operator value => I column operator value
  | joined left .and right => left.Holds I ∧ right.Holds I
  | joined left .or right => left.Holds I ∨ right.Holds I

def Filter.Holds (I : Interpretation) (table : MappingTable) (scope : Option String) :
    Filter → Prop
  | condition c => ∃ column p, c.Binds table scope column p ∧ I column.column c.operator.sql p
  | logical left .and right => left.Holds I table scope ∧ right.Holds I table scope
  | logical left .or right => left.Holds I table scope ∨ right.Holds I table scope
  | valuePath path inner => inner.Holds I table (some path.toAttribute.text)
  | negation inner => ¬ inner.Holds I table scope

theorem erased_condition {c : Condition} {table : MappingTable} {scope : Option String}
    {column : Column} {p : Option Parameter} (binds : c.Binds table scope column p) :
    (Filter.condition c).erased table scope =
      some (.leaf column.column c.operator.sql p) := by
  simp only [Filter.erased, binds.1, binds.2]

theorem binds_of_erased {c : Condition} {table : MappingTable} {scope : Option String}
    {t : Reading} (h : (Filter.condition c).erased table scope = some t) :
    ∃ column p, c.Binds table scope column p ∧ .leaf column.column c.operator.sql p = t := by
  simp only [Filter.erased] at h
  split at h
  · next column found =>
    split at h
    · next p bound => exact ⟨column, p, ⟨found, bound⟩, Option.some.inj h⟩
    · cases h
  · cases h

theorem erased_logical {left right : Filter} {k : Connective} {table : MappingTable}
    {scope : Option String} {t : Reading} :
    (Filter.logical left k right).erased table scope = some t ↔
      ∃ l r, left.erased table scope = some l ∧ right.erased table scope = some r ∧
        .joined l k r = t := by
  simp [Filter.erased, Option.bind_eq_some_iff]

theorem binds_unique {c : Condition} {table : MappingTable} {scope : Option String}
    {column column' : Column} {p p' : Option Parameter} (first : c.Binds table scope column p)
    (second : c.Binds table scope column' p') : column = column' ∧ p = p' := by
  obtain rfl := Except.ok.inj (first.1.symm.trans second.1)
  exact ⟨rfl, Except.ok.inj (first.2.symm.trans second.2)⟩

/-- Erasing value paths keeps the meaning. -/
theorem erased_holds {I : Interpretation} {table : MappingTable} {scope : Option String}
    {f : Filter} {t : Reading} (h : f.erased table scope = some t) :
    t.Holds I ↔ f.Holds I table scope := by
  induction f generalizing scope t with
  | condition c =>
    obtain ⟨column, p, binds, rfl⟩ := binds_of_erased h
    refine ⟨fun holds => ⟨column, p, binds, holds⟩, ?_⟩
    rintro ⟨column', p', binds', holds⟩
    obtain ⟨rfl, rfl⟩ := binds_unique binds binds'
    exact holds
  | logical left k right first rest =>
    obtain ⟨l, r, leftRead, rightRead, rfl⟩ := erased_logical.mp h
    cases k with
    | and => exact and_congr (first leftRead) (rest rightRead)
    | or => exact or_congr (first leftRead) (rest rightRead)
  | valuePath path inner ih => exact ih h
  | negation => cases h

/-! ### The reading of a compiled filter -/

/-- The tokens of a leaf. -/
def leafTokens (column : String) (o : Operator) : Option Parameter → List Token
  | some _ => [.opening, .column column, .operator o, .placeholder, .closing]
  | none => [.opening, .column column, .operator o, .closing]

theorem spells_ofCondition (column : Column) (o : Operator) (p : Option Parameter)
    {tail : String} {ts : List Token} (behind : Spells tail.toList ts) :
    Spells (Predicate.ofCondition column o p tail).text.toList
      (leafTokens column.column o p ++ ts) := by
  cases p with
  | some p =>
    have spelled := Spells.blank (.token .opening (.token (.column column.column) (.blank
      (.token (.operator o) (.blank (.token .placeholder (.token .closing (.blank behind))))))))
    simpa [Predicate.ofCondition, leafTokens, Token.text] using spelled
  | none =>
    have spelled := Spells.blank (.token .opening (.token (.column column.column) (.blank
      (.token (.operator o) (.token .closing (.blank behind))))))
    simpa [Predicate.ofCondition, leafTokens, Token.text] using spelled

theorem spells_followedBy {p : Predicate} {ts : List Token} (h : Spells p.text.toList ts)
    (k : Connective) : Spells (p.followedBy k).text.toList (ts ++ [.connective k]) := by
  have spelled := h.append (.blank (.token (.connective k) (.blank .done)))
  simpa [Predicate.followedBy, Token.text] using spelled

theorem spells_group {l r : Predicate} {ts us : List Token} (left : Spells l.text.toList ts)
    (right : Spells r.text.toList us) :
    Spells (l.group r).text.toList (.opening :: (ts ++ us) ++ [.closing]) := by
  have spelled := Spells.blank (.token .opening (.blank
    ((left.append right).append (.blank (.token .closing (.blank .done))))))
  simpa [Predicate.group, Token.text] using spelled

theorem derives_leaf {c : Condition} {table : MappingTable} {scope : Option String}
    {column : Column} {p : Option Parameter} (binds : c.Binds table scope column p)
    (named : isColumnName column.column = true) (rest : List Parameter) :
    Derives (leafTokens column.column c.operator p) (p.toList ++ rest)
      (.leaf column.column c.operator.sql p) rest := by
  have presence := Condition.bind_presence binds.2
  cases p with
  | some p => exact .comparison named (fun same => by simpa using presence.mpr same) p rest
  | none =>
    rw [presence.mp rfl]
    exact .presence named rest

/-- The columns that some tokens name are columns of a table. -/
def NamesColumnsOf (table : MappingTable) (ts : List Token) : Prop :=
  ∀ name, .column name ∈ ts → ∃ e ∈ table.entries, e.2.column = name

theorem leafTokens_columns {c : Condition} {table : MappingTable} {scope : Option String}
    {column : Column} {p : Option Parameter} (binds : c.Binds table scope column p) :
    NamesColumnsOf table (leafTokens column.column c.operator p) := by
  intro name member
  obtain ⟨key, present⟩ := MappingTable.mem_of_resolve binds.1
  cases p <;> simp [leafTokens] at member <;> exact ⟨_, present, member.symm⟩

theorem NamesColumnsOf.joined {table : MappingTable} {ts us : List Token}
    (left : NamesColumnsOf table ts) (right : NamesColumnsOf table us) (k : Connective) :
    NamesColumnsOf table (.opening :: (ts ++ [.connective k] ++ us) ++ [.closing]) := by
  intro name member
  have inside : .column name ∈ ts ∨ .column name ∈ us := by simpa using member
  exact inside.elim (left name) (right name)

/-- A compiled filter is spelled by tokens that read as the filter without its value paths, take
just its parameters, and name columns of the table only. -/
theorem compiles_reads {table : MappingTable} {scope : Option String} {f : Filter} {p : Predicate}
    (h : Compiles table scope f p) (named : ∀ e ∈ table.entries, isColumnName e.2.column = true) :
    ∃ t tokens, f.erased table scope = some t ∧ Spells p.text.toList tokens ∧
      NamesColumnsOf table tokens ∧ ∀ rest, Derives tokens (p.parameters ++ rest) t rest := by
  have bound : ∀ {c : Condition} {scope column p}, c.Binds table scope column p →
      isColumnName column.column = true := by
    intro c scope column p binds
    obtain ⟨key, present⟩ := MappingTable.mem_of_resolve binds.1
    exact named _ present
  induction h with
  | @condition scope c column p binds =>
    refine ⟨_, _, erased_condition binds,
      spells_ofCondition column c.operator p (.blank .done), ?_, ?_⟩
    · simpa using leafTokens_columns binds
    · simpa using derives_leaf binds (bound binds)
  | @leaf scope c column p k right q binds _ ih =>
    obtain ⟨r, us, read, spelled, columns, derived⟩ := ih
    have start := spells_ofCondition column c.operator p (Spells.single (.connective k))
    refine ⟨_, _, erased_logical.mpr ⟨_, _, erased_condition binds, read, rfl⟩,
      spells_group start spelled, (leafTokens_columns binds).joined columns k, fun rest => ?_⟩
    have whole := (derives_leaf binds (bound binds) (q.parameters ++ rest)).joined k (derived rest)
    simpa [Predicate.group] using whole
  | @group scope left p k right q _ _ _ first rest =>
    obtain ⟨l, ts, leftRead, leftSpelled, leftColumns, leftDerived⟩ := first
    obtain ⟨r, us, rightRead, rightSpelled, rightColumns, rightDerived⟩ := rest
    refine ⟨_, _, erased_logical.mpr ⟨_, _, leftRead, rightRead, rfl⟩,
      spells_group (spells_followedBy leftSpelled k) rightSpelled,
      leftColumns.joined rightColumns k, fun rest => ?_⟩
    have whole := (leftDerived (q.parameters ++ rest)).joined k (rightDerived rest)
    simpa [Predicate.group, Predicate.followedBy] using whole
  | valuePath _ ih => exact ih

/-- The text of a compiled filter has one reading, which takes all parameters and no others. It is
the filter without its value paths, and it is true when the filter is. -/
theorem compile_reads_once {f : Filter} {table : MappingTable} {order : SortOrder} {page : Page}
    {requestId : String} {q : Query}
    (named : ∀ e ∈ table.entries, isColumnName e.2.column = true)
    (compiled : (Query.compile (some f) table order page requestId).result = .ok q) :
    ∃ t, f.erased table none = some t ∧
      Reads q.predicate.text q.predicate.parameters t [] ∧
      (∀ u rest, Reads q.predicate.text q.predicate.parameters u rest → u = t ∧ rest = []) ∧
      ∀ I : Interpretation, t.Holds I ↔ f.Holds I table none := by
  obtain ⟨p, compiles, rfl⟩ := Query.compile_ok_iff.mp compiled
  obtain ⟨t, tokens, read, spelled, _, derived⟩ := compiles_reads compiles named
  have reads : Reads p.text p.parameters t [] := ⟨tokens, spelled, by simpa using derived []⟩
  exact ⟨t, read, reads, fun u rest other => reads_unique other reads, fun I => erased_holds read⟩

/-! ### A filter with two scopes -/

def messages : MappingTable := .ofList [
  ({ name := "id" }, ⟨"msg.id", .int, true⟩),
  ({ name := "size" }, ⟨"msg.size", .int64, true⟩),
  ({ name := "to", sub := some "type" }, ⟨"rcp.type", .string, false⟩)]

/-- `to[type co ")?" and id pr] or size ge 4`. -/
def scopedFilter : Filter :=
  .logical
    (.valuePath { name := "to" }
      (.logical (.condition ⟨{ name := "type" }, .co, some (.string ")?")⟩) .and
        (.condition ⟨{ name := "id" }, .pr, none⟩)))
    .or (.condition ⟨{ name := "size" }, .ge, some (.integer 4)⟩)

def scopedQuery : Query where
  predicate := ⟨" (  (  (rcp.type LIKE ?) AND (msg.id IS NOT NULL)   )  OR  (msg.size >= ?)   ) ",
    [.text "%)?%", .int64 4]⟩
  limit := "limit 20, 10"
  orderBy := "order by msg.id desc"

theorem compile_scopedFilter :
    (Query.compile (some scopedFilter) messages ⟨"msg.id", .desc⟩ ⟨2, 10⟩ "").result =
      .ok scopedQuery := by
  rfl

theorem scopedFilter_reads_once :
    (∀ e ∈ messages.entries, isColumnName e.2.column = true) ∧
    (Query.compile (some scopedFilter) messages ⟨"msg.id", .desc⟩ ⟨2, 10⟩ "").result =
      .ok scopedQuery ∧
    ∃ t, scopedFilter.erased messages none = some t ∧
      Reads scopedQuery.predicate.text scopedQuery.predicate.parameters t [] ∧
      (∀ u rest, Reads scopedQuery.predicate.text scopedQuery.predicate.parameters u rest →
        u = t ∧ rest = []) ∧
      ∀ I : Interpretation, t.Holds I ↔ scopedFilter.Holds I messages none :=
  have named : ∀ e ∈ messages.entries, isColumnName e.2.column = true := by decide
  ⟨named, compile_scopedFilter, compile_reads_once named compile_scopedFilter⟩

end ScimQuery
