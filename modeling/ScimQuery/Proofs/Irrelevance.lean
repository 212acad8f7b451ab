import ScimQuery.Proofs.Meaning
import ScimQuery.Proofs.TableHistory

/-!
# What a query does not depend on

Schema URIs, the values of presence conditions and request ids have no part in a compilation: two
filters and two histories of a table that differ in nothing else give one query or one error
(`irrelevant_inputs`).
-/

namespace ScimQuery

/-- Two conditions on one attribute with one operator. Only a comparison looks at the value. -/
structure Condition.Akin (c d : Condition) : Prop where
  path : c.path.toAttribute = d.path.toAttribute
  operator : c.operator = d.operator
  value : c.operator ≠ .pr → c.value = d.value

/-- Two filters with the same nodes and connectives in the same places, the same attributes at the
heads of their value paths, and akin conditions. -/
inductive Filter.Akin : Filter → Filter → Prop where
  | condition {c d} (akin : c.Akin d) : Akin (.condition c) (.condition d)
  | logical {left right left' right'} (k) (first : Akin left left') (rest : Akin right right') :
      Akin (.logical left k right) (.logical left' k right')
  | valuePath {path path' inner inner'} (head : path.toAttribute = path'.toAttribute)
      (within : Akin inner inner') : Akin (.valuePath path inner) (.valuePath path' inner')
  | negation {inner inner'} (akin : Akin inner inner') : Akin (.negation inner) (.negation inner')

/-! ### Conditions -/

namespace Condition.Akin

variable {c d : Condition}

theorem bind (akin : c.Akin d) (column : Column) : c.bind column = d.bind column := by
  obtain ⟨path, operator, value⟩ := akin
  by_cases presence : c.operator = .pr
  · have presence' : d.operator = .pr := operator ▸ presence
    rw [Condition.bind, Condition.bind, if_pos presence, if_pos presence']
  · have comparison' : d.operator ≠ .pr := operator ▸ presence
    rw [Condition.bind, Condition.bind, if_neg presence, if_neg comparison', value presence,
      operator, path]

theorem result_compile (akin : c.Akin d) (table : MappingTable) (requestId requestId' : String)
    (scope : Option String) (tail : String) :
    (c.compile table requestId scope tail).result =
      (d.compile table requestId' scope tail).result := by
  rw [Condition.result_compile, Condition.result_compile, akin.path, akin.operator]
  simp only [akin.bind]

end Condition.Akin

/-! ### Filters -/

namespace Filter.Akin

variable {f g : Filter}

/-- What follows a compiled filter on the left depends on the kind of its node only. -/
theorem lead (akin : f.Akin g) (k : Connective) (p : Predicate) : f.lead k p = g.lead k p := by
  cases akin <;> rfl

theorem result_compile (akin : f.Akin g) (table : MappingTable) (requestId requestId' : String)
    (scope : Option String) :
    (f.compile table requestId scope).result = (g.compile table requestId' scope).result := by
  induction akin generalizing scope with
  | condition akin => exact akin.result_compile table requestId requestId' scope _
  | logical k first rest ihFirst ihRest =>
    rw [result_compile_logical, result_compile_logical, ihFirst, ihRest]
    simp only [first.lead]
  | valuePath head within ih =>
    cases scope with
    | none =>
      rw [Filter.compile, Filter.compile, head]
      exact ih _
    | some name => rfl
  | negation => rfl

end Filter.Akin

/-- Akin filters give one result on tables whose histories differ in the schemas of paths only,
whatever the requests are called. -/
theorem irrelevant_inputs {f g : Filter} (akin : f.Akin g) {steps steps' : List TableStep}
    (history : steps.map TableStep.unqualified = steps'.map TableStep.unqualified)
    (order : SortOrder) (page : Page) (requestId requestId' : String) :
    (Query.compile (some f) (built steps) order page requestId).result =
      (Query.compile (some g) (built steps') order page requestId').result := by
  have tables : built steps = built steps' := by
    rw [← built_unqualified steps, history, built_unqualified]
  rw [tables, Query.result_compile, Query.result_compile,
    akin.result_compile _ requestId requestId']

/-! ### A filter with schemas -/

/-- `urn:x:to[urn:y:type co ")?" and id pr 7] or urn:z:size ge 4`. -/
def qualifiedFilter : Filter :=
  .logical
    (.valuePath { name := "to", schema := some "urn:x" }
      (.logical
        (.condition ⟨{ name := "type", schema := some "urn:y" }, .co, some (.string ")?")⟩) .and
        (.condition ⟨{ name := "id" }, .pr, some (.integer 7)⟩)))
    .or (.condition ⟨{ name := "size", schema := some "urn:z" }, .ge, some (.integer 4)⟩)

def messageSteps : List TableStep :=
  [.collect [({ name := "id" }, ⟨"msg.id", .int, true⟩),
    ({ name := "size", schema := some "urn:z" }, ⟨"msg.size", .int64, true⟩)],
   .add { name := "to", sub := some "type" } ⟨"rcp.type", .string, false⟩]

def qualifiedSteps : List TableStep :=
  [.collect [({ name := "id", schema := some "urn:y" }, ⟨"msg.id", .int, true⟩),
    ({ name := "size" }, ⟨"msg.size", .int64, true⟩)],
   .add { name := "to", sub := some "type", schema := some "urn:x" } ⟨"rcp.type", .string, false⟩]

/-- Both the query of the whole filter and the error of a condition on `note` stay. -/
theorem qualifiedFilter_irrelevant :
    scopedFilter.Akin qualifiedFilter ∧
    messageSteps.map TableStep.unqualified = qualifiedSteps.map TableStep.unqualified ∧
    (Query.compile (some qualifiedFilter) (built qualifiedSteps) ⟨"msg.id", .desc⟩ ⟨2, 10⟩
      "other").result = .ok scopedQuery ∧
    (Query.compile (some (.condition ⟨{ name := "note", schema := some "urn:x" }, .lt, none⟩))
      (built qualifiedSteps) ⟨"msg.id", .desc⟩ ⟨2, 10⟩ "other").result =
        .error (.unmapped "note") := by
  have akin : scopedFilter.Akin qualifiedFilter :=
    .logical .or
      (.valuePath rfl (.logical .and (.condition ⟨rfl, rfl, fun _ => rfl⟩)
        (.condition ⟨rfl, rfl, fun comparison => absurd rfl comparison⟩)))
      (.condition ⟨rfl, rfl, fun _ => rfl⟩)
  have akinNote : (Filter.condition ⟨{ name := "note" }, .lt, none⟩).Akin
      (.condition ⟨{ name := "note", schema := some "urn:x" }, .lt, none⟩) :=
    .condition ⟨rfl, rfl, fun _ => rfl⟩
  have history : messageSteps.map TableStep.unqualified =
      qualifiedSteps.map TableStep.unqualified := rfl
  refine ⟨akin, history, ?_, ?_⟩
  · rw [← irrelevant_inputs akin history ⟨"msg.id", .desc⟩ ⟨2, 10⟩ "" "other"]
    rfl
  · rw [← irrelevant_inputs akinNote history ⟨"msg.id", .desc⟩ ⟨2, 10⟩ "" "other"]
    rfl

end ScimQuery
