import ScimQuery.Proofs.Compilation

/-!
# The text of a group

A group is written from what its operands become on their own, and it is refused as they are.
`group_text` says so down to single blanks, for a group that stands alone and for one inside a value
path.
-/

namespace ScimQuery

namespace Filter

/-- What a filter on the left of a connective brings into a group, made from its own text. A
condition has the connective in the place of its last blank. -/
def LeadText (k : Connective) (own lead : String) : Filter → Prop
  | condition _ => ∃ front, own = front ++ " " ∧ lead = front ++ k.sql
  | _ => lead = own ++ " " ++ k.sql ++ " "

theorem leadText_of_compile {left : Filter} {table : MappingTable} {requestId : String}
    {scope : Option String} {p : Predicate}
    (compiled : (left.compile table requestId scope).result = .ok p) (k : Connective) :
    left.LeadText k p.text (left.lead k p).text := by
  cases left with
  | condition c =>
    obtain ⟨column, v, _, rfl⟩ := Condition.compile_ok_iff.mp compiled
    rw [lead_condition]
    exact ⟨Predicate.conditionText column c.operator v, Predicate.text_ofCondition ..,
      Predicate.text_ofCondition ..⟩
  | _ => rfl

theorem parameters_lead (left : Filter) (k : Connective) (p : Predicate) :
    (left.lead k p).parameters = p.parameters := by
  cases left <;> rfl

/-- A filter as it is, or inside the value path of an attribute. -/
def inside (f : Filter) : Option AttributePath → Filter
  | none => f
  | some path => valuePath path f

theorem compile_inside (f : Filter) (path : Option AttributePath) (table : MappingTable)
    (requestId : String) :
    (f.inside path).compile table requestId none =
      f.compile table requestId (path.map fun p => p.toAttribute.text) := by
  cases path <;> rfl

end Filter

/-- A group fails with the error of its left operand, else with that of its right operand. Else it
binds the parameters of both, and its text is that of both in parentheses. Inside a value path it is
made in the same way from its operands inside that value path. -/
theorem group_text (left right : Filter) (k : Connective) (path : Option AttributePath)
    (table : MappingTable) (order : SortOrder) (page : Page) (requestId : String) :
    let compiled := fun f : Filter =>
      (Query.compile (some (f.inside path)) table order page requestId).result
    match compiled left, compiled right with
    | .error e, _ => compiled (.logical left k right) = .error e
    | .ok _, .error e => compiled (.logical left k right) = .error e
    | .ok p, .ok q => ∃ lead, left.LeadText k p.predicate.text lead ∧
        compiled (.logical left k right) =
          .ok ⟨⟨" ( " ++ lead ++ q.predicate.text ++ " ) ",
            p.predicate.parameters ++ q.predicate.parameters⟩, page.sql, order.sql⟩ := by
  simp only [Query.result_compile, Filter.compile_inside, Filter.result_compile_logical]
  cases first : (left.compile table requestId (path.map fun p => p.toAttribute.text)).result with
  | error e => rfl
  | ok p =>
    cases (right.compile table requestId (path.map fun p => p.toAttribute.text)).result with
    | error e => rfl
    | ok q =>
      refine ⟨(left.lead k p).text, Filter.leadText_of_compile first k, ?_⟩
      rw [← left.parameters_lead k p]
      rfl

end ScimQuery
