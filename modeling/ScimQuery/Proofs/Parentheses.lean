import ScimQuery.Proofs.Meaning

/-!
# Parentheses

The parentheses of a predicate are those of its filter: one pair for each condition and for each
connective, nested as the connectives are (`parentheses_of_filter`). Value paths add none.
-/

namespace ScimQuery

/-! ### Texts with parentheses -/

/-- A text with as many opening as closing parentheses, none of which is closed before it is opened.
`depth` is the largest number of them that are open at one place. -/
structure Bracketed (text : List Char) (pairs depth : Nat) : Prop where
  openings : text.count '(' = pairs
  closings : text.count ')' = pairs
  closed : ∀ front, front <+: text → front.count ')' ≤ front.count '('
  within : ∀ front, front <+: text → front.count '(' ≤ front.count ')' + depth
  reached : ∃ front, front <+: text ∧ front.count '(' = front.count ')' + depth

/-- A text without parentheses. -/
def Bare (text : List Char) : Prop := '(' ∉ text ∧ ')' ∉ text

instance (text : List Char) : Decidable (Bare text) := inferInstanceAs (Decidable (_ ∧ _))

theorem Bare.append {xs ys : List Char} (first : Bare xs) (second : Bare ys) : Bare (xs ++ ys) := by
  simp [Bare, first.1, first.2, second.1, second.2]

theorem Bare.bracketed {text : List Char} (bare : Bare text) : Bracketed text 0 0 where
  openings := List.count_eq_zero.mpr bare.1
  closings := List.count_eq_zero.mpr bare.2
  closed := by
    intro front start
    have none : front.count ')' = 0 :=
      List.count_eq_zero.mpr fun member => bare.2 (start.subset member)
    omega
  within := by
    intro front start
    have none : front.count '(' = 0 :=
      List.count_eq_zero.mpr fun member => bare.1 (start.subset member)
    omega
  reached := ⟨[], List.nil_prefix, rfl⟩

theorem prefix_append_cases {α : Type} {front xs ys : List α} (h : front <+: xs ++ ys) :
    front <+: xs ∨ ∃ more, front = xs ++ more ∧ more <+: ys := by
  rcases List.prefix_or_prefix_of_prefix h (List.prefix_append xs ys) with inFirst | ⟨more, rfl⟩
  · exact Or.inl inFirst
  · exact Or.inr ⟨more, rfl, (List.prefix_append_right_inj xs).mp h⟩

theorem prefix_enclosed_cases {front xs : List Char} (h : front <+: '(' :: (xs ++ [')'])) :
    front = [] ∨ front = '(' :: (xs ++ [')']) ∨ ∃ more, front = '(' :: more ∧ more <+: xs := by
  rcases List.prefix_cons_iff.mp h with empty | ⟨more, rfl, inside⟩
  · exact Or.inl empty
  · rcases List.prefix_concat_iff.mp inside with rfl | inside
    · exact Or.inr (Or.inl rfl)
    · exact Or.inr (Or.inr ⟨more, rfl, inside⟩)

namespace Bracketed

variable {xs ys : List Char} {m n d e : Nat}

theorem append (first : Bracketed xs m d) (second : Bracketed ys n e) :
    Bracketed (xs ++ ys) (m + n) (max d e) where
  openings := by rw [List.count_append, first.openings, second.openings]
  closings := by rw [List.count_append, first.closings, second.closings]
  closed := by
    intro front start
    rcases prefix_append_cases start with inFirst | ⟨more, rfl, inSecond⟩
    · exact first.closed front inFirst
    · have closed := second.closed more inSecond
      rw [List.count_append, List.count_append, first.openings, first.closings]
      omega
  within := by
    intro front start
    rcases prefix_append_cases start with inFirst | ⟨more, rfl, inSecond⟩
    · have within := first.within front inFirst
      omega
    · have within := second.within more inSecond
      rw [List.count_append, List.count_append, first.openings, first.closings]
      omega
  reached := by
    rcases Nat.le_total e d with deeper | deeper
    · obtain ⟨front, start, depth⟩ := first.reached
      exact ⟨front, start.trans (List.prefix_append xs ys), by omega⟩
    · obtain ⟨front, start, depth⟩ := second.reached
      refine ⟨xs ++ front, (List.prefix_append_right_inj xs).mpr start, ?_⟩
      rw [List.count_append, List.count_append, first.openings, first.closings]
      omega

theorem append_bare (first : Bracketed xs m d) (bare : Bare ys) : Bracketed (xs ++ ys) m d := by
  simpa using first.append bare.bracketed

theorem bare_append (bare : Bare xs) (second : Bracketed ys n e) : Bracketed (xs ++ ys) n e := by
  simpa using bare.bracketed.append second

theorem enclosed (inner : Bracketed xs m d) :
    Bracketed ('(' :: (xs ++ [')'])) (m + 1) (d + 1) where
  openings := by simp [inner.openings]
  closings := by simp [inner.closings]
  closed := by
    intro front start
    rcases prefix_enclosed_cases start with rfl | rfl | ⟨more, rfl, inside⟩
    · exact Nat.le_refl 0
    · simp [inner.openings, inner.closings]
    · have closed := inner.closed more inside
      simp only [List.count_cons_self, List.count_cons_of_ne (show '(' ≠ ')' by decide)]
      omega
  within := by
    intro front start
    rcases prefix_enclosed_cases start with rfl | rfl | ⟨more, rfl, inside⟩
    · exact Nat.zero_le _
    · simp [inner.openings, inner.closings]
    · have within := inner.within more inside
      simp only [List.count_cons_self, List.count_cons_of_ne (show '(' ≠ ')' by decide)]
      omega
  reached := by
    obtain ⟨front, start, depth⟩ := inner.reached
    have inside : '(' :: front <+: '(' :: (xs ++ [')']) :=
      List.cons_prefix_cons.mpr ⟨rfl, start.trans (List.prefix_append xs [')'])⟩
    refine ⟨'(' :: front, inside, ?_⟩
    simp only [List.count_cons_self, List.count_cons_of_ne (show '(' ≠ ')' by decide)]
    omega

end Bracketed

/-! ### Pieces of predicates -/

theorem bracketed_ofCondition {column : Column} (bare : Bare column.column.toList) (o : Operator)
    (v : Option Parameter) {tail : String} (behind : Bare tail.toList) :
    Bracketed (Predicate.ofCondition column o v tail).text.toList 1 1 := by
  have sql : Bare o.sql.toList := by cases o <;> decide
  have blank : Bare [' '] := by decide
  have mark : Bare (if v.isSome then [' ', '?'] else []) := by split <;> decide
  have inside : Bare (column.column.toList ++ [' '] ++ o.sql.toList ++
      if v.isSome then [' ', '?'] else []) := ((bare.append blank).append sql).append mark
  have leaf := (Bracketed.bare_append blank inside.bracketed.enclosed).append_bare
    (blank.append behind)
  cases v <;> simpa [Predicate.ofCondition] using leaf

theorem bracketed_followedBy {p : Predicate} {pairs depth : Nat}
    (h : Bracketed p.text.toList pairs depth) (k : Connective) :
    Bracketed (p.followedBy k).text.toList pairs depth := by
  have sql : Bare ([' '] ++ k.sql.toList ++ [' ']) := by cases k <;> decide
  simpa [Predicate.followedBy] using h.append_bare sql

theorem bracketed_group {l r : Predicate} {m n d e : Nat} (left : Bracketed l.text.toList m d)
    (right : Bracketed r.text.toList n e) :
    Bracketed (l.group r).text.toList (m + n + 1) (max d e + 1) := by
  have blank : Bare [' '] := by decide
  have inside := (Bracketed.bare_append blank (left.append right)).append_bare blank
  have group := (Bracketed.bare_append blank inside.enclosed).append_bare blank
  simpa [Predicate.group] using group

/-! ### The parentheses of a filter -/

namespace Filter

def leaves : Filter → Nat
  | condition _ => 1
  | logical left _ right => left.leaves + right.leaves
  | valuePath _ inner => inner.leaves
  | negation inner => inner.leaves

/-- The number of logical nodes. -/
def connectives : Filter → Nat
  | condition _ => 0
  | logical left _ right => left.connectives + right.connectives + 1
  | valuePath _ inner => inner.connectives
  | negation inner => inner.connectives

/-- The largest number of logical nodes on a way from the root to a leaf. -/
def nesting : Filter → Nat
  | condition _ => 0
  | logical left _ right => max left.nesting right.nesting + 1
  | valuePath _ inner => inner.nesting
  | negation inner => inner.nesting

end Filter

theorem Condition.Binds.bare {c : Condition} {table : MappingTable} {scope : Option String}
    {column : Column} {p : Option Parameter} (binds : c.Binds table scope column p)
    (bare : ∀ e ∈ table.entries, Bare e.2.column.toList) : Bare column.column.toList := by
  obtain ⟨key, present⟩ := MappingTable.mem_of_resolve binds.1
  exact bare _ present

theorem bracketed_logical {left right : Filter} {l r : Predicate} (k : Connective)
    (first : Bracketed l.text.toList (left.connectives + left.leaves) (1 + left.nesting))
    (rest : Bracketed r.text.toList (right.connectives + right.leaves) (1 + right.nesting)) :
    Bracketed (l.group r).text.toList
      ((Filter.logical left k right).connectives + (Filter.logical left k right).leaves)
      (1 + (Filter.logical left k right).nesting) := by
  have pairs : (Filter.logical left k right).connectives + (Filter.logical left k right).leaves =
      left.connectives + left.leaves + (right.connectives + right.leaves) + 1 := by
    simp only [Filter.connectives, Filter.leaves]
    omega
  have depth : 1 + (Filter.logical left k right).nesting =
      max (1 + left.nesting) (1 + right.nesting) + 1 := by
    simp only [Filter.nesting]
    omega
  rw [pairs, depth]
  exact bracketed_group first rest

theorem Compiles.bracketed {table : MappingTable} {scope : Option String} {f : Filter}
    {p : Predicate} (h : Compiles table scope f p)
    (bare : ∀ e ∈ table.entries, Bare e.2.column.toList) :
    Bracketed p.text.toList (f.connectives + f.leaves) (1 + f.nesting) := by
  induction h with
  | condition binds => exact bracketed_ofCondition (binds.bare bare) _ _ (by decide)
  | @leaf scope c column p k right q binds _ rest =>
    have tail : Bare k.sql.toList := by cases k <;> decide
    have leaf : Bracketed (Predicate.ofCondition column c.operator p k.sql).text.toList
        ((Filter.condition c).connectives + (Filter.condition c).leaves)
        (1 + (Filter.condition c).nesting) :=
      bracketed_ofCondition (binds.bare bare) c.operator p tail
    exact bracketed_logical k leaf rest
  | @group scope left p k right q _ _ _ first rest =>
    exact bracketed_logical k (bracketed_followedBy first k) rest
  | valuePath _ ih => exact ih

/-- A compiled filter has a pair of parentheses for each connective and each leaf. They are balanced,
and nested one level deeper than the connectives of the filter are. -/
theorem parentheses_of_filter {f : Filter} {table : MappingTable} {order : SortOrder} {page : Page}
    {requestId : String} {q : Query} (bare : ∀ e ∈ table.entries, Bare e.2.column.toList)
    (compiled : (Query.compile (some f) table order page requestId).result = .ok q) :
    Bracketed q.predicate.text.toList (f.connectives + f.leaves) (1 + f.nesting) := by
  obtain ⟨p, compiles, rfl⟩ := Query.compile_ok_iff.mp compiled
  exact compiles.bracketed bare

theorem scopedFilter_parentheses :
    (∀ e ∈ messages.entries, Bare e.2.column.toList) ∧
    (Query.compile (some scopedFilter) messages ⟨"msg.id", .desc⟩ ⟨2, 10⟩ "").result =
      .ok scopedQuery ∧
    Bracketed scopedQuery.predicate.text.toList 5 3 :=
  have bare : ∀ e ∈ messages.entries, Bare e.2.column.toList := by decide
  ⟨bare, compile_scopedFilter, parentheses_of_filter bare compile_scopedFilter⟩

end ScimQuery
