import Mathlib.Data.List.Infix
import ScimQuery.Parameter

/-!
# What patterns select

In the patterns of a database a percent sign stands for any text, an underscore for any character,
and a character behind a backslash for itself. The parameter of a pattern operator selects the texts
that hold the value, start with it or end with it, whatever the type of the column, as long as none
of these signs is in the value (`pattern_selects`).
-/

namespace ScimQuery

/-- Whether a text has the form of a pattern. -/
def isLike : List Char → List Char → Bool
  | [], text => text.isEmpty
  | '%' :: pattern, text => text.tails.any (isLike pattern)
  | '_' :: pattern, _ :: text => isLike pattern text
  | '\\' :: c :: pattern, d :: text => c = d && isLike pattern text
  | c :: pattern, d :: text => c = d && isLike pattern text
  | _ :: _, [] => false

/-- A text without a sign of patterns. -/
def Literal (text : List Char) : Prop := ∀ c ∈ text, c ∉ ['%', '_', '\\']

variable {pattern value text : List Char}

theorem isLike_nil : isLike [] text ↔ text = [] := by
  rw [isLike, List.isEmpty_iff]

theorem isLike_percent :
    isLike ('%' :: pattern) text ↔ ∃ rest, rest <:+ text ∧ isLike pattern rest := by
  simp only [isLike, List.any_eq_true, List.mem_tails]

/-- A value in front of a pattern is taken from the text as it is. -/
theorem isLike_literal (literal : Literal value) :
    isLike (value ++ pattern) text ↔ ∃ rest, text = value ++ rest ∧ isLike pattern rest := by
  induction value generalizing text with
  | nil => simp
  | cons c value ih =>
    obtain ⟨plain, literal⟩ := List.forall_mem_cons.mp literal
    simp only [List.mem_cons, List.not_mem_nil, or_false, not_or] at plain
    obtain ⟨percent, underscore, backslash⟩ := plain
    cases text with
    | nil => simp [isLike]
    | cons d text =>
      have step : isLike (c :: (value ++ pattern)) (d :: text) =
          (decide (c = d) && isLike (value ++ pattern) text) := by
        rw [isLike]
        all_goals simp_all
      rw [List.cons_append, step, Bool.and_eq_true, decide_eq_true_iff, ih literal]
      constructor
      · rintro ⟨rfl, rest, rfl, like⟩
        exact ⟨rest, rfl, like⟩
      · rintro ⟨rest, same, like⟩
        obtain ⟨rfl, rfl⟩ := List.cons.inj same
        exact ⟨rfl, rest, rfl, like⟩

theorem isLike_any : isLike ['%'] text := by
  rw [isLike_percent]
  exact ⟨[], List.nil_suffix, rfl⟩

theorem isLike_prefix (literal : Literal value) :
    isLike (value ++ ['%']) text ↔ value <+: text := by
  rw [isLike_literal literal]
  constructor
  · rintro ⟨rest, rfl, _⟩
    exact List.prefix_append value rest
  · rintro ⟨rest, rfl⟩
    exact ⟨rest, rfl, isLike_any⟩

theorem isLike_suffix (literal : Literal value) : isLike ('%' :: value) text ↔ value <:+ text := by
  have alone : ∀ rest, isLike value rest ↔ rest = value := by
    intro rest
    have whole : isLike (value ++ []) rest ↔ ∃ more, rest = value ++ more ∧ isLike [] more :=
      isLike_literal literal
    simpa [isLike_nil] using whole
  simp only [isLike_percent, alone]
  constructor
  · rintro ⟨_, ending, rfl⟩
    exact ending
  · exact fun ending => ⟨value, ending, rfl⟩

theorem isLike_infix (literal : Literal value) :
    isLike ('%' :: (value ++ ['%'])) text ↔ value <:+: text := by
  simp only [isLike_percent, isLike_prefix literal]
  constructor
  · rintro ⟨rest, ending, front⟩
    exact front.isInfix.trans ending.isInfix
  · rintro ⟨before, behind, rfl⟩
    refine ⟨value ++ behind, ⟨before, ?_⟩, List.prefix_append value behind⟩
    rw [List.append_assoc]

/-- What a pattern operator binds does not depend on the type of the column. -/
theorem Condition.bind_pattern {operator : Operator} {before behind : String}
    (wild : operator.wildcards = some (before, behind)) (path : AttributePath) (v : Scalar)
    (column : Column) :
    bind ⟨path, operator, some v⟩ column = .ok (some (.text (before ++ v.text ++ behind))) := by
  have compared : operator ≠ .pr := by
    rintro rfl
    cases wild
  rw [bind, if_neg compared]
  simp only [wild]

/-- A condition with a pattern operator binds a pattern, whatever the type of the column: one that
selects the texts with the value in them for `co`, those that start with it for `sw` and those that
end with it for `ew`. -/
theorem pattern_selects {v : Scalar}
    (literal : ∀ c ∈ v.text.toList, c ≠ '%' ∧ c ≠ '_' ∧ c ≠ '\\') (path : AttributePath)
    (column : Column) :
    (∃ pattern, Condition.bind ⟨path, .co, some v⟩ column = .ok (some (.text pattern)) ∧
      ∀ s : String, isLike pattern.toList s.toList ↔ v.text.toList <:+: s.toList) ∧
    (∃ pattern, Condition.bind ⟨path, .sw, some v⟩ column = .ok (some (.text pattern)) ∧
      ∀ s : String, isLike pattern.toList s.toList ↔ v.text.toList <+: s.toList) ∧
    ∃ pattern, Condition.bind ⟨path, .ew, some v⟩ column = .ok (some (.text pattern)) ∧
      ∀ s : String, isLike pattern.toList s.toList ↔ v.text.toList <:+ s.toList := by
  have literal : Literal v.text.toList := fun c member => by simpa using literal c member
  refine ⟨⟨_, Condition.bind_pattern rfl path v column, fun s => ?_⟩,
    ⟨_, Condition.bind_pattern rfl path v column, fun s => ?_⟩,
    ⟨_, Condition.bind_pattern rfl path v column, fun s => ?_⟩⟩
  · simpa using isLike_infix literal
  · simpa using isLike_prefix literal
  · simpa using isLike_suffix literal

/-- The value -5 and a column of numbers. -/
theorem minusFive_selects :
    (∀ c ∈ (Scalar.integer (-5)).text.toList, c ≠ '%' ∧ c ≠ '_' ∧ c ≠ '\\') ∧
    ∃ pattern, Condition.bind ⟨{ name := "size" }, .ew, some (.integer (-5))⟩ ⟨"msg.size", .int, true⟩ =
        .ok (some (.text pattern)) ∧
      isLike pattern.toList "2-5".toList ∧ ¬isLike pattern.toList "-52".toList := by
  have literal : ∀ c ∈ (Scalar.integer (-5)).text.toList, c ≠ '%' ∧ c ≠ '_' ∧ c ≠ '\\' := by
    have text : (Scalar.integer (-5)).text.toList = ['-', '5'] := by decide
    simp [text]
  obtain ⟨_, _, pattern, bound, selects⟩ :=
    pattern_selects literal { name := "size" } ⟨"msg.size", .int, true⟩
  refine ⟨literal, pattern, bound, (selects "2-5").mpr ?_, fun like => ?_⟩
  · decide
  · exact absurd ((selects "-52").mp like) (by decide)

end ScimQuery
