import ScimQuery.Column

/-!
# Characters of column names

A column name is never empty, and it is made of ASCII letters, digits, underscores and dots.
-/

namespace ScimQuery

def isNameChar (c : Char) : Bool := c.isAlphanum || c = '_' || c = '.'

theorem isIdentifier_chars {cs : List Char} (identifier : isIdentifier cs = true) :
    ∀ c ∈ cs, isNameChar c = true := by
  cases cs with
  | nil => simp
  | cons first rest =>
    simp only [isIdentifier, Bool.and_eq_true, Bool.or_eq_true, List.all_eq_true] at identifier
    intro c member
    rcases List.mem_cons.mp member with same | later
    · subst c
      rcases identifier.1 with letter | underscore
      · simp [isNameChar, Char.isAlphanum, letter]
      · simp [isNameChar, underscore]
    · have allowed := identifier.2 c later
      simp only [isNameChar, Bool.or_eq_true]
      exact Or.inl allowed

/-- Splitting at dots loses nothing but the dots. -/
theorem mem_dotted {cs : List Char} {c : Char} (member : c ∈ cs) :
    c = '.' ∨ ∃ part ∈ dotted cs, c ∈ part := by
  fun_induction dotted cs with
  | case1 => simp at member
  | case2 cs ih =>
    rcases List.mem_cons.mp member with same | later
    · exact Or.inl same
    · exact (ih later).imp_right fun ⟨part, inside, found⟩ =>
        ⟨part, List.mem_cons_of_mem _ inside, found⟩
  | case3 d cs _ empty ih =>
    rcases List.mem_cons.mp member with same | later
    · exact Or.inr ⟨[d], by simp, by simp [same]⟩
    · simp [empty] at ih
      simp [ih later]
  | case4 d cs _ first rest split ih =>
    rcases List.mem_cons.mp member with same | later
    · exact Or.inr ⟨d :: first, by simp, by simp [same]⟩
    · rcases ih later with dot | ⟨part, inside, found⟩
      · exact Or.inl dot
      · rw [split] at inside
        rcases List.mem_cons.mp inside with same | other
        · subst part
          exact Or.inr ⟨d :: first, by simp, List.mem_cons_of_mem _ found⟩
        · exact Or.inr ⟨part, List.mem_cons_of_mem _ other, found⟩

theorem columnName_chars {s : String} (named : isColumnName s = true) :
    ∀ c ∈ s.toList, isNameChar c = true := by
  intro c member
  rcases mem_dotted member with dot | ⟨part, inside, found⟩
  · subst c
    rfl
  · exact isIdentifier_chars (List.all_eq_true.mp named part inside) c found

theorem columnName_nonempty {s : String} (named : isColumnName s = true) : s.toList ≠ [] := by
  intro empty
  simp [isColumnName, empty, dotted, isIdentifier] at named

end ScimQuery
