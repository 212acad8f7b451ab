import ScimQuery.Parameter
import ScimQuery.Proofs.ColumnName

/-!
# The grammar of predicates

A predicate compares a column with a placeholder, asks for the presence of a column, or joins two
predicates; each of the three stands in parentheses. Blanks between tokens do not count, and every
placeholder takes the next parameter. `reads_unique` shows that no text has two readings.
-/

namespace ScimQuery

inductive Token where
  | opening
  | closing
  | placeholder
  | column (name : String)
  | operator (o : Operator)
  | connective (k : Connective)

def Token.text : Token → List Char
  | opening => ['(']
  | closing => [')']
  | placeholder => ['?']
  | column name => name.toList
  | operator o => o.sql.toList
  | connective k => k.sql.toList

/-- A text that is some tokens with any number of blanks around each of them. -/
inductive Spells : List Char → List Token → Prop where
  | done : Spells [] []
  | blank {cs ts} (rest : Spells cs ts) : Spells (' ' :: cs) ts
  | token {cs ts} (t : Token) (rest : Spells cs ts) : Spells (t.text ++ cs) (t :: ts)

/-- What a predicate says. A leaf without a value asks for presence. -/
inductive Reading where
  | leaf (column operator : String) (value : Option Parameter)
  | joined (left : Reading) (connective : Connective) (right : Reading)

/-- Tokens that form a predicate, the parameters in front of it, what it says, and the parameters
that it leaves. -/
inductive Derives : List Token → List Parameter → Reading → List Parameter → Prop where
  | comparison {name o} (named : isColumnName name = true) (compares : o ≠ .pr) (p ps) :
      Derives [.opening, .column name, .operator o, .placeholder, .closing] (p :: ps)
        (.leaf name o.sql (some p)) ps
  | presence {name} (named : isColumnName name = true) (ps) :
      Derives [.opening, .column name, .operator .pr, .closing] ps
        (.leaf name Operator.pr.sql none) ps
  | joined {ts us ps qs rs l r} (k) (left : Derives ts ps l qs) (right : Derives us qs r rs) :
      Derives (.opening :: ts ++ .connective k :: us ++ [.closing]) ps (.joined l k r) rs

/-- A text with parameters reads as `t` and leaves the parameters `rest`. -/
def Reads (text : String) (ps : List Parameter) (t : Reading) (rest : List Parameter) : Prop :=
  ∃ tokens, Spells text.toList tokens ∧ Derives tokens ps t rest

/-! ### Spelling -/

theorem Spells.append {cs ds : List Char} {ts us : List Token} (first : Spells cs ts)
    (second : Spells ds us) : Spells (cs ++ ds) (ts ++ us) := by
  induction first with
  | done => exact second
  | blank _ ih => exact .blank ih
  | token t _ ih =>
    rw [List.append_assoc]
    exact .token t ih

theorem Spells.single (t : Token) : Spells t.text [t] := by
  simpa using Spells.token t .done

def notBlank (c : Char) : Bool := c ≠ ' '

/-- The characters of some tokens without blanks. -/
def squeezed (ts : List Token) : List Char := ts.flatMap fun t => t.text.filter notBlank

@[simp] theorem squeezed_cons (t : Token) (ts : List Token) :
    squeezed (t :: ts) = t.text.filter notBlank ++ squeezed ts := List.flatMap_cons

@[simp] theorem squeezed_append (ts us : List Token) :
    squeezed (ts ++ us) = squeezed ts ++ squeezed us := List.flatMap_append

@[simp] theorem squeezed_nil : squeezed [] = [] := rfl

theorem Spells.filter_eq {cs : List Char} {ts : List Token} (h : Spells cs ts) :
    cs.filter notBlank = squeezed ts := by
  induction h with
  | done => rfl
  | blank _ ih => simpa [notBlank] using ih
  | token t _ ih => rw [List.filter_append, ih, squeezed_cons]

/-! ### Unique readings -/

/-- Two texts that agree up to the first character of another kind. -/
theorem append_cons_unique {kind : Char → Bool} {as bs xs ys : List Char} {a b : Char}
    (left : ∀ c ∈ as, kind c = true) (right : ∀ c ∈ bs, kind c = true) (ha : kind a = false)
    (hb : kind b = false) (same : as ++ a :: xs = bs ++ b :: ys) :
    as = bs ∧ a = b ∧ xs = ys := by
  have front := congrArg (List.takeWhile kind) same
  have back := congrArg (List.dropWhile kind) same
  rw [List.takeWhile_append_of_pos left, List.takeWhile_append_of_pos right] at front
  rw [List.dropWhile_append_of_pos left, List.dropWhile_append_of_pos right] at back
  simp only [ha, hb, List.takeWhile_cons, List.dropWhile_cons, Bool.false_eq_true, if_false,
    List.append_nil, List.cons.injEq] at front back
  exact ⟨front, back⟩

theorem isNameChar_notBlank {c : Char} (h : isNameChar c = true) : notBlank c = true := by
  by_cases blank : c = ' '
  · subst c
    exact absurd h (by decide)
  · simp [notBlank, blank]

def Operator.letters (o : Operator) : List Char := o.sql.toList.filter notBlank

section
variable {name : String} (named : isColumnName name = true)
include named

theorem filter_columnName : name.toList.filter notBlank = name.toList :=
  List.filter_eq_self.mpr fun c member => isNameChar_notBlank (columnName_chars named c member)

theorem squeezed_comparison (o : Operator) (xs : List Char) :
    squeezed [.opening, .column name, .operator o, .placeholder, .closing] ++ xs =
      '(' :: (name.toList ++ o.letters ++ '?' :: ')' :: xs) := by
  simp [Token.text, Operator.letters, filter_columnName named, notBlank]

theorem squeezed_presence (xs : List Char) :
    squeezed [.opening, .column name, .operator .pr, .closing] ++ xs =
      '(' :: (name.toList ++ Operator.pr.letters ++ ')' :: xs) := by
  simp [Token.text, Operator.letters, filter_columnName named, notBlank]

theorem columnName_ne_opening {xs ys : List Char} : name.toList ++ xs ≠ '(' :: ys := by
  intro same
  cases text : name.toList with
  | nil => exact columnName_nonempty named text
  | cons c cs =>
    rw [text] at same
    have first : c = '(' := (List.cons.inj same).1
    have allowed := columnName_chars named c (by simp [text])
    exact absurd allowed (by subst first; decide)

end

theorem squeezed_joined (ts us : List Token) (k : Connective) (xs : List Char) :
    squeezed (.opening :: ts ++ .connective k :: us ++ [.closing]) ++ xs =
      '(' :: (squeezed ts ++ (k.sql.toList ++ (squeezed us ++ ')' :: xs))) := by
  have word : k.sql.toList.filter notBlank = k.sql.toList := by cases k <;> decide
  simp [Token.text, word, notBlank]

theorem connective_unique {k j : Connective} {xs ys : List Char}
    (same : k.sql.toList ++ xs = j.sql.toList ++ ys) : k = j ∧ xs = ys := by
  cases k <;> cases j <;> simp_all [Connective.sql]

/-- The characters between the parenthesis of a leaf and what ends it. -/
def isLeafChar (c : Char) : Bool := c ≠ '?' && c ≠ ')'

theorem isNameChar_isLeafChar {c : Char} (h : isNameChar c = true) : isLeafChar c = true := by
  simp only [isLeafChar, Bool.and_eq_true, decide_eq_true_eq]
  refine ⟨fun mark => ?_, fun closing => ?_⟩
  · exact absurd h (by subst mark; decide)
  · exact absurd h (by subst closing; decide)

theorem leaf_chars {name : String} (named : isColumnName name = true) (o : Operator) :
    ∀ c ∈ name.toList ++ o.letters, isLeafChar c = true := by
  intro c member
  rcases List.mem_append.mp member with inName | inOperator
  · exact isNameChar_isLeafChar (columnName_chars named c inName)
  · have all : o.letters.all isLeafChar = true := by cases o <;> decide
    exact List.all_eq_true.mp all c inOperator

/-- The operator starts where the characters of names end, or it is `LIKE`. -/
theorem leaf_unique {name other : String} {o o' : Operator} (named : isColumnName name = true)
    (named' : isColumnName other = true) (compares : o ≠ .pr) (compares' : o' ≠ .pr)
    (same : name.toList ++ o.letters = other.toList ++ o'.letters) :
    name = other ∧ o.sql = o'.sql := by
  have back := congrArg (List.dropWhile isNameChar) same
  rw [List.dropWhile_append_of_pos (columnName_chars named),
    List.dropWhile_append_of_pos (columnName_chars named')] at back
  have sql : o.sql = o'.sql := by
    revert back compares compares'
    cases o <;> cases o' <;> decide
  have letters : o.letters = o'.letters := by rw [Operator.letters, sql, Operator.letters]
  rw [letters] at same
  exact ⟨String.toList_inj.mp (List.append_cancel_right same), sql⟩

theorem Derives.opens {ts : List Token} {ps rest : List Parameter} {t : Reading}
    (h : Derives ts ps t rest) (xs : List Char) : ∃ cs, squeezed ts ++ xs = '(' :: cs := by
  cases h with
  | comparison named => exact ⟨_, squeezed_comparison named _ xs⟩
  | presence named => exact ⟨_, squeezed_presence named xs⟩
  | joined => exact ⟨_, squeezed_joined _ _ _ xs⟩

/-- A group has a second parenthesis where a leaf has its column. -/
theorem leaf_not_joined {name : String} (named : isColumnName name = true) {ts : List Token}
    {ps rest : List Parameter} {t : Reading} (inner : Derives ts ps t rest) {xs ys : List Char} :
    name.toList ++ xs ≠ squeezed ts ++ ys := by
  obtain ⟨cs, opens⟩ := inner.opens ys
  rw [opens]
  exact columnName_ne_opening named

/-- Two predicates in front of the same text are the same, and so is what they leave. -/
theorem derives_unique {ts us : List Token} {ps rest left : List Parameter} {t u : Reading}
    {xs ys : List Char} (first : Derives ts ps t rest) (second : Derives us ps u left)
    (same : squeezed ts ++ xs = squeezed us ++ ys) : t = u ∧ rest = left ∧ xs = ys := by
  induction first generalizing us u left xs ys with
  | comparison named compares p ps =>
    rw [squeezed_comparison named] at same
    cases second with
    | comparison named' compares' =>
      rw [squeezed_comparison named'] at same
      obtain ⟨leaves, _, ends⟩ := append_cons_unique (leaf_chars named _) (leaf_chars named' _)
        rfl rfl (List.cons.inj same).2
      obtain ⟨rfl, sql⟩ := leaf_unique named named' compares compares' leaves
      exact ⟨by rw [sql], rfl, (List.cons.inj ends).2⟩
    | presence named' =>
      rw [squeezed_presence named'] at same
      obtain ⟨_, marks, _⟩ := append_cons_unique (leaf_chars named _) (leaf_chars named' _)
        rfl rfl (List.cons.inj same).2
      exact absurd marks (by decide)
    | joined k inner =>
      rw [squeezed_joined, List.append_assoc] at same
      exact absurd (List.cons.inj same).2 (leaf_not_joined named inner)
  | presence named ps =>
    rw [squeezed_presence named] at same
    cases second with
    | comparison named' =>
      rw [squeezed_comparison named'] at same
      obtain ⟨_, marks, _⟩ := append_cons_unique (leaf_chars named _) (leaf_chars named' _)
        rfl rfl (List.cons.inj same).2
      exact absurd marks (by decide)
    | presence named' =>
      rw [squeezed_presence named'] at same
      obtain ⟨leaves, _, ends⟩ := append_cons_unique (leaf_chars named _) (leaf_chars named' _)
        rfl rfl (List.cons.inj same).2
      have names := String.toList_inj.mp (List.append_cancel_right leaves)
      exact ⟨by rw [names], rfl, ends⟩
    | joined k inner =>
      rw [squeezed_joined, List.append_assoc] at same
      exact absurd (List.cons.inj same).2 (leaf_not_joined named inner)
  | joined k inner _ firstIh restIh =>
    rw [squeezed_joined] at same
    cases second with
    | comparison named' =>
      rw [squeezed_comparison named', List.append_assoc] at same
      exact absurd (List.cons.inj same).2.symm (leaf_not_joined named' inner)
    | presence named' =>
      rw [squeezed_presence named', List.append_assoc] at same
      exact absurd (List.cons.inj same).2.symm (leaf_not_joined named' inner)
    | joined j left' right' =>
      rw [squeezed_joined] at same
      obtain ⟨rfl, rfl, behind⟩ := firstIh left' (List.cons.inj same).2
      obtain ⟨rfl, after⟩ := connective_unique behind
      obtain ⟨rfl, rfl, ends⟩ := restIh right' after
      exact ⟨rfl, rfl, (List.cons.inj ends).2⟩

theorem reads_unique {text : String} {ps rest left : List Parameter} {t u : Reading}
    (first : Reads text ps t rest) (second : Reads text ps u left) : t = u ∧ rest = left := by
  obtain ⟨ts, spelled, derived⟩ := first
  obtain ⟨us, spelled', derived'⟩ := second
  have same : squeezed ts ++ [] = squeezed us ++ [] := by
    rw [← spelled.filter_eq, ← spelled'.filter_eq]
  obtain ⟨rfl, rfl, _⟩ := derives_unique derived derived' same
  exact ⟨rfl, rfl⟩

end ScimQuery
