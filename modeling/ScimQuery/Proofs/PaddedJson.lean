import ScimQuery.Proofs.Numerals

/-!
# Lists and objects with blanks

Blanks may stand around every element of a list and around the names and values of an object.
What reads each member by itself reads the whole of them, to the same result and whatever the
blanks (`items_padded`, `members_padded`).
-/

namespace ScimQuery.Json

/-! ### Padded texts -/

/-- A text with the blanks around it. -/
structure Padded where
  before : List Char := []
  core : List Char
  behind : List Char := []
  blankBefore : Blanks before
  blankBehind : Blanks behind

def Padded.text (p : Padded) : List Char := p.before ++ (p.core ++ p.behind)

/-- A member of an object: the characters between the quotes of its name, and its value. -/
structure Named where
  before : List Char := []
  name : List Char
  behind : List Char := []
  value : Padded
  blankBefore : Blanks before
  blankBehind : Blanks behind

/-- A member behind its name. -/
def Named.tail (m : Named) : List Char := m.behind ++ ':' :: m.value.text

def Named.text (m : Named) : List Char := m.before ++ '"' :: (m.name ++ '"' :: m.tail)

def joined : List (List Char) → List Char
  | [] => []
  | text :: texts => text ++ texts.flatMap (',' :: ·)

theorem Blanks.nil : Blanks [] := fun _ member => nomatch member

theorem NumberEnds.of_mem {c : Char} (member : c ∈ [',', ']', '\x7d']) (rest : List Char) :
    NumberEnds (c :: rest) := by
  intro d first
  obtain rfl : c = d := Option.some.inj first
  clear first
  simp only [List.mem_cons, List.not_mem_nil, or_false] at member
  rcases member with rfl | rfl | rfl <;> decide

theorem NumberEnds.blanks {blanks rest : List Char} (blank : Blanks blanks)
    (ends : NumberEnds rest) : NumberEnds (blanks ++ rest) := by
  cases blanks with
  | nil => exact ends
  | cons b blanks =>
    intro c first
    obtain rfl : b = c := Option.some.inj first
    have space := blank b List.mem_cons_self
    simp only [isSpace, Bool.or_eq_true, decide_eq_true_eq] at space
    rcases space with ((rfl | rfl) | rfl) | rfl <;> decide

/-- Nothing behind a member goes on with a number. -/
theorem NumberEnds.others {α : Type} {close : Char} (closing : close = ']' ∨ close = '\x7d')
    {blanks : List Char} (blank : Blanks blanks) (text : α → List Char) (as : List α)
    (rest : List Char) :
    NumberEnds (as.flatMap (fun a => ',' :: text a) ++ (blanks ++ close :: rest)) := by
  cases as with
  | nil =>
    rw [List.flatMap_nil, List.nil_append]
    exact .blanks blank (.of_mem (by simpa using .inr closing) _)
  | cons a as => exact .of_mem List.mem_cons_self _

theorem length_le_flatMap_cons {f : α → List β} {b : β} (as : List α) :
    as.length ≤ (as.flatMap fun a => b :: f a).length := by
  induction as with
  | nil => exact Nat.le_refl 0
  | cons a as ih =>
    rw [List.flatMap_cons, List.length_append, List.length_cons, List.length_cons]
    omega

variable {α β σ : Type}

/-! ### Lists -/

/-- A text that a list can hold: it is no blank and does not close the list. -/
def ItemText (text : List Char) : Prop :=
  ∃ c ∈ text.head?, isSpace c = false ∧ c ≠ ']'

theorem ItemText.eq_cons {text : List Char} (form : ItemText text) :
    ∃ c cs, text = c :: cs ∧ isSpace c = false ∧ c ≠ ']' := by
  obtain ⟨c, first, solid, opens⟩ := form
  cases text with
  | nil => cases first
  | cons c' cs =>
    obtain rfl : c' = c := Option.some.inj first
    exact ⟨c', cs, rfl, solid, opens⟩

theorem nextItem_first {before text : List Char} (blank : Blanks before) (form : ItemText text)
    (more : List Char) : nextItem true (before ++ (text ++ more)) = .ok (some (text ++ more)) := by
  obtain ⟨c, cs, rfl, solid, opens⟩ := form.eq_cons
  rw [nextItem, skipSpace_append blank, List.cons_append, skipSpace_cons solid]
  simp

theorem nextItem_later {blanks before text : List Char} (blank : Blanks blanks)
    (blankBefore : Blanks before) (form : ItemText text) (more : List Char) :
    nextItem false (blanks ++ ',' :: (before ++ (text ++ more))) = .ok (some (text ++ more)) := by
  obtain ⟨c, cs, rfl, solid, opens⟩ := form.eq_cons
  have inner : skipSpace (before ++ c :: (cs ++ more)) = c :: (cs ++ more) := by
    rw [skipSpace_append blankBefore, skipSpace_cons solid]
  rw [nextItem, skipSpace_append blank, skipSpace_cons (by decide)]
  simp [inner, opens]

theorem nextItem_closing {blanks : List Char} (blank : Blanks blanks) (first : Bool)
    (rest : List Char) : nextItem first (blanks ++ ']' :: rest) = .ok none := by
  rw [nextItem, skipSpace_append blank, skipSpace_cons (by decide)]
  rfl

theorem closeList_closing {blanks : List Char} (blank : Blanks blanks) (rest : List Char) :
    closeList (blanks ++ ']' :: rest) = .ok rest := by
  rw [closeList, skipSpace_append blank, skipSpace_cons (by decide)]
  rfl

theorem itemsFrom_some {item : Reader α} {first : Bool} {text text' : List Char}
    (next : nextItem first text = .ok (some text')) (c : Char) (bound : List Char) :
    itemsFrom item (c :: bound) first text =
      (item text').bind fun (a, rest) =>
        (itemsFrom item bound false rest).map fun (as, rest) => (a :: as, rest) := by
  rw [itemsFrom, next]
  change (item text' >>= fun a => itemsFrom item bound false a.2 >>= fun as =>
    pure (a.1 :: as.1, as.2)) = _
  cases item text' with
  | error e => rfl
  | ok read =>
    change (itemsFrom item bound false read.2 >>= fun as => pure (read.1 :: as.1, as.2)) = _
    cases h : itemsFrom item bound false read.2 <;> simp [Except.bind, Except.map, h]

theorem itemsFrom_closing (item : Reader α) {blanks : List Char} (blank : Blanks blanks)
    (first : Bool) (c : Char) (bound rest : List Char) :
    itemsFrom item (c :: bound) first (blanks ++ ']' :: rest) = .ok ([], rest) := by
  rw [itemsFrom, nextItem_closing blank]
  change (closeList (blanks ++ ']' :: rest) >>= fun rest => pure ([], rest)) = _
  rw [closeList_closing blank]
  rfl

section Lists

variable {item : Reader α} {f : β → Except ReadError α} (pad : β → Padded)

/-- Elements behind the first are read by what reads each of them. -/
theorem itemsFrom_padded {bs : List β} (form : ∀ b ∈ bs, ItemText (pad b).core)
    (read : ∀ b ∈ bs, ∀ rest, NumberEnds rest →
      item ((pad b).core ++ rest) = (f b).map fun a => (a, rest))
    {blanks close : List Char} (blank : Blanks blanks) (blankClose : Blanks close)
    (bound : List Char) (long : bs.length < bound.length) (rest : List Char) :
    itemsFrom item bound false
        (blanks ++ (bs.flatMap (fun b => ',' :: (pad b).text) ++ (close ++ ']' :: rest))) =
      (bs.mapM f).map fun as => (as, rest) := by
  -- The blanks in front are those that the element read last has left.
  induction bs generalizing bound blanks with
  | nil =>
    cases bound with
    | nil => exact absurd long (by simp)
    | cons c bound =>
      have closing : Blanks (blanks ++ close) := List.forall_mem_append.mpr ⟨blank, blankClose⟩
      rw [List.flatMap_nil, List.nil_append, ← List.append_assoc, itemsFrom_closing item closing]
      rfl
  | cons b bs ih =>
    cases bound with
    | nil => exact absurd long (by simp)
    | cons c bound =>
      have later := ih (fun b member => form b (List.mem_cons_of_mem _ member))
        (fun b member => read b (List.mem_cons_of_mem _ member)) (pad b).blankBehind bound
        (by simpa using long)
      have ends := NumberEnds.blanks (pad b).blankBehind
        (.others (.inl rfl) blankClose (fun b => (pad b).text) bs rest)
      rw [List.flatMap_cons, List.cons_append, List.cons_append, Padded.text, List.append_assoc,
        List.append_assoc, List.append_assoc,
        itemsFrom_some (nextItem_later blank (pad b).blankBefore (form b List.mem_cons_self) _),
        read b List.mem_cons_self _ ends, List.mapM_cons]
      cases f b with
      | error e => rfl
      | ok a =>
        simp only [Except.map, Except.bind, later]
        cases bs.mapM f <;> rfl

theorem items_padded {bs : List β} (form : ∀ b ∈ bs, ItemText (pad b).core)
    (read : ∀ b ∈ bs, ∀ rest, NumberEnds rest →
      item ((pad b).core ++ rest) = (f b).map fun a => (a, rest))
    {close : List Char} (blankClose : Blanks close) (rest : List Char) :
    items item (joined (bs.map fun b => (pad b).text) ++ (close ++ ']' :: rest)) =
      (bs.mapM f).map fun as => (as, rest) := by
  cases bs with
  | nil =>
    have more : close ++ ']' :: rest ≠ [] := by simp
    obtain ⟨c, bound, text⟩ := List.exists_cons_of_ne_nil more
    change itemsFrom item (close ++ ']' :: rest) true (close ++ ']' :: rest) = _
    rw [congrArg (itemsFrom item · true _) text, itemsFrom_closing item blankClose]
    rfl
  | cons b bs =>
    have first := form b List.mem_cons_self
    have ends := NumberEnds.blanks (pad b).blankBehind
      (.others (.inl rfl) blankClose (fun b => (pad b).text) bs rest)
    have steps : bs.length ≤ (bs.flatMap fun b => ',' :: (pad b).text).length :=
      length_le_flatMap_cons bs
    have next := nextItem_first (pad b).blankBefore first ((pad b).behind ++
      (bs.flatMap (fun b => ',' :: (pad b).text) ++ (close ++ ']' :: rest)))
    obtain ⟨c, cs, core, _⟩ := first.eq_cons
    rw [List.map_cons, joined, List.flatMap_map, Padded.text, List.append_assoc, List.append_assoc,
      List.append_assoc, items]
    cases whole : (pad b).before ++ ((pad b).core ++ ((pad b).behind ++
        (bs.flatMap (fun b => ',' :: (pad b).text) ++ (close ++ ']' :: rest)))) with
    | nil => simp [core] at whole
    | cons d bound =>
      have length := congrArg List.length whole
      simp only [core, List.length_append, List.length_cons] at length
      have later := itemsFrom_padded pad (fun b member => form b (List.mem_cons_of_mem _ member))
        (fun b member => read b (List.mem_cons_of_mem _ member)) (pad b).blankBehind blankClose
        bound (by omega) rest
      rw [itemsFrom_some (whole ▸ next), read b List.mem_cons_self _ ends, List.mapM_cons]
      cases f b with
      | error e => rfl
      | ok a =>
        simp only [Except.map, Except.bind, later]
        cases bs.mapM f <;> rfl

end Lists

/-! ### Objects -/

theorem nextName_first {before name : List Char} {r : Except Malformed String}
    (blank : Blanks before) {more : List Char}
    (scanned : scanString (name ++ '"' :: more) = r.map fun s => (s, more)) :
    nextName true (before ++ '"' :: (name ++ '"' :: more)) =
      (lift r).map fun s => (some s, more) := by
  rw [nextName, skipSpace_append blank, skipSpace_cons (by decide)]
  change (lift (scanString _) >>= fun name => pure (some name.1, name.2)) = _
  rw [scanned]
  cases r <;> rfl

theorem nextName_later {blanks before name : List Char} {r : Except Malformed String}
    (blank : Blanks blanks) (blankBefore : Blanks before) {more : List Char}
    (scanned : scanString (name ++ '"' :: more) = r.map fun s => (s, more)) :
    nextName false (blanks ++ ',' :: (before ++ '"' :: (name ++ '"' :: more))) =
      (lift r).map fun s => (some s, more) := by
  have inner : skipSpace (before ++ '"' :: (name ++ '"' :: more)) = '"' :: (name ++ '"' :: more) := by
    rw [skipSpace_append blankBefore, skipSpace_cons (by decide)]
  rw [nextName, skipSpace_append blank, skipSpace_cons (by decide)]
  change (if ',' = ',' then _ else malformed .expectedObjectSeparator) = _
  rw [if_pos rfl, inner]
  change (lift (scanString _) >>= fun name => pure (some name.1, name.2)) = _
  rw [scanned]
  cases r <;> rfl

theorem nextName_closing {blanks : List Char} (blank : Blanks blanks) (first : Bool)
    (rest : List Char) : nextName first (blanks ++ '\x7d' :: rest) = .ok (none, rest) := by
  rw [nextName, skipSpace_append blank, skipSpace_cons (by decide)]
  rfl

theorem membersFrom_some {member : String → σ → Reader σ} {first : Bool} {text rest : List Char}
    {name : String} (next : nextName first text = .ok (some name, rest)) (c : Char)
    (bound : List Char) (s : σ) :
    membersFrom member (c :: bound) first s text =
      (member name s rest).bind fun (s, rest) => membersFrom member bound false s rest := by
  rw [membersFrom, next]
  rfl

theorem membersFrom_closing (member : String → σ → Reader σ) {blanks : List Char}
    (blank : Blanks blanks) (first : Bool) (c : Char) (bound : List Char) (s : σ)
    (rest : List Char) :
    membersFrom member (c :: bound) first s (blanks ++ '\x7d' :: rest) = .ok (s, rest) := by
  rw [membersFrom, nextName_closing blank]
  rfl

theorem colon_cons {blanks : List Char} (blank : Blanks blanks) (rest : List Char) :
    colon (blanks ++ ':' :: rest) = .ok rest := by
  rw [colon, skipSpace_append blank, skipSpace_cons (by decide)]
  rfl

/-- One member of an object: its name is scanned, and then its value is taken in. -/
def takeNamed (name : Except Malformed String) (step : String → σ → Except ReadError σ) (s : σ) :
    Except ReadError σ :=
  (lift name).bind fun name => step name s

section Objects

variable {member : String → σ → Reader σ} (pad : β → Named) (name : β → Except Malformed String)
  (step : β → String → σ → Except ReadError σ)

theorem membersFrom_next {first : Bool} {text more rest : List Char}
    {r : Except Malformed String} {step : String → σ → Except ReadError σ}
    (next : nextName first text = (lift r).map fun s => (some s, more))
    (read : ∀ n, r = .ok n → ∀ s, member n s more = (step n s).map fun s => (s, rest)) (c : Char)
    (bound : List Char) (s : σ) :
    membersFrom member (c :: bound) first s text =
      (takeNamed r step s).bind fun s => membersFrom member bound false s rest := by
  cases r with
  | error e =>
    rw [membersFrom, next]
    rfl
  | ok n =>
    rw [membersFrom_some next, read n rfl]
    change _ = (step n s).bind _
    cases step n s <;> rfl

/-- Members behind the first are taken in by what takes in each of them. -/
theorem membersFrom_padded {bs : List β}
    (scanned : ∀ b ∈ bs, ∀ more, scanString ((pad b).name ++ '"' :: more) =
      (name b).map fun s => (s, more))
    (read : ∀ b ∈ bs, ∀ n, name b = .ok n → ∀ s rest, NumberEnds rest →
      member n s ((pad b).behind ++ ':' :: ((pad b).value.before ++ ((pad b).value.core ++ rest))) =
        (step b n s).map fun s => (s, rest))
    {blanks close : List Char} (blank : Blanks blanks) (blankClose : Blanks close)
    (bound : List Char) (long : bs.length < bound.length) (s : σ) (rest : List Char) :
    membersFrom member bound false s
        (blanks ++ (bs.flatMap (fun b => ',' :: (pad b).text) ++ (close ++ '\x7d' :: rest))) =
      (bs.foldlM (fun s b => takeNamed (name b) (step b) s) s).map fun s => (s, rest) := by
  induction bs generalizing bound blanks s with
  | nil =>
    cases bound with
    | nil => exact absurd long (by simp)
    | cons c bound =>
      have closing : Blanks (blanks ++ close) := List.forall_mem_append.mpr ⟨blank, blankClose⟩
      rw [List.flatMap_nil, List.nil_append, ← List.append_assoc,
        membersFrom_closing member closing]
      rfl
  | cons b bs ih =>
    cases bound with
    | nil => exact absurd long (by simp)
    | cons c bound =>
      have later := fun s => ih (fun b member => scanned b (List.mem_cons_of_mem _ member))
        (fun b member => read b (List.mem_cons_of_mem _ member)) (pad b).value.blankBehind bound
        (by simpa using long) s
      have ends := NumberEnds.blanks (pad b).value.blankBehind
        (.others (.inr rfl) blankClose (fun b => (pad b).text) bs rest)
      have next := nextName_later blank (pad b).blankBefore
        (scanned b List.mem_cons_self ((pad b).behind ++ ':' :: ((pad b).value.before ++
          ((pad b).value.core ++ ((pad b).value.behind ++
            (bs.flatMap (fun b => ',' :: (pad b).text) ++ (close ++ '\x7d' :: rest)))))))
      have text : blanks ++ ((b :: bs).flatMap (fun b => ',' :: (pad b).text) ++
          (close ++ '\x7d' :: rest)) =
          blanks ++ ',' :: ((pad b).before ++ '"' :: ((pad b).name ++ '"' ::
            ((pad b).behind ++ ':' :: ((pad b).value.before ++ ((pad b).value.core ++
              ((pad b).value.behind ++ (bs.flatMap (fun b => ',' :: (pad b).text) ++
                (close ++ '\x7d' :: rest)))))))) := by
        simp [Named.text, Named.tail, Padded.text]
      rw [text, membersFrom_next next
        (fun n named s => read b List.mem_cons_self n named s _ ends), List.foldlM_cons]
      cases takeNamed (name b) (step b) s with
      | error e => rfl
      | ok s => exact later s

theorem members_padded {bs : List β}
    (scanned : ∀ b ∈ bs, ∀ more, scanString ((pad b).name ++ '"' :: more) =
      (name b).map fun s => (s, more))
    (read : ∀ b ∈ bs, ∀ n, name b = .ok n → ∀ s rest, NumberEnds rest →
      member n s ((pad b).behind ++ ':' :: ((pad b).value.before ++ ((pad b).value.core ++ rest))) =
        (step b n s).map fun s => (s, rest))
    {close : List Char} (blankClose : Blanks close) (s : σ) (rest : List Char) :
    members member s (joined (bs.map fun b => (pad b).text) ++ (close ++ '\x7d' :: rest)) =
      (bs.foldlM (fun s b => takeNamed (name b) (step b) s) s).map fun s => (s, rest) := by
  cases bs with
  | nil =>
    have more : close ++ '\x7d' :: rest ≠ [] := by simp
    obtain ⟨c, bound, text⟩ := List.exists_cons_of_ne_nil more
    change membersFrom member (close ++ '\x7d' :: rest) true s (close ++ '\x7d' :: rest) = _
    rw [congrArg (membersFrom member · true s _) text, membersFrom_closing member blankClose]
    rfl
  | cons b bs =>
    have ends := NumberEnds.blanks (pad b).value.blankBehind
      (.others (.inr rfl) blankClose (fun b => (pad b).text) bs rest)
    have steps : bs.length ≤ (bs.flatMap fun b => ',' :: (pad b).text).length :=
      length_le_flatMap_cons bs
    have next := nextName_first (pad b).blankBefore
      (scanned b List.mem_cons_self ((pad b).behind ++ ':' :: ((pad b).value.before ++
        ((pad b).value.core ++ ((pad b).value.behind ++
          (bs.flatMap (fun b => ',' :: (pad b).text) ++ (close ++ '\x7d' :: rest)))))))
    have text : joined ((b :: bs).map fun b => (pad b).text) ++ (close ++ '\x7d' :: rest) =
        (pad b).before ++ '"' :: ((pad b).name ++ '"' ::
          ((pad b).behind ++ ':' :: ((pad b).value.before ++ ((pad b).value.core ++
            ((pad b).value.behind ++ (bs.flatMap (fun b => ',' :: (pad b).text) ++
              (close ++ '\x7d' :: rest))))))) := by
      simp [joined, List.flatMap_map, Named.text, Named.tail, Padded.text]
    rw [text, members]
    cases whole : (pad b).before ++ '"' :: ((pad b).name ++ '"' ::
        ((pad b).behind ++ ':' :: ((pad b).value.before ++ ((pad b).value.core ++
          ((pad b).value.behind ++ (bs.flatMap (fun b => ',' :: (pad b).text) ++
            (close ++ '\x7d' :: rest))))))) with
    | nil => simp at whole
    | cons d bound =>
      have length := congrArg List.length whole
      simp only [List.length_append, List.length_cons] at length
      have later := fun s =>
        membersFrom_padded pad name step (fun b member => scanned b (List.mem_cons_of_mem _ member))
          (fun b member => read b (List.mem_cons_of_mem _ member)) (pad b).value.blankBehind
          blankClose bound (by omega) s rest
      rw [membersFrom_next (whole ▸ next)
        (fun n named s => read b List.mem_cons_self n named s _ ends), List.foldlM_cons]
      cases takeNamed (name b) (step b) s with
      | error e => rfl
      | ok s => exact later s

end Objects

end ScimQuery.Json
