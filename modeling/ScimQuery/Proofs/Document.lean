import Mathlib.Data.List.DropRight
import ScimQuery.Proofs.JsonText

/-!
# Documents

JSON texts read with their numbers left as they are written. A text that is read as a document is
read as the value of that document (`parse_of_document`).
-/

namespace ScimQuery

/-- A JSON text as a value, with its numbers as they are written. -/
inductive Document where
  | null
  | bool (b : Bool)
  | number (text : String)
  | string (s : String)
  | array (items : List Document)
  | object (members : List (String × Document))

namespace Json

/-! ### Reading documents -/

/-- Takes in a member, the last one in front. -/
def takeWith (read : Reader α) (name : String) (ms : List (String × α)) :
    Reader (List (String × α)) := fun text => do
  let (a, rest) ← read (← colon text)
  return ((name, a) :: ms, rest)

/-- Lists and objects around what one reader reads, with at most so many of them open at a time. -/
def nested (read : Reader α) (list : List α → α) (object : List (String × α) → α) : Nat → Reader α
  | 0 => fun text =>
    match skipSpace text with
    | '[' :: _ | '{' :: _ => malformed .tooDeep
    | text => read text
  | depth + 1 => fun text =>
    match skipSpace text with
    | '[' :: rest => do
      let (as, rest) ← items (nested read list object depth) rest
      return (list as, rest)
    | '{' :: rest => do
      let (ms, rest) ← members (takeWith (nested read list object depth)) [] rest
      return (object ms.reverse, rest)
    | text => read text

theorem value_eq_nested (d : Nat) : value d = nested scalar array object d := by
  induction d with
  | zero => rfl
  | succ d ih =>
    funext text
    rw [value, nested, ih]
    rfl

/-- The characters of a number without its sign. -/
def scanLexeme : Scan (List Char) := fun text =>
  (scanNumeral text).map fun (_, rest) => (text.take (text.length - rest.length), rest)

end Json

namespace Document

open Json

def scalar : Reader Document := fun text =>
  match skipSpace text with
  | [] => malformed .endInValue
  | 'n' :: rest => do
    let rest ← lift (scanWord "ull".toList rest)
    return (null, rest)
  | 't' :: rest => do
    let rest ← lift (scanWord "rue".toList rest)
    return (bool true, rest)
  | 'f' :: rest => do
    let rest ← lift (scanWord "alse".toList rest)
    return (bool false, rest)
  | '"' :: rest => do
    let (s, rest) ← lift (scanString rest)
    return (string s, rest)
  | '-' :: rest => do
    let (digits, rest) ← lift (scanLexeme rest)
    return (number (String.ofList ('-' :: digits)), rest)
  | c :: rest =>
    if c.isDigit then do
      let (digits, rest) ← lift (scanLexeme (c :: rest))
      return (number (String.ofList digits), rest)
    else malformed .expectedValue

def value : Nat → Reader Document := nested scalar array object

def parse (text : String) : Except ReadError Document := readAll (value depthLimit) text

mutual

/-- The value of a document, unless one of its numbers is too large. -/
def evaluate : Document → Except ReadError Json
  | null => .ok .null
  | bool b => .ok (.bool b)
  | number text => outcome Json.scalar text.toList
  | string s => .ok (.string s)
  | array items => (evaluateItems items).map .array
  | object members => (evaluateMembers members).map .object

def evaluateItems : List Document → Except ReadError (List Json)
  | [] => .ok []
  | doc :: docs => do
    let j ← doc.evaluate
    let js ← evaluateItems docs
    return j :: js

def evaluateMembers : List (String × Document) → Except ReadError (List (String × Json))
  | [] => .ok []
  | (name, doc) :: ms => do
    let m ← doc.evaluate.map fun j => (name, j)
    let js ← evaluateMembers ms
    return m :: js

end

theorem evaluateItems_eq_mapM (docs : List Document) : evaluateItems docs = docs.mapM evaluate := by
  induction docs with
  | nil => rfl
  | cons doc docs ih => rw [evaluateItems, List.mapM_cons, ih]

theorem evaluateMembers_eq_mapM (ms : List (String × Document)) :
    evaluateMembers ms = ms.mapM fun m => m.2.evaluate.map fun j => (m.1, j) := by
  induction ms with
  | nil => rfl
  | cons m ms ih => rw [evaluateMembers, List.mapM_cons, ih]

end Document

/-! ### Numbers by themselves -/

namespace Json

/-- What a scanner takes, it takes again where less stands behind. -/
def Lexical (scan : Scan α) : Prop :=
  ∀ text a left, scan text = .ok (a, left) →
    ∃ taken, text = taken ++ left ∧ ∀ left', left' <+: left → scan (taken ++ left') = .ok (a, left')

theorem Lexical.map {scan : Scan α} (h : Lexical scan) (f : α → β) :
    Lexical fun text => (scan text).map fun (a, rest) => (f a, rest) := by
  intro text b left scanned
  obtain ⟨⟨a, _⟩, first, same⟩ := except_map_ok_iff.mp scanned
  obtain ⟨rfl, rfl⟩ := Prod.mk.inj same
  obtain ⟨taken, split, again⟩ := h _ _ _ first
  refine ⟨taken, split, fun left' shorter => ?_⟩
  simp only [again left' shorter, Except.map]

theorem Lexical.bind {scan : Scan α} {next : α → Scan β} (h : Lexical scan)
    (h' : ∀ a, Lexical (next a)) :
    Lexical fun text => (scan text).bind fun (a, rest) => next a rest := by
  intro text b left scanned
  obtain ⟨⟨a, middle⟩, first, second⟩ := except_bind_ok_iff.mp scanned
  obtain ⟨taken, rfl, again⟩ := h _ _ _ first
  obtain ⟨taken', rfl, again'⟩ := h' a _ _ _ second
  refine ⟨taken ++ taken', (List.append_assoc ..).symm, fun left' shorter => ?_⟩
  have inner := again (taken' ++ left') ((List.prefix_append_right_inj taken').mpr shorter)
  simp only [List.append_assoc, inner, Except.bind]
  exact again' left' shorter

theorem Lexical.pure (a : α) : Lexical fun text => .ok (a, text) := by
  intro text b left scanned
  obtain ⟨rfl, rfl⟩ := Prod.mk.inj (Except.ok.inj scanned)
  exact ⟨[], rfl, fun _ _ => rfl⟩

theorem lexical_scanSomeDigits : Lexical scanSomeDigits := by
  intro text ds left scanned
  cases text with
  | nil => cases scanned
  | cons c text =>
    rw [scanSomeDigits] at scanned
    split at scanned
    · next digit =>
      obtain ⟨rfl, rfl⟩ := Prod.mk.inj (Except.ok.inj scanned)
      have run : DigitRun ((c :: text).takeWhile Char.isDigit) :=
        ⟨by simp [digit], fun _ => List.mem_takeWhile_imp⟩
      refine ⟨_, List.takeWhile_append_dropWhile.symm, ?_⟩
      rintro left' ⟨more, whole⟩
      refine scanSomeDigits_run run fun d first => ?_
      have stopped := List.head?_dropWhile_not Char.isDigit (c :: text)
      cases left' with
      | nil => cases first
      | cons e left' =>
        obtain rfl : e = d := Option.some.inj first
        rw [← whole] at stopped
        simpa using stopped
    · cases scanned

theorem lexical_scanWhole : Lexical scanWhole := by
  intro text ds left scanned
  unfold scanWhole at scanned
  split at scanned
  · next c text =>
    split at scanned
    · cases scanned
    · next other =>
      obtain ⟨rfl, rfl⟩ := Prod.mk.inj (Except.ok.inj scanned)
      refine ⟨['0'], rfl, ?_⟩
      rintro left' ⟨more, whole⟩
      cases left' with
      | nil => rfl
      | cons d left' =>
        obtain rfl := (List.cons.inj whole).1
        exact if_neg other
  · next other =>
    obtain ⟨taken, rfl, again⟩ := lexical_scanSomeDigits _ _ _ scanned
    refine ⟨taken, rfl, ?_⟩
    rintro left' ⟨more, rfl⟩
    rw [← again left' (List.prefix_append left' more)]
    unfold scanWhole
    split
    · next c rest written =>
      have start := (List.append_assoc ..).symm.trans (congrArg (· ++ more) written)
      exact (other c (rest ++ more) start).elim
    · rfl

theorem lexical_scanFraction : Lexical scanFraction := by
  intro text a left scanned
  unfold scanFraction at scanned
  split at scanned
  · next text =>
    obtain ⟨taken, rfl, again⟩ := (lexical_scanSomeDigits.map some) _ _ _ scanned
    exact ⟨'.' :: taken, rfl, again⟩
  · next other =>
    obtain ⟨rfl, rfl⟩ := Prod.mk.inj (Except.ok.inj scanned)
    refine ⟨[], rfl, ?_⟩
    rintro left' ⟨more, rfl⟩
    unfold scanFraction
    split
    · next rest written => exact (other (rest ++ more) (congrArg (· ++ more) written)).elim
    · rfl

theorem lexical_scanSignedDigits : Lexical scanSignedDigits := by
  intro text a left scanned
  unfold scanSignedDigits at scanned
  split at scanned
  · next text =>
    obtain ⟨taken, rfl, again⟩ :=
      (lexical_scanSomeDigits.map fun ds => (Decimal.ofDigits ds : Int)) _ _ _ scanned
    exact ⟨'+' :: taken, rfl, again⟩
  · next text =>
    obtain ⟨taken, rfl, again⟩ :=
      (lexical_scanSomeDigits.map fun ds => -(Decimal.ofDigits ds : Int)) _ _ _ scanned
    exact ⟨'-' :: taken, rfl, again⟩
  · next plus minus =>
    obtain ⟨taken, rfl, again⟩ :=
      (lexical_scanSomeDigits.map fun ds => (Decimal.ofDigits ds : Int)) _ _ _ scanned
    refine ⟨taken, rfl, ?_⟩
    rintro left' ⟨more, rfl⟩
    rw [← again left' (List.prefix_append left' more)]
    unfold scanSignedDigits
    split
    · next rest written =>
      have start := (List.append_assoc ..).symm.trans (congrArg (· ++ more) written)
      exact (plus (rest ++ more) start).elim
    · next rest written =>
      have start := (List.append_assoc ..).symm.trans (congrArg (· ++ more) written)
      exact (minus (rest ++ more) start).elim
    · rfl

theorem lexical_scanExponent : Lexical scanExponent := by
  intro text a left scanned
  unfold scanExponent at scanned
  split at scanned
  · next text =>
    obtain ⟨taken, rfl, again⟩ := (lexical_scanSignedDigits.map some) _ _ _ scanned
    exact ⟨'e' :: taken, rfl, again⟩
  · next text =>
    obtain ⟨taken, rfl, again⟩ := (lexical_scanSignedDigits.map some) _ _ _ scanned
    exact ⟨'E' :: taken, rfl, again⟩
  · next small large =>
    obtain ⟨rfl, rfl⟩ := Prod.mk.inj (Except.ok.inj scanned)
    refine ⟨[], rfl, ?_⟩
    rintro left' ⟨more, rfl⟩
    unfold scanExponent
    split
    · next rest written => exact (small (rest ++ more) (congrArg (· ++ more) written)).elim
    · next rest written => exact (large (rest ++ more) (congrArg (· ++ more) written)).elim
    · rfl

theorem lexical_scanNumeral : Lexical scanNumeral :=
  lexical_scanWhole.bind fun _ => lexical_scanFraction.bind fun _ =>
    lexical_scanExponent.bind fun _ => Lexical.pure _

theorem scanLexeme_ok {text digits rest : List Char} (h : scanLexeme text = .ok (digits, rest)) :
    text = digits ++ rest ∧
      ∃ numeral, scanNumeral text = .ok (numeral, rest) ∧ scanNumeral digits = .ok (numeral, []) := by
  obtain ⟨⟨numeral, left⟩, scanned, same⟩ := except_map_ok_iff.mp h
  obtain ⟨rfl, rfl⟩ := Prod.mk.inj same
  obtain ⟨taken, rfl, again⟩ := lexical_scanNumeral _ _ _ scanned
  have alone := again [] List.nil_prefix
  rw [List.append_nil] at alone
  have front : (taken ++ left).take ((taken ++ left).length - left.length) = taken := by simp
  rw [front]
  exact ⟨rfl, numeral, scanned, alone⟩

theorem scanNumber_lexeme {text digits rest : List Char} (negative : Bool)
    (h : scanLexeme text = .ok (digits, rest)) :
    scanNumber negative text =
      ((scanNumber negative digits).map Prod.fst).map fun n => (n, rest) := by
  obtain ⟨_, numeral, scanned, alone⟩ := scanLexeme_ok h
  rw [scanNumber_numeral negative scanned, scanNumber_numeral negative alone]
  cases numeral.number negative <;> rfl

theorem head_scanLexeme {c : Char} {text digits rest : List Char}
    (h : scanLexeme (c :: text) = .ok (digits, rest)) : ∃ cs, digits = c :: cs := by
  obtain ⟨whole, numeral, _, alone⟩ := scanLexeme_ok h
  cases digits with
  | nil => cases alone
  | cons d cs =>
    obtain rfl := (List.cons.inj whole).1
    exact ⟨cs, rfl⟩

theorem scalar_skipSpace (text : List Char) : scalar (skipSpace text) = scalar text := by
  have once : skipSpace (skipSpace text) = skipSpace text := List.dropWhile_idempotent ..
  simp only [scalar, once]

/-! ### Values of documents -/

/-- One reader takes what another takes, and makes of it what a function says. -/
def Follows (f : α → Except ReadError β) (read : Reader α) (read' : Reader β) : Prop :=
  ∀ text a rest, read text = .ok (a, rest) → read' text = (f a).map fun b => (b, rest)

variable {f : α → Except ReadError β} {read : Reader α} {read' : Reader β}

theorem Follows.itemsFrom (h : Follows f read read') (bound : List Char) (first : Bool) :
    Follows (List.mapM f) (itemsFrom read bound first) (itemsFrom read' bound first) := by
  induction bound generalizing first with
  | nil => exact fun _ _ _ => nofun
  | cons c bound ih =>
    intro text as rest taken
    cases next : nextItem first text with
    | error e =>
      rw [Json.itemsFrom, next] at taken
      cases taken
    | ok next? =>
      cases next? with
      | none =>
        rw [Json.itemsFrom, next] at taken ⊢
        change (closeList text >>= fun rest => pure ([], rest)) = _ at taken
        obtain ⟨_, closed, same⟩ := bind_ok_iff.mp taken
        obtain ⟨rfl, rfl⟩ := Prod.mk.inj (Except.ok.inj same)
        change (closeList text >>= fun rest => pure ([], rest)) = _
        rw [closed]
        rfl
      | some text' =>
        rw [itemsFrom_some next] at taken ⊢
        obtain ⟨⟨a, _⟩, element, others⟩ := except_bind_ok_iff.mp taken
        obtain ⟨⟨as, _⟩, later, same⟩ := except_map_ok_iff.mp others
        obtain ⟨rfl, rfl⟩ := Prod.mk.inj same
        rw [h _ _ _ element, List.mapM_cons]
        cases f a with
        | error e => rfl
        | ok b =>
          change (Json.itemsFrom read' bound false _).map _ = _
          rw [ih false _ _ _ later]
          cases as.mapM f <;> rfl

theorem Follows.items (h : Follows f read read') :
    Follows (List.mapM f) (items read) (items read') :=
  fun text => h.itemsFrom text true text

/-- What becomes of a member whose value a function makes into another. -/
def named (f : α → Except ReadError β) (m : String × α) : Except ReadError (String × β) :=
  (f m.2).map fun b => (m.1, b)

theorem Follows.takeWith (h : Follows f read read') {name : String} {ms ms' : List (String × α)}
    {text rest : List Char} (taken : takeWith read name ms text = .ok (ms', rest)) :
    ∃ m, ms' = m :: ms ∧
      ∀ js, takeWith read' name js text = (named f m).map fun j => (j :: js, rest) := by
  obtain ⟨behind, separated, taken⟩ := bind_ok_iff.mp taken
  obtain ⟨⟨a, _⟩, value, same⟩ := bind_ok_iff.mp taken
  obtain ⟨rfl, rfl⟩ := Prod.mk.inj (Except.ok.inj same)
  refine ⟨(name, a), rfl, fun js => ?_⟩
  rw [Json.takeWith, separated]
  change (read' behind >>= fun b => pure ((name, b.1) :: js, b.2)) = _
  rw [h _ _ _ value, named]
  cases f a <;> rfl

theorem Follows.membersFrom (h : Follows f read read') {bound : List Char} {first : Bool}
    {ms ms' : List (String × α)} {text rest : List Char}
    (taken : membersFrom (Json.takeWith read) bound first ms text = .ok (ms', rest)) :
    ∃ new : List (String × α), ms' = new.reverse ++ ms ∧
      ∀ js, membersFrom (Json.takeWith read') bound first js text =
        (new.mapM (named f)).map fun new => (new.reverse ++ js, rest) := by
  -- both runs put members in front; those taken in before differ and are left as they are
  induction bound generalizing first ms text with
  | nil => cases taken
  | cons c bound ih =>
    cases next : nextName first text with
    | error e =>
      rw [Json.membersFrom, next] at taken
      cases taken
    | ok found =>
      obtain ⟨name?, behind⟩ := found
      cases name? with
      | none =>
        rw [Json.membersFrom, next] at taken
        obtain ⟨rfl, rfl⟩ := Prod.mk.inj (Except.ok.inj taken)
        refine ⟨[], rfl, fun js => ?_⟩
        rw [Json.membersFrom, next]
        rfl
      | some name =>
        rw [membersFrom_some next] at taken
        obtain ⟨⟨ms, _⟩, one, others⟩ := except_bind_ok_iff.mp taken
        obtain ⟨m, rfl, step⟩ := h.takeWith one
        obtain ⟨new, rfl, later⟩ := ih others
        refine ⟨m :: new, by simp, fun js => ?_⟩
        rw [membersFrom_some next, step, List.mapM_cons]
        cases named f m with
        | error e => rfl
        | ok j =>
          change Json.membersFrom (Json.takeWith read') bound false (j :: js) _ = _
          rw [later]
          cases new.mapM (named f) with
          | error e => rfl
          | ok new => simp [Except.map, bind, Except.bind, pure, Except.pure]

end Json

namespace Document

open Json

theorem evaluate_number (cs : List Char) :
    evaluate (number (String.ofList cs)) = outcome Json.scalar cs := by
  rw [evaluate, String.toList_ofList]

theorem scalar_follows : Follows evaluate scalar Json.scalar := by
  intro text doc rest read
  rw [← scalar_skipSpace]
  unfold scalar at read
  split at read
  · cases read
  · next behind found =>
    obtain ⟨_, scanned, same⟩ := bind_ok_iff.mp read
    obtain ⟨rfl, rfl⟩ := Prod.mk.inj (Except.ok.inj same)
    rw [found, Json.scalar, skipSpace_cons (by decide)]
    change (lift (scanWord "ull".toList behind) >>= fun rest => pure (Json.null, rest)) = _
    rw [scanned]
    rfl
  · next behind found =>
    obtain ⟨_, scanned, same⟩ := bind_ok_iff.mp read
    obtain ⟨rfl, rfl⟩ := Prod.mk.inj (Except.ok.inj same)
    rw [found, Json.scalar, skipSpace_cons (by decide)]
    change (lift (scanWord "rue".toList behind) >>= fun rest => pure (Json.bool true, rest)) = _
    rw [scanned]
    rfl
  · next behind found =>
    obtain ⟨_, scanned, same⟩ := bind_ok_iff.mp read
    obtain ⟨rfl, rfl⟩ := Prod.mk.inj (Except.ok.inj same)
    rw [found, Json.scalar, skipSpace_cons (by decide)]
    change (lift (scanWord "alse".toList behind) >>= fun rest => pure (Json.bool false, rest)) = _
    rw [scanned]
    rfl
  · next found =>
    obtain ⟨⟨s, _⟩, scanned, same⟩ := bind_ok_iff.mp read
    obtain ⟨rfl, rfl⟩ := Prod.mk.inj (Except.ok.inj same)
    rw [found, scalar_quote, scanned]
    rfl
  · next behind found =>
    obtain ⟨⟨digits, _⟩, scanned, same⟩ := bind_ok_iff.mp read
    obtain ⟨rfl, rfl⟩ := Prod.mk.inj (Except.ok.inj same)
    rw [found, evaluate_number, outcome, scalar_minus, scalar_minus,
      scanNumber_lexeme true (mapError_ok_iff.mp scanned)]
    cases scanNumber true digits <;> rfl
  · next c behind _ _ _ _ _ found =>
    split at read
    · next digit =>
      obtain ⟨⟨digits, _⟩, scanned, same⟩ := bind_ok_iff.mp read
      obtain ⟨rfl, rfl⟩ := Prod.mk.inj (Except.ok.inj same)
      have lexeme := mapError_ok_iff.mp scanned
      obtain ⟨cs, rfl⟩ := head_scanLexeme lexeme
      rw [found, evaluate_number, outcome, scalar_digit digit, scalar_digit digit,
        scanNumber_lexeme false lexeme]
      cases scanNumber false (c :: cs) <;> rfl
    · cases read

theorem value_follows (d : Nat) : Follows evaluate (value d) (Json.value d) := by
  rw [value_eq_nested]
  induction d with
  | zero =>
    intro text doc rest read
    unfold value at read
    unfold nested at read ⊢
    split at read
    · cases read
    · cases read
    · exact scalar_follows _ _ _ read
  | succ d ih =>
    intro text doc rest read
    unfold value at read
    unfold nested at read ⊢
    split at read
    · obtain ⟨⟨docs, _⟩, inner, same⟩ := bind_ok_iff.mp read
      obtain ⟨rfl, rfl⟩ := Prod.mk.inj (Except.ok.inj same)
      change (Json.items (nested Json.scalar .array .object d) _ >>= fun js =>
        pure (Json.array js.1, js.2)) = _
      rw [ih.items _ _ _ inner, evaluate, evaluateItems_eq_mapM]
      cases docs.mapM evaluate <;> rfl
    · obtain ⟨⟨ms, _⟩, inner, same⟩ := bind_ok_iff.mp read
      obtain ⟨rfl, rfl⟩ := Prod.mk.inj (Except.ok.inj same)
      obtain ⟨new, rfl, followed⟩ := ih.membersFrom inner
      change (Json.members (takeWith (nested Json.scalar .array .object d)) [] _ >>=
        fun ms => pure (Json.object ms.1.reverse, ms.2)) = _
      rw [members, followed, List.append_nil, List.reverse_reverse, evaluate,
        evaluateMembers_eq_mapM]
      change _ = ((new.mapM (named evaluate)).map _).map _
      cases new.mapM (named evaluate) with
      | error e => rfl
      | ok js => simp [Except.map, bind, Except.bind, pure, Except.pure]
    · exact scalar_follows _ _ _ read

/-- What is read as a document is read as its value. -/
theorem parse_of_document {text : String} {doc : Document} (h : parse text = .ok doc) :
    Json.parse text = doc.evaluate := by
  obtain ⟨rest, read, blank⟩ := readAll_ok_iff.mp h
  have followed := value_follows depthLimit _ _ _ read
  have done : skipSpace rest = [] := skipSpace_eq_nil.mpr blank
  unfold Json.parse readAll
  rw [followed]
  cases doc.evaluate with
  | error e => rfl
  | ok j =>
    change (if (skipSpace rest).isEmpty then pure j else malformed .trailingCharacters) = _
    rw [done]
    rfl

end Document

end ScimQuery
