import ScimQuery.Proofs.WrittenJson

/-!
# JSON texts

The grammar of JSON, and how its texts are read: what a reader makes of a value does not depend on
what stands behind it, nor on how many more lists and objects may be opened (`settled_value`). This
also holds of values that are refused. Where too many lists and objects are open, a text is refused
as a whole (`takes_value`).
-/

namespace ScimQuery.Json

/-! ### The grammar -/

def DigitRun (ds : List Char) : Prop := ds ≠ [] ∧ ∀ d ∈ ds, d.isDigit = true

inductive WholeText : List Char → Prop where
  | zero : WholeText ['0']
  | run {d ds} (nonzero : d ≠ '0') (digits : DigitRun (d :: ds)) : WholeText (d :: ds)

inductive FractionText : List Char → Prop where
  | none : FractionText []
  | some {ds} (digits : DigitRun ds) : FractionText ('.' :: ds)

inductive ExponentText : List Char → Prop where
  | none : ExponentText []
  | some {letter sign ds} (marked : letter = 'e' ∨ letter = 'E')
      (signed : sign = [] ∨ sign = ['+'] ∨ sign = ['-']) (digits : DigitRun ds) :
      ExponentText (letter :: (sign ++ ds))

/-- A number without its sign. -/
inductive NumeralText : List Char → Prop where
  | intro {whole fraction exponent} (h : WholeText whole) (h' : FractionText fraction)
      (h'' : ExponentText exponent) : NumeralText (whole ++ (fraction ++ exponent))

/-- The characters of a text between its quotes. Escapes of halves of a character need not
pair up. -/
inductive TextBody : List Char → Prop where
  | done : TextBody []
  | plain {c cs} (control : 0x20 ≤ c.toNat) (quote : c ≠ '"') (slash : c ≠ '\\')
      (rest : TextBody cs) : TextBody (c :: cs)
  | escaped {c cs} (known : (escapedBy c).isSome) (rest : TextBody cs) : TextBody ('\\' :: c :: cs)
  | unit {a b c d cs} (hex : ∀ x ∈ [a, b, c, d], (Decimal.hexValue x).isSome)
      (rest : TextBody cs) : TextBody ('\\' :: 'u' :: a :: b :: c :: d :: cs)

inductive ScalarText : List Char → Prop where
  | word {w : String} (known : w = "null" ∨ w = "true" ∨ w = "false") : ScalarText w.toList
  | number {sign digits} (signed : sign = [] ∨ sign = ['-']) (numeral : NumeralText digits) :
      ScalarText (sign ++ digits)
  | text {body} (spelled : TextBody body) : ScalarText ('"' :: (body ++ ['"']))

/-- A value that opens at most so many lists and objects at a time, without blanks around it. -/
inductive ValueText : Nat → List Char → Prop where
  | scalar {n core} (h : ScalarText core) : ValueText n core
  | list {n close} {items : List Padded} (blank : Blanks close)
      (inner : ∀ p ∈ items, ValueText n p.core) :
      ValueText (n + 1) ('[' :: (joined (items.map Padded.text) ++ (close ++ [']'])))
  | object {n close} {members : List Named} (blank : Blanks close)
      (names : ∀ m ∈ members, TextBody m.name)
      (inner : ∀ m ∈ members, ValueText n m.value.core) :
      ValueText (n + 1) ('\x7b' :: (joined (members.map Named.text) ++ (close ++ ['\x7d'])))

/-- A JSON text: one value with blanks around it. -/
def JsonText (n : Nat) (text : List Char) : Prop := ∃ p : Padded, p.text = text ∧ ValueText n p.core

/-! ### Numbers -/

theorem DigitRun.head_isDigit {ds rest : List Char} (h : DigitRun ds) :
    ∃ c ∈ (ds ++ rest).head?, c.isDigit = true := by
  obtain ⟨c, cs, rfl⟩ := List.exists_cons_of_ne_nil h.1
  exact ⟨c, rfl, h.2 c List.mem_cons_self⟩

theorem scanSomeDigits_run {ds : List Char} (h : DigitRun ds) {rest : List Char}
    (ends : ∀ c ∈ rest.head?, c.isDigit = false) :
    scanSomeDigits (ds ++ rest) = .ok (ds.map Decimal.digitValue, rest) := by
  have digits := scanDigits_all h.2 ends
  obtain ⟨c, cs, rfl⟩ := List.exists_cons_of_ne_nil h.1
  rw [List.cons_append, scanSomeDigits, if_pos (h.2 c List.mem_cons_self), ← List.cons_append,
    digits]

theorem scanWhole_text {whole : List Char} (h : WholeText whole) {rest : List Char}
    (ends : ∀ c ∈ rest.head?, c.isDigit = false) :
    scanWhole (whole ++ rest) = .ok (whole.map Decimal.digitValue, rest) := by
  have run : DigitRun whole := by
    cases h with
    | zero => exact ⟨by simp, by simp⟩
    | run _ digits => exact digits
  have digits := scanSomeDigits_run run ends
  rw [← digits]
  unfold scanWhole
  split
  · next c more same =>
    cases h with
    | zero =>
      -- the zero is the whole of the digits, so another one cannot follow
      obtain rfl : rest = c :: more := (List.cons.inj same).2
      rw [if_neg (by simp [ends c rfl]), digits]
      rfl
    | run nonzero =>
      exact absurd (List.cons.inj same).1 nonzero
  · rfl

theorem scanSignedDigits_run {sign ds : List Char} (signed : sign = [] ∨ sign = ['+'] ∨ sign = ['-'])
    (h : DigitRun ds) : ∃ e, scanSignedDigits (sign ++ ds) = .ok (e, []) := by
  have digits := @scanSomeDigits_run ds h [] nofun
  rw [List.append_nil] at digits
  rcases signed with rfl | rfl | rfl
  · obtain ⟨c, first, digit⟩ := @h.head_isDigit ds []
    obtain ⟨d, ds, rfl⟩ := List.exists_cons_of_ne_nil h.1
    obtain rfl : d = c := Option.some.inj first
    have plus : d ≠ '+' := by
      rintro rfl
      revert digit
      decide
    have minus : d ≠ '-' := by
      rintro rfl
      revert digit
      decide
    refine ⟨Decimal.ofDigits ((d :: ds).map Decimal.digitValue), ?_⟩
    rw [List.nil_append, scanSignedDigits, digits]
    · rfl
    · simpa using fun same => (plus same).elim
    · simpa using fun same => (minus same).elim
  · exact ⟨_, by rw [List.singleton_append, scanSignedDigits, digits]; rfl⟩
  · exact ⟨_, by rw [List.singleton_append, scanSignedDigits, digits]; rfl⟩

theorem scanExponent_text {exponent : List Char} (h : ExponentText exponent) :
    ∃ e, scanExponent exponent = .ok (e, []) := by
  cases h with
  | none => exact ⟨none, rfl⟩
  | some marked signed digits =>
    obtain ⟨e, scanned⟩ := scanSignedDigits_run signed digits
    rcases marked with rfl | rfl
    · exact ⟨some e, by rw [scanExponent, scanned]; rfl⟩
    · exact ⟨some e, by rw [scanExponent, scanned]; rfl⟩

theorem ExponentText.ends {exponent : List Char} (h : ExponentText exponent) :
    ∀ c ∈ exponent.head?, c.isDigit = false ∧ c ≠ '.' := by
  cases h with
  | none => exact nofun
  | some marked =>
    intro c first
    obtain rfl := Option.some.inj first
    rcases marked with rfl | rfl <;> decide

/-- The digits of a fraction behind its point. -/
def fractionOf : List Char → Option (List Nat)
  | [] => none
  | _ :: ds => some (ds.map Decimal.digitValue)

theorem scanFraction_text {fraction exponent : List Char} (h : FractionText fraction)
    (h' : ExponentText exponent) :
    scanFraction (fraction ++ exponent) = .ok (fractionOf fraction, exponent) := by
  cases h with
  | none =>
    rw [List.nil_append]
    unfold scanFraction
    split
    · exact absurd rfl (h'.ends '.' rfl).2
    · rfl
  | @some ds digits =>
    have scanned := scanSomeDigits_run digits fun c first => (h'.ends c first).1
    rw [List.cons_append, scanFraction, scanned]
    rfl

theorem scanNumeral_parts {whole fraction exponent : List Char} (h : WholeText whole)
    (h' : FractionText fraction) (h'' : ExponentText exponent) {e : Option Int}
    (scanned : scanExponent exponent = .ok (e, [])) :
    scanNumeral (whole ++ (fraction ++ exponent)) =
      .ok (⟨whole.map Decimal.digitValue, fractionOf fraction, e⟩, []) := by
  have ends : ∀ c ∈ (fraction ++ exponent).head?, c.isDigit = false := by
    cases h' with
    | none => exact fun c first => (h''.ends c first).1
    | some =>
      intro c first
      obtain rfl := Option.some.inj first
      decide
  simp only [scanNumeral, scanWhole_text h ends, scanFraction_text h' h'', scanned, bind,
    Except.bind]
  rfl

theorem WholeText.numeralText {digits : List Char} (whole : WholeText digits) :
    NumeralText digits := by
  have numeral : NumeralText (digits ++ ([] ++ [])) := .intro whole .none .none
  rwa [List.append_nil, List.append_nil] at numeral

theorem wholeText_toDigits (n : Nat) : WholeText (Nat.toDigits 10 n) := by
  rcases Nat.eq_zero_or_pos n with rfl | pos
  · exact .zero
  · obtain ⟨c, cs, text, nonzero, digits⟩ := digitText_cons pos
    change Nat.toDigits 10 n = c :: cs at text
    rw [text]
    exact .run nonzero ⟨List.cons_ne_nil c cs, digits⟩

theorem scanNumeral_text {text : List Char} (h : NumeralText text) :
    ∃ numeral, scanNumeral text = .ok (numeral, []) := by
  obtain ⟨whole, fraction, exponent⟩ := h
  obtain ⟨e, scanned⟩ := scanExponent_text exponent
  exact ⟨_, scanNumeral_parts whole fraction exponent scanned⟩

/-- The number of a numeral, unless it is too large. -/
def Numeral.number (numeral : Numeral) (negative : Bool) : Except Malformed Number :=
  (numeral.value negative).elim (.error .numberTooLarge) .ok

theorem scanNumber_numeral {text rest : List Char} {numeral : Numeral} (negative : Bool)
    (h : scanNumeral text = .ok (numeral, rest)) :
    scanNumber negative text = (numeral.number negative).map fun n => (n, rest) := by
  simp only [scanNumber, h, bind, Except.bind, Numeral.number]
  cases numeral.value negative <;> rfl

theorem scanNumber_text {text : List Char} (h : NumeralText text) (negative : Bool) :
    ∃ r : Except Malformed Number, ∀ rest, NumberEnds rest →
      scanNumber negative (text ++ rest) = r.map fun n => (n, rest) := by
  obtain ⟨numeral, scanned⟩ := scanNumeral_text h
  refine ⟨numeral.number negative, fun rest ends => ?_⟩
  have extended := (steady_scanNumeral _ _ _ scanned).2 rest ends
  exact scanNumber_numeral negative extended

theorem NumeralText.head_isDigit {text : List Char} (h : NumeralText text) :
    ∃ c cs, text = c :: cs ∧ c.isDigit = true := by
  obtain ⟨whole, _, _⟩ := h
  cases whole with
  | zero => exact ⟨'0', _, rfl, by decide⟩
  | run _ digits => exact ⟨_, _, rfl, digits.2 _ List.mem_cons_self⟩

/-! ### Texts -/

/-- What the scanner makes of a text up to its closing quote. -/
def BodySettled (body : List Char) : Prop :=
  ∃ r : Except Malformed (List Char), ∀ more,
    scanText (body ++ '"' :: more) = r.map fun cs => (cs, more)

theorem BodySettled.error {body : List Char} (e : Malformed)
    (h : ∀ more, scanText (body ++ '"' :: more) = .error e) : BodySettled body :=
  ⟨.error e, h⟩

theorem BodySettled.cons {body rest : List Char} (c : Char)
    (step : ∀ more, scanText (body ++ '"' :: more) = consChar c (scanText (rest ++ '"' :: more)))
    (h : BodySettled rest) : BodySettled body := by
  obtain ⟨r, scanned⟩ := h
  refine ⟨r.map (c :: ·), fun more => ?_⟩
  rw [step, scanned]
  cases r <;> rfl

theorem escapedBy_ne_u {c : Char} (known : (escapedBy c).isSome) : c ≠ 'u' := by
  rintro rfl
  cases known

/-- Behind the first half of a character: only the second half, escaped, goes on. -/
theorem BodySettled.half {a b c d : Char} {unit : Nat} (spelled : hexUnit a b c d = some unit)
    (leading : isLeading unit = true) {rest : List Char} (body : TextBody rest)
    (later : ∀ e f g h cs, rest = '\\' :: 'u' :: e :: f :: g :: h :: cs → BodySettled cs) :
    BodySettled ('\\' :: 'u' :: a :: b :: c :: d :: rest) := by
  have other : isTrailing unit = false := by
    simp only [isLeading, isTrailing, Bool.and_eq_true, decide_eq_true_eq] at leading ⊢
    simp
    omega
  cases body with
  | done => exact .error .halfEscape fun more => by simp [scanText, spelled, leading, other]
  | @plain x cs control quote slash =>
    exact .error .halfEscape fun more => by simp [scanText, spelled, leading, other, slash]
  | @escaped x cs known =>
    exact .error .halfEscape fun more => by
      simp [scanText, spelled, leading, other, escapedBy_ne_u known]
  | @unit e f g h cs =>
    cases second : hexUnit e f g h with
    | none =>
      exact .error .badEscape fun more => by simp [scanText, spelled, leading, other, second]
    | some low =>
      by_cases trailing : isTrailing low = true
      · refine .cons (pairChar unit low) (fun more => ?_) (later e f g h cs rfl)
        simp [scanText, spelled, leading, other, second, trailing]
      · exact .error .loneSurrogate fun more => by
          simp [scanText, spelled, leading, other, second, trailing]

theorem TextBody.settled {body : List Char} (h : TextBody body) : BodySettled body := by
  -- A half of a character takes two escapes at once, so the induction looks one escape ahead.
  have both : BodySettled body ∧
      ∀ e f g h cs, body = '\\' :: 'u' :: e :: f :: g :: h :: cs → BodySettled cs := by
    induction h with
    | done => exact ⟨⟨.ok [], fun _ => rfl⟩, nofun⟩
    | @plain c cs control quote slash rest ih =>
      refine ⟨.cons c (fun more => ?_) ih.1, fun _ _ _ _ _ same => ?_⟩
      · rw [List.cons_append, scanText]
        · rw [if_neg (by omega)]
        all_goals simp_all
      · exact absurd (List.cons.inj same).1 slash
    | @escaped c cs known rest ih =>
      obtain ⟨e, escape⟩ := Option.isSome_iff_exists.mp known
      refine ⟨.cons e (fun more => ?_) ih.1, fun _ _ _ _ _ same => ?_⟩
      · have letter := escapedBy_ne_u known
        rw [List.cons_append, List.cons_append, scanText]
        · rw [escape]
        all_goals simp_all
      · exact absurd (List.cons.inj (List.cons.inj same).2).1 (escapedBy_ne_u known)
    | @unit a b c d cs hex rest ih =>
      refine ⟨?_, fun e f g h cs' same => ?_⟩
      · cases spelled : hexUnit a b c d with
        | none => exact .error .badEscape fun more => by simp [scanText, spelled]
        | some unit =>
          by_cases trailing : isTrailing unit = true
          · exact .error .loneSurrogate fun more => by simp [scanText, spelled, trailing]
          · by_cases leading : isLeading unit = true
            · exact .half spelled leading rest ih.2
            · refine .cons (Char.ofNat unit) (fun more => ?_) ih.1
              simp [scanText, spelled, trailing, leading]
      · simp only [List.cons.injEq, true_and] at same
        obtain ⟨_, _, _, _, rfl⟩ := same
        exact ih.1
  exact both.1

/-- The name of a member, or why it is none. -/
def Named.key (m : Named) : Except Malformed String :=
  (scanString (m.name ++ ['"'])).map Prod.fst

theorem TextBody.scanString {body : List Char} (h : TextBody body) (more : List Char) :
    Json.scanString (body ++ '"' :: more) =
      ((Json.scanString (body ++ ['"'])).map Prod.fst).map fun s => (s, more) := by
  obtain ⟨r, scanned⟩ := h.settled
  rw [Json.scanString, Json.scanString, scanned, scanned]
  cases r <;> rfl

/-! ### Values -/

/-- What a reader makes of a text by itself. -/
def outcome (read : Reader α) (text : List Char) : Except ReadError α := (read text).map Prod.fst

/-- Where at least so many lists and objects may be opened, a reader makes the same of a text
whatever stands behind it, and takes no more than the text. -/
def Settled (n : Nat) (read : Nat → Reader α) (text : List Char) : Prop :=
  ∀ d, n ≤ d → ∀ rest, NumberEnds rest →
    read d (text ++ rest) = (outcome (read n) text).map fun a => (a, rest)

theorem NumberEnds.nil : NumberEnds [] := nofun

theorem Padded.numberEnds_behind (p : Padded) : NumberEnds p.behind := by
  have ends := NumberEnds.blanks p.blankBehind .nil
  rwa [List.append_nil] at ends

/-- What a reader makes of a text, whatever stands behind it; it takes no more than the text. -/
def Takes (read : Reader α) (text : List Char) (r : Except ReadError α) : Prop :=
  ∀ rest, NumberEnds rest → read (text ++ rest) = r.map fun a => (a, rest)

theorem Takes.outcome {read : Reader α} {text : List Char} {r : Except ReadError α}
    (h : Takes read text r) : Json.outcome read text = r := by
  have alone := h [] .nil
  rw [List.append_nil] at alone
  rw [Json.outcome, alone]
  cases r <;> rfl

theorem Takes.self {read : Reader α} {text : List Char} {r : Except ReadError α}
    (h : Takes read text r) : Takes read text (Json.outcome read text) := by
  rwa [h.outcome]

theorem Settled.intro {n : Nat} {read : Nat → Reader α} {text : List Char} (r : Except ReadError α)
    (h : ∀ d, n ≤ d → Takes (read d) text r) : Settled n read text := by
  rw [← (h n (Nat.le_refl n)).outcome] at h
  exact h

/-- How a value starts. Its first character tells null and texts from all others. -/
structure Start (c : Char) (cs : List Char) : Prop where
  solid : isSpace c = false
  opens : c ≠ ']'
  null : c = 'n' → c :: cs = "null".toList
  quote : c = '"' → ∃ body, TextBody body ∧ cs = body ++ ['"']

theorem Start.other {c : Char} (cs : List Char)
    (h : isSpace c = false ∧ c ∉ [']', 'n', '"']) : Start c cs := by
  simp only [List.mem_cons, List.not_mem_nil, or_false, not_or] at h
  exact ⟨h.1, h.2.1, fun same => absurd same h.2.2.1, fun same => absurd same h.2.2.2⟩

theorem ScalarText.start {core : List Char} (h : ScalarText core) :
    ∃ c cs, core = c :: cs ∧ Start c cs ∧ c ≠ '[' ∧ c ≠ '\x7b' := by
  cases h with
  | word known =>
    rcases known with rfl | rfl | rfl
    · exact ⟨'n', _, rfl, ⟨by decide, by decide, fun _ => rfl, nofun⟩, by decide⟩
    · exact ⟨'t', _, rfl, .other _ (by decide), by decide⟩
    · exact ⟨'f', _, rfl, .other _ (by decide), by decide⟩
  | number signed numeral =>
    obtain ⟨c, cs, rfl, digit⟩ := numeral.head_isDigit
    have different : ∀ d ∈ [']', 'n', '"', '[', '\x7b'], c ≠ d := by
      rintro d member rfl
      have plain := List.all_eq_true.mp
        (by decide : [']', 'n', '"', '[', '\x7b'].all (!·.isDigit)) c member
      simp [digit] at plain
    rcases signed with rfl | rfl
    · have solid : isSpace c = false := isSpace_of_isFloatChar (isFloatChar_of_isDigit digit)
      have others : c ∉ [']', 'n', '"'] := fun member =>
        different c (List.mem_append_left ['[', '\x7b'] member) rfl
      exact ⟨c, cs, rfl, .other cs ⟨solid, others⟩, different '[' (by decide),
        different '\x7b' (by decide)⟩
    · exact ⟨'-', _, rfl, .other _ (by decide), by decide⟩
  | text spelled =>
    exact ⟨'"', _, rfl, ⟨by decide, by decide, nofun, fun _ => ⟨_, spelled, rfl⟩⟩, by decide⟩

theorem ValueText.start {n : Nat} {core : List Char} (h : ValueText n core) :
    ∃ c cs, core = c :: cs ∧ Start c cs := by
  cases h with
  | scalar h =>
    obtain ⟨c, cs, same, start, _⟩ := h.start
    exact ⟨c, cs, same, start⟩
  | list => exact ⟨'[', _, rfl, .other _ (by decide)⟩
  | object => exact ⟨'\x7b', _, rfl, .other _ (by decide)⟩

theorem ValueText.itemText {n : Nat} {core : List Char} (h : ValueText n core) :
    ItemText core := by
  obtain ⟨c, cs, rfl, start⟩ := h.start
  exact ⟨c, rfl, start.solid, start.opens⟩

theorem scalar_quote (text : List Char) :
    scalar ('"' :: text) = (lift (scanString text)).map fun (s, rest) => (.string s, rest) := by
  rw [scalar, skipSpace_cons (by decide)]
  change (lift (scanString text) >>= fun s => pure (Json.string s.1, s.2)) = _
  cases scanString text <;> rfl

theorem value_scalarText {core : List Char} (h : ScalarText core) (d : Nat) (rest : List Char) :
    value d (core ++ rest) = scalar (core ++ rest) := by
  obtain ⟨c, cs, rfl, start, list, object⟩ := h.start
  exact value_eq_scalar start.solid list object d (cs ++ rest)

theorem takes_scalar {core : List Char} (h : ScalarText core) :
    Takes scalar core (outcome scalar core) := by
  cases h with
  | @word w known =>
    have read := value_scalarText (.word known) 0
    rcases known with rfl | rfl | rfl
    · exact Takes.self (r := .ok .null) fun rest _ => (read rest).symm.trans (value_null 0 rest)
    · have isTrue := value_bool true 0
      rw [compact, if_pos rfl] at isTrue
      exact Takes.self (r := .ok (.bool true)) fun rest _ => (read rest).symm.trans (isTrue rest)
    · have isFalse := value_bool false 0
      rw [compact, if_neg Bool.false_ne_true] at isFalse
      exact Takes.self (r := .ok (.bool false)) fun rest _ => (read rest).symm.trans (isFalse rest)
  | number signed numeral =>
    rcases signed with rfl | rfl
    · obtain ⟨r, scanned⟩ := scanNumber_text numeral false
      obtain ⟨c, cs, rfl, digit⟩ := numeral.head_isDigit
      refine Takes.self (r := lift (r.map .number)) fun rest ends => ?_
      have whole := scanned rest ends
      rw [List.cons_append] at whole
      rw [List.nil_append, List.cons_append, scalar_digit digit, whole]
      cases r <;> rfl
    · obtain ⟨r, scanned⟩ := scanNumber_text numeral true
      refine Takes.self (r := lift (r.map .number)) fun rest ends => ?_
      rw [List.append_assoc, List.singleton_append, scalar_minus, scanned rest ends]
      cases r <;> rfl
  | @text body spelled =>
    refine Takes.self (r := lift (((scanString (body ++ ['"'])).map Prod.fst).map .string))
      fun rest _ => ?_
    rw [List.cons_append, List.append_assoc, List.singleton_append, scalar_quote,
      spelled.scanString]
    cases scanString (body ++ ['"']) <;> rfl

theorem value_blanks {blanks : List Char} (blank : Blanks blanks) (d : Nat) (text : List Char) :
    value d (blanks ++ text) = value d text := by
  cases d <;> simp only [value, skipSpace_append blank]

/-- What a member reads as by itself. -/
def Named.outcome (n : Nat) (m : Named) : Except ReadError (String × Json) :=
  (lift m.key).bind fun name => (Json.outcome (Json.value n) m.value.core).map fun j => (name, j)

theorem foldlM_push {f : α → Except ε β} (as : List α) (bs : List β) :
    as.foldlM (fun bs a => (f a).map (· :: bs)) bs =
      (as.mapM f).map fun cs => cs.reverse ++ bs := by
  induction as generalizing bs with
  | nil => rfl
  | cons a as ih =>
    rw [List.foldlM_cons, List.mapM_cons]
    cases f a with
    | error e => rfl
    | ok b =>
      change as.foldlM _ (b :: bs) = (as.mapM f >>= fun cs => pure (b :: cs)).map _
      rw [ih]
      cases as.mapM f with
      | error e => rfl
      | ok cs => simp [Except.map, bind, Except.bind, pure, Except.pure]

/-! A list or an object is read as its members are, each by itself. -/

section Members

variable {d n : Nat} {close : List Char}

theorem takes_list {items : List Padded} (blank : Blanks close)
    (form : ∀ p ∈ items, ItemText p.core)
    (read : ∀ p ∈ items, Takes (value d) p.core (outcome (value n) p.core)) :
    Takes (value (d + 1)) ('[' :: (joined (items.map Padded.text) ++ (close ++ [']'])))
      ((items.mapM fun p => outcome (value n) p.core).map .array) := by
  intro rest _
  have whole := items_padded (fun p => p) form read blank rest
  simp only [List.cons_append, List.append_assoc, List.nil_append] at whole ⊢
  rw [value_list, whole]
  cases items.mapM fun p => outcome (value n) p.core <;> rfl

theorem takes_object {members : List Named} (blank : Blanks close)
    (names : ∀ m ∈ members, TextBody m.name)
    (read : ∀ m ∈ members, Takes (value d) m.value.core (outcome (value n) m.value.core)) :
    Takes (value (d + 1)) ('\x7b' :: (joined (members.map Named.text) ++ (close ++ ['\x7d'])))
      ((members.mapM (Named.outcome n)).map .object) := by
  intro rest _
  let step (m : Named) (name : String) (ms : List (String × Json)) :=
    (outcome (value n) m.value.core).map fun j => (name, j) :: ms
  have member : ∀ m ∈ members, ∀ name, m.key = .ok name → ∀ ms rest, NumberEnds rest →
      takeMember d name ms (m.behind ++ ':' :: (m.value.before ++ (m.value.core ++ rest))) =
        (step m name ms).map fun ms => (ms, rest) := by
    intro m member name _ ms rest ends
    have value := read m member rest ends
    rw [takeMember, colon_cons m.blankBehind]
    change (Json.value d (m.value.before ++ (m.value.core ++ rest)) >>= fun j =>
      pure ((name, j.1) :: ms, j.2)) = _
    rw [value_blanks m.value.blankBefore, value]
    unfold step
    cases outcome (Json.value n) m.value.core <;> rfl
  have taken : (fun ms (m : Named) => takeNamed m.key (step m) ms) =
      fun ms m => (m.outcome n).map (· :: ms) := by
    funext ms m
    unfold takeNamed Named.outcome step
    cases m.key with
    | error e => rfl
    | ok name => cases outcome (value n) m.value.core <;> rfl
  have whole := members_padded (fun m => m) Named.key step
    (fun m member more => (names m member).scanString more) member blank [] rest
  rw [taken, foldlM_push] at whole
  simp only [List.cons_append, List.append_assoc, List.nil_append] at whole ⊢
  rw [value_object, whole]
  cases members.mapM (Named.outcome n) with
  | error e => rfl
  | ok ms => simp [Except.map]

end Members

theorem settled_value {n : Nat} {core : List Char} (h : ValueText n core) :
    Settled n value core := by
  induction h with
  | @scalar n core h =>
    exact .intro (outcome scalar core) fun d _ rest ends =>
      (value_scalarText h d rest).trans (takes_scalar h rest ends)
  | @list n close items blank inner ih =>
    refine .intro ((items.mapM fun p => outcome (value n) p.core).map .array) fun d deep => ?_
    obtain ⟨d, rfl⟩ := Nat.exists_eq_succ_of_ne_zero (by omega : d ≠ 0)
    exact takes_list blank (fun p member => (inner p member).itemText)
      fun p member => ih p member d (by omega)
  | @object n close members blank names inner ih =>
    refine .intro ((members.mapM (Named.outcome n)).map .object) fun d deep => ?_
    obtain ⟨d, rfl⟩ := Nat.exists_eq_succ_of_ne_zero (by omega : d ≠ 0)
    exact takes_object blank names fun m member => ih m member d (by omega)

/-- Also where fewer lists and objects may be opened, the text of a value is taken as a whole. -/
theorem takes_value {n : Nat} {core : List Char} (h : ValueText n core) (d : Nat) :
    Takes (value d) core (outcome (value d) core) := by
  induction h generalizing d with
  | @scalar n core h =>
    exact Takes.self fun rest ends => (value_scalarText h d rest).trans (takes_scalar h rest ends)
  | @list n close items blank inner ih =>
    cases d with
    | zero => exact fun _ _ => rfl
    | succ d =>
      exact .self (takes_list blank (fun p member => (inner p member).itemText)
        fun p member => ih p member d)
  | @object n close members blank names inner ih =>
    cases d with
    | zero => exact fun _ _ => rfl
    | succ d =>
      exact .self (takes_object blank names fun m member => ih m member d)

end ScimQuery.Json
