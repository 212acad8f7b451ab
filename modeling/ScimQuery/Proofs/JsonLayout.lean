import ScimQuery.Proofs.Document
import ScimQuery.Proofs.FloatText

/-!
# Layouts

The compact and the pretty text of a value differ in blanks only (`laidOut_compact`,
`laidOut_pretty`). Both are JSON, and both read back as the same document (`parse_laidOut`).
-/

namespace ScimQuery.Json

/-- A value as it is written, whatever the blanks around its members. -/
inductive LaidOut : Json → List Char → Prop where
  | scalar {j : Json} (flat : j.depth = 0) : LaidOut j j.compact.toList
  | array {items : List (Json × Padded)} {close} (blank : Blanks close)
      (inner : ∀ i ∈ items, LaidOut i.1 i.2.core) :
      LaidOut (.array (items.map Prod.fst))
        ('[' :: (joined (items.map fun i => i.2.text) ++ (close ++ [']'])))
  | object {members : List (String × Json × Named)} {close} (blank : Blanks close)
      (names : ∀ m ∈ members, m.2.2.name = m.1.toList.flatMap escapedChar)
      (inner : ∀ m ∈ members, LaidOut m.2.1 m.2.2.value.core) :
      LaidOut (.object (members.map fun m => (m.1, m.2.1)))
        ('\x7b' :: (joined (members.map fun m => m.2.2.text) ++ (close ++ ['\x7d'])))

/-! ### Compact texts -/

theorem LaidOut.array_of {js : List Json} (core : Json → Padded) {close text : List Char}
    (blank : Blanks close) (inner : ∀ j ∈ js, LaidOut j (core j).core)
    (written : text = '[' :: (joined (js.map fun j => (core j).text) ++ (close ++ [']']))) :
    LaidOut (.array js) text := by
  have laid : ∀ i ∈ js.map fun j => (j, core j), LaidOut i.1 i.2.core := by
    simpa using inner
  have whole := LaidOut.array blank laid
  rw [List.map_map, List.map_map] at whole
  rw [written]
  simpa [Function.comp_def] using whole

theorem LaidOut.object_of {ms : List (String × Json)} (core : String × Json → Named)
    {close text : List Char} (blank : Blanks close)
    (names : ∀ m ∈ ms, (core m).name = m.1.toList.flatMap escapedChar)
    (inner : ∀ m ∈ ms, LaidOut m.2 (core m).value.core)
    (written : text =
      '\x7b' :: (joined (ms.map fun m => (core m).text) ++ (close ++ ['\x7d']))) :
    LaidOut (.object ms) text := by
  have named : ∀ i ∈ ms.map fun m => (m.1, m.2, core m),
      i.2.2.name = i.1.toList.flatMap escapedChar := by
    rintro i member
    obtain ⟨m, inside, rfl⟩ := List.mem_map.mp member
    exact names m inside
  have laid : ∀ i ∈ ms.map fun m => (m.1, m.2, core m), LaidOut i.2.1 i.2.2.value.core := by
    rintro i member
    obtain ⟨m, inside, rfl⟩ := List.mem_map.mp member
    exact inner m inside
  have whole := LaidOut.object blank named laid
  rw [List.map_map, List.map_map] at whole
  rw [written]
  simpa [Function.comp_def] using whole

/-- A member of a compact object. -/
def Named.compact (m : String × Json) : Named := .written m.1 (.bare m.2.compact.toList)

theorem Named.key_compact (m : String × Json) : (compact m).key = .ok m.1 := by
  have scanned := scanString_written m.1 []
  show (scanString (m.1.toList.flatMap escapedChar ++ ['"'])).map Prod.fst = .ok m.1
  rw [scanned]
  rfl

theorem toList_compact_named (ms : List (String × Json)) :
    (Json.object ms).compact.toList =
      '\x7b' :: (joined ((ms.map Named.compact).map Named.text) ++ ([] ++ ['\x7d'])) := by
  have text := toList_compact_object ms []
  rw [List.append_nil] at text
  rw [text, compactMembers_eq_map, toList_intercalate, List.map_map, List.map_map]
  simp [Named.compact, Named.text_written, Padded.text_bare, toList_writeText, Function.comp_def]

theorem laidOut_compact (j : Json) : LaidOut j j.compact.toList := by
  induction j using induct with
  | null | bool | number | string => exact .scalar rfl
  | array js ih =>
    refine .array_of (fun j => .bare j.compact.toList) .nil ih ?_
    have text := toList_compact_array js []
    rw [List.append_nil] at text
    rw [text, toList_intercalate, List.map_map]
    simp [Padded.text_bare, Function.comp_def]
  | object ms ih =>
    refine .object_of Named.compact .nil (fun _ _ => rfl) ih ?_
    rw [toList_compact_named, List.map_map]
    rfl

/-! ### Pretty texts -/

theorem prettyItems_eq_map (level : Nat) (js : List Json) :
    prettyItems level js = js.map (prettyAt level) := by
  induction js with
  | nil => rfl
  | cons j js ih => rw [prettyItems, ih, List.map_cons]

theorem prettyMembers_eq_map (level : Nat) (ms : List (String × Json)) :
    prettyMembers level ms = ms.map fun m => writeText m.1 ++ ": " ++ m.2.prettyAt level := by
  induction ms with
  | nil => rfl
  | cons m ms ih => rw [prettyMembers, ih, List.map_cons]

theorem blanks_newline (level : Nat) : Blanks (newline level).toList := by
  intro c member
  simp only [newline, String.toList_append, String.toList_ofList, List.mem_append] at member
  rcases member with first | later
  · obtain rfl := List.mem_singleton.mp first
    rfl
  · obtain rfl := List.eq_of_mem_replicate later
    rfl

/-- Pieces on lines of their own: each stands behind the blanks that the separator ends with. -/
theorem toList_intercalate_blanks (blanks s : String) (ss : List String) :
    blanks.toList ++ (("," ++ blanks).intercalate (s :: ss)).toList =
      joined ((s :: ss).map fun s => blanks.toList ++ s.toList) := by
  rw [List.map_cons, joined, List.flatMap_map]
  induction ss generalizing s with
  | nil => simp
  | cons t ss ih =>
    have later := ih t
    rw [String.intercalate_cons_cons, String.toList_append, String.toList_append,
      String.toList_append, List.flatMap_cons]
    simp only [List.append_assoc, List.cons_append] at later ⊢
    rw [later]
    rfl

/-- The blanks in front of the closing bracket. -/
def closing (level : Nat) (lines : List String) : List Char :=
  if lines.isEmpty then [] else (newline level).toList

theorem blanks_closing (level : Nat) (lines : List String) : Blanks (closing level lines) := by
  unfold closing
  split
  · exact .nil
  · exact blanks_newline level

theorem toList_block (left right : String) (level : Nat) (lines : List String) :
    (block left right level lines).toList =
      left.toList ++ (joined (lines.map fun line => (newline (level + 1)).toList ++ line.toList) ++
        (closing level lines ++ right.toList)) := by
  cases lines with
  | nil => simp [block, closing, joined]
  | cons line lines =>
    rw [← toList_intercalate_blanks]
    simp [block, closing]

def Padded.indented (level : Nat) (core : List Char) : Padded where
  before := (newline level).toList
  core := core
  blankBefore := blanks_newline level
  blankBehind := .nil

def Named.indented (level : Nat) (name : String) (core : List Char) : Named where
  before := (newline level).toList
  name := name.toList.flatMap escapedChar
  value := { before := [' '], core, blankBefore := List.forall_mem_singleton.mpr rfl, blankBehind := .nil }
  blankBefore := blanks_newline level
  blankBehind := .nil

theorem prettyAt_scalar {j : Json} (flat : j.depth = 0) (level : Nat) :
    j.prettyAt level = j.compact := by
  cases j with
  | null | bool | number | string => rw [prettyAt, compact]
  | array | object => cases flat

theorem laidOut_prettyAt (j : Json) (level : Nat) : LaidOut j (j.prettyAt level).toList := by
  induction j using induct generalizing level with
  | null | bool | number | string =>
    rw [prettyAt_scalar rfl]
    exact .scalar rfl
  | array js ih =>
    rw [prettyAt, prettyItems_eq_map]
    refine .array_of (fun j => .indented (level + 1) (j.prettyAt (level + 1)).toList)
      (blanks_closing level (js.map (prettyAt (level + 1)))) (fun j member => ih j member _) ?_
    rw [toList_block, List.map_map]
    simp [Padded.indented, Padded.text, Function.comp_def]
  | object ms ih =>
    rw [prettyAt, prettyMembers_eq_map]
    refine .object_of (fun m => .indented (level + 1) m.1 (m.2.prettyAt (level + 1)).toList)
      (blanks_closing level (ms.map fun m => writeText m.1 ++ ": " ++ m.2.prettyAt (level + 1)))
      (fun _ _ => rfl) (fun m member => ih m member _) ?_
    rw [toList_block, List.map_map]
    simp [Named.indented, Named.text, Named.tail, Padded.text, toList_writeText, nameText,
      Function.comp_def]

theorem laidOut_pretty (j : Json) : LaidOut j j.pretty.toList :=
  laidOut_prettyAt j 0

/-! ### Numbers -/

/-- A number as it is written; floats without a text are null. -/
def Number.document : Number → Document
  | .integer n => .number (toString n)
  | .decimal x =>
    match floatLayout.write x with
    | some s => .number s
    | none => .null

/-- A written number: null, or a number of JSON that stands for itself. -/
theorem Number.written (n : Number) :
    n.write = "null" ∧ n.document = .null ∨
      ∃ sign digits, (sign = [] ∨ sign = ['-']) ∧ NumeralText digits ∧
        n.write = String.ofList (sign ++ digits) ∧ n.document = .number n.write := by
  have signed : ∀ negative, Decimal.Layout.sign negative = [] ∨
      Decimal.Layout.sign negative = ['-'] := by decide
  cases n with
  | integer n =>
    refine .inr ⟨_, _, signed (n < 0), Decimal.numeralText_toDigits n.natAbs, ?_, rfl⟩
    rw [Number.write, ← toList_toString, String.ofList_toList]
  | decimal x =>
    rw [Number.write, Number.document]
    cases text : floatLayout.write x with
    | none => exact .inl ⟨rfl, rfl⟩
    | some s =>
      obtain ⟨_, digits, _, whole, spelled, _⟩ := Decimal.write_eq_some text
      refine .inr ⟨_, digits, signed (Decimal.Parts.ofFloat x).negative, spelled.1, ?_, rfl⟩
      rw [← whole, String.ofList_toList]
      rfl

theorem scanLexeme_text {digits rest : List Char} (numeral : NumeralText digits)
    (ends : NumberEnds rest) : scanLexeme (digits ++ rest) = .ok (digits, rest) := by
  obtain ⟨_, scanned⟩ := scanNumeral_text numeral
  have extended := (steady_scanNumeral _ _ _ scanned).2 rest ends
  rw [List.nil_append] at extended
  rw [scanLexeme, extended]
  simp [Except.map]

/-! ### Written texts are JSON -/

theorem textBody_append {as bs : List Char} (h : TextBody as) (h' : TextBody bs) :
    TextBody (as ++ bs) := by
  induction h with
  | done => exact h'
  | plain control quote slash _ ih => exact .plain control quote slash ih
  | escaped known _ ih => exact .escaped known ih
  | unit hex _ ih => exact .unit hex ih

theorem textBody_control {n : Nat} (h : n < 0x20) : TextBody (escapedChar (Char.ofNat n)) := by
  interval_cases n <;> first
    | exact .escaped rfl .done
    | exact .unit (List.all_eq_true.mp (by decide)) .done

theorem textBody_escapedChar (c : Char) : TextBody (escapedChar c) := by
  by_cases control : c.toNat < 0x20
  · have named := textBody_control control
    rwa [Char.ofNat_toNat] at named
  · by_cases quote : c = '"'
    · subst quote
      exact .escaped rfl .done
    · by_cases slash : c = '\\'
      · subst slash
        exact .escaped rfl .done
      · rw [escapedChar_plain control quote slash]
        exact .plain (by omega) quote slash .done

theorem textBody_escaped (s : List Char) : TextBody (s.flatMap escapedChar) := by
  induction s with
  | nil => exact .done
  | cons c s ih => exact textBody_append (textBody_escapedChar c) ih

theorem scalarText_compact {j : Json} (flat : j.depth = 0) : ScalarText j.compact.toList := by
  cases j with
  | null =>
    rw [compact]
    exact .word (.inl rfl)
  | bool b =>
    rw [compact]
    cases b with
    | true => exact .word (.inr (.inl rfl))
    | false => exact .word (.inr (.inr rfl))
  | number n =>
    rw [compact]
    rcases n.written with ⟨null, _⟩ | ⟨sign, digits, signed, numeral, text, _⟩
    · rw [null]
      exact .word (.inl rfl)
    · rw [text, String.toList_ofList]
      exact .number signed numeral
  | string s =>
    rw [compact, toList_writeText]
    exact .text (textBody_escaped s.toList)
  | array | object => cases flat

theorem LaidOut.valueText {j : Json} {core : List Char} (h : LaidOut j core) {n : Nat}
    (deep : j.depth ≤ n) : ValueText n core := by
  induction h generalizing n with
  | scalar flat => exact .scalar (scalarText_compact flat)
  | @array items close blank inner ih =>
    obtain ⟨n, rfl⟩ := Nat.exists_eq_succ_of_ne_zero (by rw [depth] at deep; omega : n ≠ 0)
    have below := depthItems_le_iff.mp (Nat.le_of_succ_le_succ deep)
    have texts : ∀ p ∈ items.map Prod.snd, ValueText n p.core := by
      intro p member
      obtain ⟨i, inside, rfl⟩ := List.mem_map.mp member
      exact ih i inside (below i.1 (List.mem_map_of_mem inside))
    have whole := ValueText.list blank texts
    rwa [List.map_map] at whole
  | @object members close blank names inner ih =>
    obtain ⟨n, rfl⟩ := Nat.exists_eq_succ_of_ne_zero (by rw [depth] at deep; omega : n ≠ 0)
    have below := depthMembers_le_iff.mp (Nat.le_of_succ_le_succ deep)
    have bodies : ∀ m ∈ members.map (·.2.2), TextBody m.name := by
      intro p member
      obtain ⟨m, inside, rfl⟩ := List.mem_map.mp member
      rw [names m inside]
      exact textBody_escaped m.1.toList
    have texts : ∀ m ∈ members.map (·.2.2), ValueText n m.value.core := by
      intro p member
      obtain ⟨m, inside, rfl⟩ := List.mem_map.mp member
      exact ih m inside (below (m.1, m.2.1) (List.mem_map_of_mem inside))
    have whole := ValueText.object blank bodies texts
    rwa [List.map_map] at whole

theorem LaidOut.jsonText {j : Json} {core : List Char} (h : LaidOut j core) {n : Nat}
    (deep : j.depth ≤ n) : JsonText n core :=
  ⟨.bare core, Padded.text_bare core, h.valueText deep⟩

/-! ### Documents of written values -/

mutual

/-- A value as it is written, with its numbers as texts. -/
def document : Json → Document
  | null => .null
  | bool b => .bool b
  | number n => n.document
  | string s => .string s
  | array js => .array (documentItems js)
  | object ms => .object (documentMembers ms)

def documentItems : List Json → List Document
  | [] => []
  | j :: js => j.document :: documentItems js

def documentMembers : List (String × Json) → List (String × Document)
  | [] => []
  | (name, j) :: ms => (name, j.document) :: documentMembers ms

end

theorem documentItems_eq_map (js : List Json) : documentItems js = js.map document := by
  induction js with
  | nil => rfl
  | cons j js ih => rw [documentItems, ih, List.map_cons]

theorem documentMembers_eq_map (ms : List (String × Json)) :
    documentMembers ms = ms.map fun m => (m.1, m.2.document) := by
  induction ms with
  | nil => rfl
  | cons m ms ih => rw [documentMembers, ih, List.map_cons]

theorem documentScalar_digit {c : Char} (digit : c.isDigit = true) (text : List Char) :
    Document.scalar (c :: text) =
      lift ((scanLexeme (c :: text)).map fun (ds, rest) => (.number (String.ofList ds), rest)) := by
  have other : ∀ d ∈ ['n', 't', 'f', '"', '-'], c ≠ d := by
    rintro d member rfl
    have plain := List.all_eq_true.mp (by decide : ['n', 't', 'f', '"', '-'].all (!·.isDigit)) c member
    simp [digit] at plain
  rw [Document.scalar, skipSpace_cons (isSpace_of_isFloatChar (isFloatChar_of_isDigit digit))]
  split
  · next empty => cases empty
  · simp_all
  · simp_all
  · simp_all
  · simp_all
  · simp_all
  · next same =>
    obtain ⟨rfl, rfl⟩ := List.cons.inj same
    rw [if_pos digit]
    cases scanLexeme (c :: text) <;> rfl

theorem documentScalar_null (rest : List Char) :
    Document.scalar ("null".toList ++ rest) = .ok (.null, rest) := by
  change Document.scalar ('n' :: ("ull".toList ++ rest)) = _
  rw [Document.scalar, skipSpace_cons (by decide)]
  change (lift (scanWord "ull".toList ("ull".toList ++ rest)) >>= fun rest =>
    pure (Document.null, rest)) = _
  rw [scanWord_append]
  rfl

theorem documentScalar_numeral {sign digits rest : List Char} (signed : sign = [] ∨ sign = ['-'])
    (numeral : NumeralText digits) (ends : NumberEnds rest) :
    Document.scalar (sign ++ (digits ++ rest)) =
      .ok (.number (String.ofList (sign ++ digits)), rest) := by
  have lexeme := scanLexeme_text numeral ends
  rcases signed with rfl | rfl
  · obtain ⟨c, cs, rfl, digit⟩ := numeral.head_isDigit
    rw [List.nil_append, List.nil_append, List.cons_append, documentScalar_digit digit,
      ← List.cons_append, lexeme]
    rfl
  · rw [List.singleton_append, Document.scalar, skipSpace_cons (by decide)]
    change (lift (scanLexeme (digits ++ rest)) >>= fun digits =>
      pure (Document.number (String.ofList ('-' :: digits.1)), digits.2)) = _
    rw [lexeme]
    rfl

theorem documentScalar_compact {j : Json} (flat : j.depth = 0) {rest : List Char}
    (ends : NumberEnds rest) :
    Document.scalar (j.compact.toList ++ rest) = .ok (j.document, rest) := by
  cases j with
  | null =>
    rw [compact]
    exact documentScalar_null rest
  | bool b =>
    rw [compact]
    cases b with
    | true =>
      change Document.scalar ('t' :: ("rue".toList ++ rest)) = _
      rw [Document.scalar, skipSpace_cons (by decide)]
      change (lift (scanWord "rue".toList ("rue".toList ++ rest)) >>= fun rest =>
        pure (Document.bool true, rest)) = _
      rw [scanWord_append]
      rfl
    | false =>
      change Document.scalar ('f' :: ("alse".toList ++ rest)) = _
      rw [Document.scalar, skipSpace_cons (by decide)]
      change (lift (scanWord "alse".toList ("alse".toList ++ rest)) >>= fun rest =>
        pure (Document.bool false, rest)) = _
      rw [scanWord_append]
      rfl
  | number n =>
    rw [compact, document]
    rcases n.written with ⟨null, same⟩ | ⟨sign, digits, signed, numeral, text, same⟩
    · rw [null, same]
      exact documentScalar_null rest
    · rw [same, text, String.toList_ofList, List.append_assoc]
      exact documentScalar_numeral signed numeral ends
  | string s =>
    rw [compact, toList_writeText, nameText, List.cons_append, List.append_assoc,
      Document.scalar, skipSpace_cons (by decide)]
    change (lift (scanString _) >>= fun s => pure (Document.string s.1, s.2)) = _
    rw [List.singleton_append, scanString_written]
    rfl
  | array | object => cases flat

theorem documentValue_list (d : Nat) (text : List Char) :
    Document.value (d + 1) ('[' :: text) =
      (items (Document.value d) text).map fun (docs, rest) => (.array docs, rest) := by
  change (items (Document.value d) text >>= fun docs =>
    pure (Document.array docs.1, docs.2)) = _
  cases items (Document.value d) text <;> rfl

theorem documentValue_object (d : Nat) (text : List Char) :
    Document.value (d + 1) ('\x7b' :: text) =
      (members (takeWith (Document.value d)) [] text).map fun (ms, rest) =>
        (.object ms.reverse, rest) := by
  change (members (takeWith (Document.value d)) [] text >>= fun ms =>
    pure (Document.object ms.1.reverse, ms.2)) = _
  cases members (takeWith (Document.value d)) [] text <;> rfl

theorem documentValue_blanks {blanks : List Char} (blank : Blanks blanks) (d : Nat)
    (text : List Char) : Document.value d (blanks ++ text) = Document.value d text := by
  cases d <;> simp only [Document.value, nested, skipSpace_append blank]

theorem documentValue_scalar {core : List Char} (h : ScalarText core) (d : Nat)
    (rest : List Char) : Document.value d (core ++ rest) = Document.scalar (core ++ rest) := by
  obtain ⟨c, cs, rfl, start, list, object⟩ := h.start
  rw [List.cons_append]
  cases d <;> simp [Document.value, nested, skipSpace_cons start.solid, list, object]

/-- Puts a member in front of others, with the document of its value. -/
def putDocument (m : String × Json × Named) (name : String) (ms : List (String × Document)) :
    Except ReadError (List (String × Document)) :=
  pure ((name, m.2.1.document) :: ms)

/-- Whatever the layout, a value is read as its document. -/
theorem value_laidOut {j : Json} {core : List Char} (h : LaidOut j core) {d : Nat}
    (room : j.depth ≤ d) {rest : List Char} (ends : NumberEnds rest) :
    Document.value d (core ++ rest) = .ok (j.document, rest) := by
  induction h generalizing d rest with
  | scalar flat =>
    rw [documentValue_scalar (scalarText_compact flat)]
    exact documentScalar_compact flat ends
  | @array list close blank inner ih =>
    obtain ⟨d, rfl⟩ := Nat.exists_eq_succ_of_ne_zero (by rw [depth] at room; omega : d ≠ 0)
    have below := depthItems_le_iff.mp (Nat.le_of_succ_le_succ room)
    have form : ∀ i ∈ list, ItemText i.2.core := fun i member =>
      ((inner i member).valueText (Nat.le_refl _)).itemText
    have read : ∀ i ∈ list, ∀ rest, NumberEnds rest → Document.value d (i.2.core ++ rest) =
        (pure i.1.document : Except ReadError Document).map fun doc => (doc, rest) :=
      fun i member rest ends => ih i member (below i.1 (List.mem_map_of_mem member)) ends
    have whole := items_padded (fun i : Json × Padded => i.2) form read blank rest
    rw [List.mapM_pure] at whole
    simp only [List.cons_append, List.append_assoc, List.nil_append] at whole ⊢
    rw [documentValue_list, whole, document, documentItems_eq_map, List.map_map]
    rfl
  | @object list close blank names inner ih =>
    obtain ⟨d, rfl⟩ := Nat.exists_eq_succ_of_ne_zero (by rw [depth] at room; omega : d ≠ 0)
    have below := depthMembers_le_iff.mp (Nat.le_of_succ_le_succ room)
    have scanned : ∀ m ∈ list, ∀ more, scanString (m.2.2.name ++ '"' :: more) =
        (Except.ok m.1).map fun s => (s, more) := by
      intro m member more
      rw [names m member]
      exact scanString_written m.1 more
    have read : ∀ m ∈ list, ∀ name, Except.ok m.1 = (.ok name : Except Malformed String) →
        ∀ ms rest, NumberEnds rest →
        takeWith (Document.value d) name ms
          (m.2.2.behind ++ ':' :: (m.2.2.value.before ++ (m.2.2.value.core ++ rest))) =
          (putDocument m name ms).map fun ms => (ms, rest) := by
      rintro m member _ ⟨rfl⟩ ms rest ends
      have value := ih m member (below (m.1, m.2.1) (List.mem_map_of_mem member)) ends
      rw [takeWith, colon_cons m.2.2.blankBehind]
      change (Document.value d (m.2.2.value.before ++ (m.2.2.value.core ++ rest)) >>=
        fun doc => pure ((m.1, doc.1) :: ms, doc.2)) = _
      rw [documentValue_blanks m.2.2.value.blankBefore, value]
      rfl
    have whole := members_padded (fun m : String × Json × Named => m.2.2) (fun m => .ok m.1)
      putDocument scanned read blank [] rest
    have taken : ∀ ms, list.foldlM (fun ms m => takeNamed (.ok m.1) (putDocument m) ms) ms =
        .ok ((list.map fun m => (m.1, m.2.1.document)).reverse ++ ms) := by
      intro ms
      change list.foldlM (fun ms m => pure ((m.1, m.2.1.document) :: ms)) ms = _
      rw [List.foldlM_pure, List.foldl_flip_cons_eq_append]
      rfl
    rw [taken] at whole
    simp only [List.cons_append, List.append_assoc, List.nil_append] at whole ⊢
    rw [documentValue_object, whole, document, documentMembers_eq_map, List.map_map]
    simp [Except.map, Function.comp_def]

/-- The compact and the pretty text are read as the same document. -/
theorem parse_laidOut {j : Json} {text : String} (h : LaidOut j text.toList)
    (room : j.depth ≤ depthLimit) : Document.parse text = .ok j.document := by
  have read := value_laidOut h room .nil
  rw [List.append_nil] at read
  exact readAll_ok_iff.mpr ⟨[], read, .nil⟩

end ScimQuery.Json
