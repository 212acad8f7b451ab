import ScimQuery.Json.Record
import ScimQuery.Proofs.JsonParts
import ScimQuery.Proofs.PaddedJson

/-!
# Written values

A written value reads back, except that floats without a text come back as null and that a value
which opens too many lists and objects at a time is refused (`value_compact`). What reads the
members of a list or an object one by one reads the whole of it (`items_written`,
`members_written`).
-/

namespace ScimQuery.Json

/-! ### Numbers -/

/-- A number whose text reads back by itself. -/
def Number.ReadsBack (n : Number) : Prop := Json.parse n.write = .ok n.reread

theorem value_eq_scalar {c : Char} (solid : isSpace c = false) (list : c ≠ '[')
    (object : c ≠ '\x7b') (d : Nat) (text : List Char) :
    value d (c :: text) = scalar (c :: text) := by
  cases d with
  | zero => simp [value, skipSpace_cons solid, list, object]
  | succ d => simp [value, skipSpace_cons solid, list, object]

theorem scalar_minus (text : List Char) :
    scalar ('-' :: text) =
      lift ((scanNumber true text).map fun (n, rest) => (.number n, rest)) := by
  rw [scalar, skipSpace_cons (by decide)]
  change (lift (scanNumber true text) >>= fun n => pure (Json.number n.1, n.2)) = _
  cases scanNumber true text <;> rfl

theorem scalar_digit {c : Char} (digit : c.isDigit = true) (text : List Char) :
    scalar (c :: text) =
      lift ((scanNumber false (c :: text)).map fun (n, rest) => (.number n, rest)) := by
  have other : ∀ d ∈ ['n', 't', 'f', '"', '-'], c ≠ d := by
    rintro d member rfl
    have plain := List.all_eq_true.mp (by decide : ['n', 't', 'f', '"', '-'].all (!·.isDigit)) c member
    simp [digit] at plain
  rw [scalar, skipSpace_cons (isSpace_of_isFloatChar (isFloatChar_of_isDigit digit))]
  split
  · next empty => cases empty
  · simp_all
  · simp_all
  · simp_all
  · simp_all
  · simp_all
  · next same =>
    obtain ⟨rfl, rfl⟩ := List.cons.inj same
    rw [if_pos digit]
    cases scanNumber false (c :: text) <;> rfl

theorem scalar_steady {text : List Char} (form : NumberText text) {j : Json} {left : List Char}
    (read : scalar text = .ok (j, left)) (done : skipSpace left = []) {rest : List Char}
    (ends : NumberEnds rest) : scalar (text ++ rest) = .ok (j, rest) := by
  obtain ⟨⟨c, first, start⟩, solid⟩ := form
  cases text with
  | nil => cases first
  | cons c' text =>
    obtain rfl : c' = c := Option.some.inj first
    rw [List.cons_append]
    -- the scanner stops inside the text or where it ends, and blanks could only be left inside
    have whole : ∀ {negative scanned n}, scanned <:+ c' :: text →
        scanNumber negative scanned = .ok (n, left) →
        scanNumber negative (scanned ++ rest) = .ok (n, rest) := by
      intro negative scanned n inside number
      obtain ⟨behind, more⟩ := steady_scanNumber negative _ _ _ number
      have empty : left = [] := skipSpace_eq_nil_of_solid
        (fun c member => solid c ((behind.trans inside).mem member)) done
      rw [more rest ends, empty, List.nil_append]
    rcases start with rfl | digit
    · rw [scalar_minus] at read ⊢
      obtain ⟨⟨n, _⟩, number, same⟩ := except_map_ok_iff.mp (mapError_ok_iff.mp read)
      obtain ⟨rfl, rfl⟩ := Prod.mk.inj same
      rw [whole (List.suffix_cons _ _) number]
      rfl
    · rw [scalar_digit digit] at read ⊢
      obtain ⟨⟨n, _⟩, number, same⟩ := except_map_ok_iff.mp (mapError_ok_iff.mp read)
      obtain ⟨rfl, rfl⟩ := Prod.mk.inj same
      rw [← List.cons_append, whole List.suffix_rfl number]
      rfl

theorem value_eq_scalar_of_numberText {text : List Char} (form : NumberText text) (d : Nat)
    (rest : List Char) : value d (text ++ rest) = scalar (text ++ rest) := by
  obtain ⟨⟨c, first, start⟩, solid⟩ := form
  cases text with
  | nil => cases first
  | cons c' text =>
    obtain rfl : c' = c := Option.some.inj first
    refine value_eq_scalar (solid c' List.mem_cons_self) ?_ ?_ d (text ++ rest)
    · rintro rfl
      revert start
      decide
    · rintro rfl
      revert start
      decide

theorem readOption_none_iff {read : Reader α} {text rest : List Char} :
    readOption read text = .ok (none, rest) ↔ skipSpace text = "null".toList ++ rest := by
  unfold readOption
  split
  · next word found =>
    rw [found]
    show (lift (scanWord "ull".toList word) >>= fun rest => pure (none, rest)) = .ok (none, rest) ↔
      'n' :: word = 'n' :: ("ull".toList ++ rest)
    simp only [bind_ok_iff, lift, mapError_ok_iff, scanWord_ok_iff, pure_ok_iff, Prod.mk.injEq,
      true_and, exists_eq_right, List.cons.injEq]
  · next other =>
    constructor
    · intro h
      obtain ⟨_, _, same⟩ := bind_ok_iff.mp h
      cases same
    · intro start
      exact absurd start (other ("ull".toList ++ rest))

theorem readAll_ok_iff {read : Reader α} {text : String} {a : α} :
    readAll read text = .ok a ↔ ∃ rest, read text.toList = .ok (a, rest) ∧ Blanks rest := by
  simp only [readAll, bind_ok_iff]
  constructor
  · rintro ⟨⟨a', rest⟩, taken, done⟩
    dsimp only at done
    split at done
    · next empty =>
      obtain rfl := Except.ok.inj done
      exact ⟨rest, taken, skipSpace_eq_nil.mp (List.isEmpty_iff.mp empty)⟩
    · cases done
  · rintro ⟨rest, taken, blank⟩
    refine ⟨(a, rest), taken, ?_⟩
    simp [skipSpace_eq_nil.mpr blank]

theorem parse_ok_iff {s : String} {j : Json} :
    Json.parse s = .ok j ↔
      ∃ left, value depthLimit s.toList = .ok (j, left) ∧ skipSpace left = [] := by
  simp only [Json.parse, readAll_ok_iff, skipSpace_eq_nil]

theorem numberText_toDigits (negative : Bool) (n : Nat) :
    NumberText (Decimal.Layout.sign negative ++ Nat.toDigits 10 n) := by
  have digits : ∀ c ∈ Nat.toDigits 10 n, isSpace c = false := fun c member =>
    isSpace_of_isFloatChar (isFloatChar_digitText c member)
  obtain ⟨c, cs, front, digit⟩ := digitText_eq_cons n
  change Nat.toDigits 10 n = c :: cs at front
  cases negative with
  | true => exact ⟨⟨'-', rfl, .inl rfl⟩, List.forall_mem_append.mpr ⟨isSpace_sign true, digits⟩⟩
  | false => exact ⟨⟨c, by simp [Decimal.Layout.sign, front], .inr digit⟩, digits⟩

theorem toList_toString (n : Int) :
    (toString n).toList = Decimal.Layout.sign (n < 0) ++ Nat.toDigits 10 n.natAbs := by
  cases n with
  | ofNat n => exact Nat.toList_repr
  | negSucc n =>
    change ("-" ++ Nat.repr (n + 1)).toList = _
    rw [String.toList_append, Nat.toList_repr, decide_eq_true (Int.negSucc_lt_zero n)]
    rfl

theorem value_null (d : Nat) (rest : List Char) :
    value d ("null".toList ++ rest) = .ok (.null, rest) := by
  change value d ('n' :: ("ull".toList ++ rest)) = _
  rw [value_eq_scalar (by decide) (by decide) (by decide), scalar, skipSpace_cons (by decide)]
  change (lift (scanWord "ull".toList ("ull".toList ++ rest)) >>= fun rest => pure (null, rest)) = _
  rw [scanWord_append]
  rfl

theorem value_write {n : Number} (reads : n.ReadsBack) (d : Nat) {rest : List Char}
    (ends : NumberEnds rest) : value d (n.write.toList ++ rest) = .ok (n.reread, rest) := by
  have byForm : NumberText n.write.toList →
      value d (n.write.toList ++ rest) = .ok (n.reread, rest) := by
    intro form
    obtain ⟨left, read, done⟩ := parse_ok_iff.mp reads
    have alone := value_eq_scalar_of_numberText form depthLimit []
    rw [List.append_nil] at alone
    rw [alone] at read
    rw [value_eq_scalar_of_numberText form]
    exact scalar_steady form read done ends
  cases n with
  | integer n =>
    refine byForm ?_
    rw [Number.write, toList_toString]
    exact numberText_toDigits _ _
  | decimal x =>
    cases written : floatLayout.write x with
    | none =>
      rw [Number.write, Number.reread, written, Decimal.write_eq_none_iff.mp written]
      exact value_null d rest
    | some s =>
      refine byForm ?_
      rw [Number.write, written]
      exact numberText_of_write written

/-- Every whole number of 64 bits reads back, with or without sign. -/
theorem Number.readsBack_integer {n : Int} (least : -2 ^ 63 ≤ n) (greatest : n < 2 ^ 64) :
    (Number.integer n).ReadsBack := by
  refine parse_ok_iff.mpr ⟨[], ?_, rfl⟩
  have alone := value_eq_scalar_of_numberText (numberText_toDigits (n < 0) n.natAbs) depthLimit []
  rw [List.append_nil] at alone
  rw [Number.write, toList_toString, alone, Number.reread]
  by_cases negative : n < 0
  · rw [decide_eq_true negative]
    change scalar ('-' :: Nat.toDigits 10 n.natAbs) = _
    rw [scalar_minus, scanNumber_negative (by omega) (by omega)]
    have back : -(n.natAbs : Int) = n := by omega
    rw [back]
    rfl
  · rw [decide_eq_false negative]
    obtain ⟨c, cs, front, digit⟩ := digitText_eq_cons n.natAbs
    change Nat.toDigits 10 n.natAbs = c :: cs at front
    have scanned := @scanNumber_natural n.natAbs (by simp only [UInt64.size]; omega)
    change scalar (Nat.toDigits 10 n.natAbs) = _
    rw [front] at scanned ⊢
    have back : (n.natAbs : Int) = n := by omega
    rw [scalar_digit digit, scanned, back]
    rfl

/-! ### Lists and objects -/

theorem toList_intercalate (ss : List String) :
    (",".intercalate ss).toList = joined (ss.map String.toList) := by
  cases ss with
  | nil => rfl
  | cons s ss =>
    rw [List.map_cons, joined, List.flatMap_map]
    induction ss generalizing s with
    | nil => simp
    | cons t ss ih =>
      rw [String.intercalate_cons_cons, String.toList_append, String.toList_append, ih]
      simp

def Padded.bare (core : List Char) : Padded := { core, blankBefore := .nil, blankBehind := .nil }

theorem Padded.text_bare (core : List Char) : (bare core).text = core :=
  List.append_nil core

variable {α β σ : Type}

theorem items_written {item : Reader α} {f : β → Except ReadError α} {text : β → String}
    {bs : List β} (form : ∀ b ∈ bs, ItemText (text b).toList)
    (read : ∀ b ∈ bs, ∀ rest, NumberEnds rest →
      item ((text b).toList ++ rest) = (f b).map fun a => (a, rest)) (rest : List Char) :
    items item ((",".intercalate (bs.map text)).toList ++ ']' :: rest) =
      (bs.mapM f).map fun as => (as, rest) := by
  have bare : joined (bs.map fun b => (Padded.bare (text b).toList).text) =
      (",".intercalate (bs.map text)).toList := by
    simp only [Padded.text_bare, toList_intercalate, List.map_map]
    rfl
  rw [← bare]
  exact items_padded (fun b => .bare (text b).toList) form read .nil rest

/-! ### Objects -/

/-- A member as it is written, up to its value. -/
def nameText (name : String) : List Char := '"' :: (name.toList.flatMap escapedChar ++ ['"'])

theorem toList_writeText (s : String) : (writeText s).toList = nameText s := by
  simp [writeText, nameText]

/-- A member as it is written, with the blanks between its colon and its value. -/
def Named.written (name : String) (value : Padded) : Named where
  name := name.toList.flatMap escapedChar
  value := value
  blankBefore := .nil
  blankBehind := .nil

theorem Named.text_written (name : String) (value : Padded) :
    (written name value).text = nameText name ++ ':' :: value.text := by
  simp [written, Named.text, Named.tail, nameText]

/-- Members are taken in one by one, each as it is written. -/
theorem members_writtenAs {member : String → σ → Reader σ} (form : β → String × Json)
    {step : σ → β → Except ReadError σ} {bs : List β}
    (read : ∀ b ∈ bs, ∀ s rest, NumberEnds rest →
      member (form b).1 s (':' :: ((form b).2.compact.toList ++ rest)) =
        (step s b).map fun s => (s, rest))
    (s : σ) (rest : List Char) :
    members member s ((",".intercalate (compactMembers (bs.map form))).toList ++ '\x7d' :: rest) =
      (bs.foldlM step s).map fun s => (s, rest) := by
  have bare : joined (bs.map fun b =>
        (Named.written (form b).1 (.bare (form b).2.compact.toList)).text) =
      (",".intercalate (compactMembers (bs.map form))).toList := by
    rw [compactMembers_eq_map, toList_intercalate, List.map_map, List.map_map]
    simp [Named.text_written, Padded.text_bare, toList_writeText, Function.comp_def]
  rw [← bare]
  refine members_padded (fun b => .written (form b).1 (.bare (form b).2.compact.toList))
    (fun b => .ok (form b).1) (fun b _ s => step s b) ?_ ?_ .nil s rest
  · exact fun b _ more => scanString_written (form b).1 more
  · rintro b member _ ⟨rfl⟩ s rest ends
    exact read b member s rest ends

theorem members_written {member : String → σ → Reader σ}
    {step : σ → String × Json → Except ReadError σ} {ms : List (String × Json)}
    (read : ∀ m ∈ ms, ∀ s rest, NumberEnds rest →
      member m.1 s (':' :: (m.2.compact.toList ++ rest)) = (step s m).map fun s => (s, rest))
    (s : σ) (rest : List Char) :
    members member s ((",".intercalate (compactMembers ms)).toList ++ '\x7d' :: rest) =
      (ms.foldlM step s).map fun s => (s, rest) := by
  have each := members_writtenAs id read s rest
  rwa [List.map_id] at each

/-! ### Reading what was written -/

theorem mapM_guarded {p : α → Prop} [DecidablePred p] (f : α → β) (e : ε) (as : List α) :
    as.mapM (fun a => if p a then .ok (f a) else .error e : α → Except ε β) =
      if ∀ a ∈ as, p a then .ok (as.map f) else .error e := by
  induction as with
  | nil => simp [pure, Except.pure]
  | cons a as ih =>
    rw [List.mapM_cons, ih]
    by_cases first : p a
    · by_cases others : ∀ a ∈ as, p a
      · rw [if_pos first, if_pos others, if_pos (List.forall_mem_cons.mpr ⟨first, others⟩)]
        rfl
      · rw [if_pos first, if_neg others, if_neg fun all => others (List.forall_mem_cons.mp all).2]
        rfl
    · rw [if_neg first, if_neg fun all => first (List.forall_mem_cons.mp all).1]
      rfl

theorem foldlM_guarded {p : α → Prop} [DecidablePred p] (f : σ → α → σ) (e : ε) (as : List α)
    (s : σ) :
    as.foldlM (fun s a => if p a then .ok (f s a) else .error e : σ → α → Except ε σ) s =
      if ∀ a ∈ as, p a then .ok (as.foldl f s) else .error e := by
  induction as generalizing s with
  | nil => simp [pure, Except.pure]
  | cons a as ih =>
    rw [List.foldlM_cons]
    by_cases first : p a
    · rw [if_pos first]
      change as.foldlM _ (f s a) = _
      rw [ih]
      by_cases others : ∀ a ∈ as, p a
      · rw [if_pos others, if_pos (List.forall_mem_cons.mpr ⟨first, others⟩)]
        rfl
      · rw [if_neg others, if_neg fun all => others (List.forall_mem_cons.mp all).2]
    · rw [if_neg first, if_neg fun all => first (List.forall_mem_cons.mp all).1]
      rfl

theorem itemText_of_numberText {text : List Char} (form : NumberText text) : ItemText text := by
  obtain ⟨⟨c, first, start⟩, solid⟩ := form
  refine ⟨c, first, solid c (List.mem_of_mem_head? first), ?_⟩
  rintro rfl
  revert start
  decide

theorem Number.numberText_write (n : Number) :
    n.write = "null" ∨ NumberText n.write.toList := by
  cases n with
  | integer n =>
    rw [Number.write, toList_toString]
    exact .inr (numberText_toDigits _ _)
  | decimal x =>
    cases written : floatLayout.write x with
    | none => exact .inl (by rw [Number.write, written]; rfl)
    | some s =>
      rw [Number.write, written]
      exact .inr (numberText_of_write written)

theorem itemText_compact (j : Json) : ItemText j.compact.toList := by
  cases j with
  | null => exact ⟨'n', by rw [compact]; rfl, by decide, by decide⟩
  | bool b =>
    rw [compact]
    cases b with
    | true => exact ⟨'t', rfl, by decide, by decide⟩
    | false => exact ⟨'f', rfl, by decide, by decide⟩
  | number n =>
    rw [compact]
    rcases n.numberText_write with null | form
    · rw [null]
      exact ⟨'n', rfl, by decide, by decide⟩
    · exact itemText_of_numberText form
  | string s =>
    rw [compact, toList_writeText]
    exact ⟨'"', rfl, by decide, by decide⟩
  | array js =>
    rw [compact, String.append_assoc, String.toList_append]
    exact ⟨'[', rfl, by decide, by decide⟩
  | object ms =>
    rw [compact, String.append_assoc, String.toList_append]
    exact ⟨'\x7b', rfl, by decide, by decide⟩

theorem value_bool (b : Bool) (d : Nat) (rest : List Char) :
    value d ((bool b).compact.toList ++ rest) = .ok (.bool b, rest) := by
  rw [compact]
  cases b with
  | true =>
    change value d ('t' :: ("rue".toList ++ rest)) = _
    rw [value_eq_scalar (by decide) (by decide) (by decide), scalar, skipSpace_cons (by decide)]
    change (lift (scanWord "rue".toList ("rue".toList ++ rest)) >>= fun rest =>
      pure (bool true, rest)) = _
    rw [scanWord_append]
    rfl
  | false =>
    change value d ('f' :: ("alse".toList ++ rest)) = _
    rw [value_eq_scalar (by decide) (by decide) (by decide), scalar, skipSpace_cons (by decide)]
    change (lift (scanWord "alse".toList ("alse".toList ++ rest)) >>= fun rest =>
      pure (bool false, rest)) = _
    rw [scanWord_append]
    rfl

theorem value_string (s : String) (d : Nat) (rest : List Char) :
    value d ((string s).compact.toList ++ rest) = .ok (.string s, rest) := by
  rw [compact, toList_writeText, nameText, List.cons_append,
    value_eq_scalar (by decide) (by decide) (by decide), scalar, skipSpace_cons (by decide),
    List.append_assoc]
  change (lift (scanString _) >>= fun s => pure (string s.1, s.2)) = _
  rw [List.singleton_append, scanString_written]
  rfl

theorem value_list (d : Nat) (text : List Char) :
    value (d + 1) ('[' :: text) =
      (items (value d) text).map fun (js, rest) => (.array js, rest) := by
  change (items (value d) text >>= fun js => pure (array js.1, js.2)) = _
  cases items (value d) text <;> rfl

/-- How the members of an object are taken in, the last one in front. -/
def takeMember (d : Nat) (name : String) (ms : List (String × Json)) :
    Reader (List (String × Json)) := fun text => do
  let (j, rest) ← value d (← colon text)
  return ((name, j) :: ms, rest)

theorem value_object (d : Nat) (text : List Char) :
    value (d + 1) ('\x7b' :: text) =
      (members (takeMember d) [] text).map fun (ms, rest) => (.object ms.reverse, rest) := by
  change (members (takeMember d) [] text >>= fun ms => pure (object ms.1.reverse, ms.2)) = _
  cases members (takeMember d) [] text <;> rfl

/-- What comes of reading a written value where so many lists and objects may be opened. -/
def rereadWithin (d : Nat) (j : Json) : Except ReadError Json :=
  if j.depth ≤ d then .ok j.reread else malformed .tooDeep

theorem rereadWithin_scalar {j : Json} (flat : j.depth = 0) (d : Nat) :
    j.rereadWithin d = .ok j.reread := by
  rw [rereadWithin, flat, if_pos (Nat.zero_le d)]

theorem rereadWithin_array (js : List Json) (d : Nat) :
    (array js).rereadWithin (d + 1) = (js.mapM (rereadWithin d)).map array := by
  have all : js.mapM (rereadWithin d) =
      if ∀ j ∈ js, j.depth ≤ d then .ok (js.map reread) else malformed .tooDeep :=
    mapM_guarded (p := fun j : Json => j.depth ≤ d) reread _ js
  rw [all, rereadWithin, depth, reread, rereadItems_eq_map]
  simp only [Nat.succ_le_succ_iff, depthItems_le_iff]
  split <;> rfl

/-- A member that has been taken in is put in front of the others. -/
def rereadMember (d : Nat) (ms : List (String × Json)) (m : String × Json) :
    Except ReadError (List (String × Json)) :=
  (m.2.rereadWithin d).map fun j => (m.1, j) :: ms

theorem foldlM_rereadMember (d : Nat) (ms taken : List (String × Json)) :
    ms.foldlM (rereadMember d) taken =
      if ∀ m ∈ ms, m.2.depth ≤ d then
        .ok ((ms.map fun m => (m.1, m.2.reread)).reverse ++ taken)
      else malformed .tooDeep := by
  rw [malformed, ← List.foldl_flip_cons_eq_append, ← foldlM_guarded]
  congr
  funext taken m
  unfold rereadMember rereadWithin
  split <;> rfl

theorem rereadWithin_object (ms : List (String × Json)) (d : Nat) :
    (object ms).rereadWithin (d + 1) =
      (ms.foldlM (rereadMember d) []).map fun ms => object ms.reverse := by
  rw [foldlM_rereadMember, rereadWithin, depth, reread, rereadMembers_eq_map]
  simp only [Nat.succ_le_succ_iff, depthMembers_le_iff]
  split
  · simp [Except.map]
  · rfl

theorem value_compact (j : Json) (reads : ∀ n ∈ j.numbers, n.ReadsBack) (d : Nat)
    {rest : List Char} (ends : NumberEnds rest) :
    value d (j.compact.toList ++ rest) = (j.rereadWithin d).map fun j => (j, rest) := by
  -- What stands behind the value stays free: for an element it is the rest of its list.
  induction j using induct generalizing d rest with
  | null =>
    rw [compact, value_null, rereadWithin_scalar rfl]
    rfl
  | bool b =>
    rw [value_bool, rereadWithin_scalar rfl]
    rfl
  | number n =>
    rw [compact, value_write (reads n (by simp [numbers])) d ends, rereadWithin_scalar rfl]
    rfl
  | string s =>
    rw [value_string, rereadWithin_scalar rfl]
    rfl
  | array js ih =>
    rw [toList_compact_array]
    cases d with
    | zero => rw [rereadWithin, depth, if_neg (Nat.not_succ_le_zero _)]; rfl
    | succ d =>
      have read : ∀ j ∈ js, ∀ rest, NumberEnds rest →
          value d (j.compact.toList ++ rest) = (j.rereadWithin d).map fun j => (j, rest) := by
        intro j member rest ends
        refine ih j member (fun n inside => ?_) d ends
        exact reads n (mem_numbersItems.mpr ⟨j, member, inside⟩)
      rw [value_list, items_written (fun j _ => itemText_compact j) read, rereadWithin_array]
      cases js.mapM (rereadWithin d) <;> rfl
  | object ms ih =>
    rw [toList_compact_object]
    cases d with
    | zero => rw [rereadWithin, depth, if_neg (Nat.not_succ_le_zero _)]; rfl
    | succ d =>
      have read : ∀ m ∈ ms, ∀ taken rest, NumberEnds rest →
          takeMember d m.1 taken (':' :: (m.2.compact.toList ++ rest)) =
            (rereadMember d taken m).map fun taken => (taken, rest) := by
        intro m member taken rest ends
        have inner := ih m member
          (fun n inside => reads n (mem_numbersMembers.mpr ⟨m, member, inside⟩)) d ends
        change (value d (m.2.compact.toList ++ rest) >>= fun j =>
          pure ((m.1, j.1) :: taken, j.2)) = _
        rw [inner, rereadMember]
        cases m.2.rereadWithin d <;> rfl
      rw [value_object, members_written read, rereadWithin_object]
      cases ms.foldlM (rereadMember d) [] <;> rfl

/-! ### Readers of one type -/

theorem readWord_written (names : List (String × α)) (s : String) (rest : List Char) :
    readWord names ((Json.string s).compact.toList ++ rest) =
      (knownName names s).map fun a => (a, rest) := by
  rw [compact, toList_writeText, nameText, List.cons_append, List.append_assoc]
  change (lift (scanString _) >>= fun name => knownName names name.1 >>= fun a =>
    pure (a, name.2)) = _
  rw [List.singleton_append, scanString_written]
  change (knownName names s >>= fun a => pure (a, rest)) = _
  cases knownName names s <;> rfl

theorem field_colon (name : String) (slot : Option α) (read : Reader α) (text : List Char) :
    field name slot read (':' :: text) = (fresh name slot).bind fun _ => read text := by
  unfold field
  cases fresh name slot <;> rfl

theorem toList_toString_nat (n : Nat) : (toString n).toList = Nat.toDigits 10 n := Nat.toList_repr

theorem readUInt64_written (n : UInt64) {blanks : List Char} (blank : Blanks blanks)
    {rest : List Char} (ends : NumberEnds rest) :
    readUInt64 (blanks ++ (Nat.toDigits 10 n.toNat ++ rest)) = .ok (n, rest) := by
  have size : n.toNat < 2 ^ 64 := n.toNat_lt
  have form : NumberText (Nat.toDigits 10 n.toNat) := numberText_toDigits false n.toNat
  have written : (Number.integer n.toNat).write.toList = Nat.toDigits 10 n.toNat :=
    toList_toString_nat n.toNat
  have read := value_write (Number.readsBack_integer (by omega : -2 ^ 63 ≤ (n.toNat : Int))
    (by omega)) 0 ends
  rw [written, value_eq_scalar_of_numberText form] at read
  obtain ⟨c, cs, first, digit⟩ := digitText_eq_cons n.toNat
  change Nat.toDigits 10 n.toNat = c :: cs at first
  have solid : isSpace c = false := isSpace_of_isFloatChar (isFloatChar_of_isDigit digit)
  rw [first, List.cons_append] at read ⊢
  unfold readUInt64
  rw [skipSpace_append blank, skipSpace_cons solid]
  split
  · next same =>
    obtain rfl := (List.cons.inj same).1
    cases digit
  · next same =>
    obtain rfl := (List.cons.inj same).1
    cases digit
  · have present : (0 : Int) ≤ n.toNat := Int.natCast_nonneg _
    rw [read]
    change (if (0 : Int) ≤ n.toNat then pure ((n.toNat : Int).toNat.toUInt64, rest)
      else mismatch (.wrongValue (Found.number (.integer n.toNat)).message "u64")) = _
    rw [if_pos present]
    simp [pure, Except.pure]

end ScimQuery.Json
