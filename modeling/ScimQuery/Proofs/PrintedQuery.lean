import ScimQuery.Proofs.JsonLayout
import ScimQuery.Query

/-!
# Printed queries

A printed query reads back as it is, in either layout (`printed_query_read`). Only the width of a
whole number and the floats that have no text are lost in print. The digits of all other floats are
read as floats.
-/

namespace ScimQuery

open Json

namespace Parameter

/-- A parameter as it is printed. Floats that are infinite or no number have no text. -/
def document : Parameter → Document
  | int n => .number (toString n.toInt)
  | int64 n => .number (toString n.toInt)
  | bool b => .bool b
  | float x => if x.isFinite then .number (Number.decimal x).write else .null
  | text s => .string s
  | null => .null

/-- What a printed parameter is read back as. A float is scaled anew from its digits, with the
roundings of the reader. -/
inductive Rereads : Parameter → Json → Prop where
  | int (n) : Rereads (int n) (.integer n.toInt)
  | int64 (n) : Rereads (int64 n) (.integer n.toInt)
  | bool (b) : Rereads (bool b) (.bool b)
  | float {x y} (finite : x.isFinite = true) (finite' : y.isFinite = true)
      (read : Json.parse (Number.decimal x).write = .ok (.decimal y)) :
      Rereads (float x) (.decimal y)
  | noText {x} (infinite : x.isFinite = false) : Rereads (float x) .null
  | text (s) : Rereads (text s) (.string s)
  | null : Rereads null .null

/-- A parameter without what is lost in print. -/
def plain : Parameter → Parameter
  | int n => int64 n.toInt64
  | float x => if x.isFinite then float x else null
  | p => p

theorem write_of_isFinite {x : Float} (finite : x.isFinite = true) :
    floatLayout.write x = some (Number.decimal x).write := by
  cases written : floatLayout.write x with
  | none =>
    rw [Decimal.write_eq_none_iff.mp written] at finite
    cases finite
  | some s => rw [Number.write, written, Option.getD_some]

theorem document_decimal (x : Float) :
    (Number.decimal x).document =
      if x.isFinite then .number (Number.decimal x).write else .null := by
  rw [Number.document]
  by_cases finite : x.isFinite = true
  · rw [write_of_isFinite finite, if_pos finite]
  · rw [Decimal.write_eq_none_iff.mpr (by simpa using finite), if_neg finite]

theorem document_toJson (p : Parameter) : p.toJson.document = p.document := by
  cases p with
  | float x => exact document_decimal x
  | int | int64 | bool | text | null => rfl

theorem depth_toJson (p : Parameter) : p.toJson.depth = 0 := by
  cases p <;> rfl

theorem compact_plain (p : Parameter) : p.plain.toJson.compact = p.toJson.compact := by
  cases p with
  | int n => rw [plain, toJson, toJson, Int32.toInt_toInt64]
  | float x =>
    rw [plain]
    split
    · rfl
    · next infinite =>
      have none : floatLayout.write x = none := Decimal.write_eq_none_iff.mpr (by simpa using infinite)
      rw [toJson, toJson, decimal, compact, compact, Number.write, none]
      rfl
  | int64 | bool | text | null => rfl

theorem parse_integer {n : Int} (least : -2 ^ 63 ≤ n) (greatest : n < 2 ^ 63) :
    Json.parse (toString n) = .ok (.integer n) :=
  Number.readsBack_integer least (by omega)

theorem evaluate_document (p : Parameter) : ∃ j, Rereads p j ∧ p.document.evaluate = .ok j := by
  have read : Document.parse p.toJson.compact = .ok p.document := by
    rw [← document_toJson]
    exact parse_laidOut (laidOut_compact _) (by rw [depth_toJson]; exact Nat.zero_le _)
  have value := Document.parse_of_document read
  cases p with
  | int n =>
    have wide := n.toInt64.le_toInt
    have wide' := n.toInt64.toInt_lt
    rw [Int32.toInt_toInt64] at wide wide'
    rw [← value, toJson, integer, compact]
    exact ⟨_, .int n, parse_integer wide wide'⟩
  | int64 n =>
    rw [← value, toJson, integer, compact]
    exact ⟨_, .int64 n, parse_integer n.le_toInt n.toInt_lt⟩
  | float x =>
    by_cases finite : x.isFinite = true
    · obtain ⟨y, finite', parsed⟩ := Decimal.parse_write (write_of_isFinite finite)
      rw [← value, toJson, decimal, compact]
      exact ⟨_, .float finite finite' parsed, parsed⟩
    · rw [document, if_neg finite]
      exact ⟨_, .noText (by simpa using finite), rfl⟩
  | bool b => exact ⟨_, .bool b, rfl⟩
  | text s => exact ⟨_, .text s, rfl⟩
  | null => exact ⟨_, .null, rfl⟩

theorem evaluate_documents (ps : List Parameter) : ∃ items, List.Forall₂ Rereads ps items ∧
    (ps.map document).mapM Document.evaluate = .ok items := by
  induction ps with
  | nil => exact ⟨[], .nil, rfl⟩
  | cons p ps ih =>
    obtain ⟨j, first, value⟩ := p.evaluate_document
    obtain ⟨items, others, values⟩ := ih
    refine ⟨j :: items, .cons first others, ?_⟩
    rw [List.map_cons, List.mapM_cons, value, values]
    rfl

/-- What is printed for a parameter that loses nothing. -/
inductive Prints : Parameter → Document → Prop where
  | int64 (n) : Prints (int64 n) (.number (toString n.toInt))
  | bool (b) : Prints (bool b) (.bool b)
  | float {x s} (written : floatLayout.write x = some s) : Prints (float x) (.number s)
  | text (s) : Prints (text s) (.string s)
  | null : Prints null .null

theorem prints_plain (p : Parameter) : Prints p.plain p.document := by
  cases p with
  | int n =>
    rw [plain, document, ← Int32.toInt_toInt64]
    exact .int64 n.toInt64
  | int64 n => exact .int64 n
  | bool b => exact .bool b
  | float x =>
    rw [plain, document]
    split
    · next finite => exact .float (write_of_isFinite finite)
    · exact .null
  | text s => exact .text s
  | null => exact .null

theorem toString_ne_write {n : Int} {x : Float} {s : String} (h : floatLayout.write x = some s) :
    toString n ≠ s := by
  have plain : ∀ c ∈ (toString n).toList, c ≠ '.' ∧ c ≠ 'e' := by
    intro c member
    rw [toList_toString, List.mem_append] at member
    rcases member with sign | digit
    · obtain rfl : c = '-' := by
        revert sign
        cases decide (n < 0) <;> simp [Decimal.Layout.sign]
      decide
    · have digit := isDigit_of_mem_toDigits c digit
      constructor <;> rintro rfl <;> revert digit <;> decide
  rintro rfl
  rcases Decimal.marked_of_write h with point | letter
  · exact (plain '.' point).1 rfl
  · exact (plain 'e' letter).2 rfl

/-- Whole numbers are told apart by their texts, since these are read back. -/
theorem toInt_eq_of_toString {n n' : Int64} (h : toString n.toInt = toString n'.toInt) : n = n' := by
  have read := parse_integer n.le_toInt n.toInt_lt
  rw [h, parse_integer n'.le_toInt n'.toInt_lt] at read
  simp only [Except.ok.injEq, integer, Json.number.injEq, Number.integer.injEq] at read
  exact (Int64.toInt_inj.mp read).symm

theorem Prints.injective {p p' : Parameter} {d d' : Document} (h : Prints p d) (h' : Prints p' d')
    (same : d = d') : p = p' := by
  cases h with
  | int64 n =>
    cases h' with
    | int64 n' => rw [toInt_eq_of_toString (Document.number.inj same)]
    | float written => exact absurd (Document.number.inj same) (toString_ne_write written)
    | bool | text | null => cases same
  | float written =>
    cases h' with
    | int64 n' => exact absurd (Document.number.inj same).symm (toString_ne_write written)
    | float written' =>
      obtain rfl := Document.number.inj same
      rw [Decimal.write_injective written written']
    | bool | text | null => cases same
  | bool b =>
    cases h' with
    | bool b' => rw [Document.bool.inj same]
    | int64 | float | text | null => cases same
  | text s =>
    cases h' with
    | text s' => rw [Document.string.inj same]
    | int64 | float | bool | null => cases same
  | null =>
    cases h' with
    | null => rfl
    | int64 | float | bool | text => cases same

theorem plain_eq_of_document {p p' : Parameter} (same : p.document = p'.document) :
    p.plain = p'.plain :=
  (prints_plain p).injective (prints_plain p') same

theorem map_plain_eq {ps ps' : List Parameter} (same : ps.map document = ps'.map document) :
    ps.map plain = ps'.map plain := by
  induction ps generalizing ps' with
  | nil =>
    cases ps' with
    | nil => rfl
    | cons => cases same
  | cons p ps ih =>
    cases ps' with
    | nil => cases same
    | cons p' ps' =>
      obtain ⟨first, others⟩ := List.cons.inj same
      rw [List.map_cons, List.map_cons, plain_eq_of_document first, ih others]

end Parameter

namespace Query

def document (q : Query) : Document :=
  .object [("predicate", .string q.predicate.text),
    ("parameters", .array (q.predicate.parameters.map Parameter.document)),
    ("limit", .string q.limit), ("order_by", .string q.orderBy)]

def plain (q : Query) : Query :=
  { q with predicate := { q.predicate with parameters := q.predicate.parameters.map .plain } }

theorem document_toJson (q : Query) : q.toJson.document = q.document := by
  have parameters : Json.documentItems (q.predicate.parameters.map Parameter.toJson) =
      q.predicate.parameters.map Parameter.document := by
    rw [documentItems_eq_map, List.map_map]
    exact List.map_congr_left fun p _ => p.document_toJson
  simp [toJson, document, Json.document, documentMembers, parameters]

theorem depth_toJson (q : Query) : q.toJson.depth ≤ depthLimit := by
  have flat : ∀ p ∈ q.predicate.parameters.map Parameter.toJson, p.depth ≤ 0 := by
    intro j member
    obtain ⟨p, _, rfl⟩ := List.mem_map.mp member
    cases p <;> exact Nat.le_refl 0
  have parameters := depthItems_le_iff.mpr flat
  simp only [toJson, depth, depthMembers, depthLimit]
  omega

/-- The object of a query with these parameters. -/
def object (q : Query) (parameters : List Json) : Json :=
  .object [("predicate", .string q.predicate.text), ("parameters", .array parameters),
    ("limit", .string q.limit), ("order_by", .string q.orderBy)]

theorem evaluate_document (q : Query) :
    ∃ items, List.Forall₂ Parameter.Rereads q.predicate.parameters items ∧
      q.document.evaluate = .ok (q.object items) := by
  obtain ⟨items, read, values⟩ := Parameter.evaluate_documents q.predicate.parameters
  refine ⟨items, read, ?_⟩
  simp only [document, Document.evaluate, Document.evaluateMembers,
    Document.evaluateItems_eq_mapM, values]
  rfl

theorem printed_plain (q : Query) : q.plain.toJson.compact = q.toJson.compact ∧
    q.plain.toJson.pretty = q.toJson.pretty := by
  have compacts : compactItems (q.plain.predicate.parameters.map Parameter.toJson) =
      compactItems (q.predicate.parameters.map Parameter.toJson) := by
    rw [compactItems_eq_map, compactItems_eq_map, plain, List.map_map, List.map_map, List.map_map]
    exact List.map_congr_left fun p _ => p.compact_plain
  have pretties : prettyItems 2 (q.plain.predicate.parameters.map Parameter.toJson) =
      prettyItems 2 (q.predicate.parameters.map Parameter.toJson) := by
    rw [prettyItems_eq_map, prettyItems_eq_map, plain, List.map_map, List.map_map, List.map_map]
    refine List.map_congr_left fun p _ => ?_
    change prettyAt 2 p.plain.toJson = prettyAt 2 p.toJson
    rw [prettyAt_scalar p.plain.depth_toJson, prettyAt_scalar p.depth_toJson, p.compact_plain]
  constructor
  · simp only [toJson, compact, compactMembers, compacts]
    rfl
  · simp only [toJson, pretty, prettyAt, prettyMembers, pretties]
    rfl

theorem plain_eq_of_document {q q' : Query} (same : q.document = q'.document) :
    q.plain = q'.plain := by
  simp only [document, Document.object.injEq, List.cons.injEq, Prod.mk.injEq,
    Document.string.injEq, Document.array.injEq, true_and, and_true] at same
  obtain ⟨text, parameters, limit, orderBy⟩ := same
  simp only [plain, text, Parameter.map_plain_eq parameters, limit, orderBy]

theorem parse_printed (q : Query) : Document.parse q.toJson.compact = .ok q.document ∧
    Document.parse q.toJson.pretty = .ok q.document := by
  rw [← document_toJson]
  exact ⟨parse_laidOut (laidOut_compact _) q.depth_toJson,
    parse_laidOut (laidOut_pretty _) q.depth_toJson⟩

/-- A printed query reads back, from either layout: exactly its clauses and its parameters in their
order. Queries are printed alike just if they differ in what is lost in print. -/
theorem printed_query_read (q : Query) :
    Document.parse q.toJson.compact = .ok q.document ∧
    Document.parse q.toJson.pretty = .ok q.document ∧
    (∃ items, List.Forall₂ Parameter.Rereads q.predicate.parameters items ∧
      Json.parse q.toJson.compact = .ok (q.object items) ∧
      Json.parse q.toJson.pretty = .ok (q.object items)) ∧
    ∀ q' : Query, (q.toJson.compact = q'.toJson.compact ↔ q.plain = q'.plain) ∧
      (q.toJson.pretty = q'.toJson.pretty ↔ q.plain = q'.plain) := by
  obtain ⟨compact, pretty⟩ := q.parse_printed
  obtain ⟨items, read, value⟩ := q.evaluate_document
  refine ⟨compact, pretty, ⟨items, read, (Document.parse_of_document compact).trans value,
    (Document.parse_of_document pretty).trans value⟩, fun q' => ⟨⟨fun same => ?_, fun same => ?_⟩,
      fun same => ?_, fun same => ?_⟩⟩
  · have read := q'.parse_printed.1
    rw [← same, compact] at read
    exact plain_eq_of_document (Except.ok.inj read)
  · rw [← q.printed_plain.1, same, q'.printed_plain.1]
  · have read := q'.parse_printed.2
    rw [← same, pretty] at read
    exact plain_eq_of_document (Except.ok.inj read)
  · rw [← q.printed_plain.2, same, q'.printed_plain.2]

end Query

end ScimQuery
