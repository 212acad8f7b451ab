import ScimQuery.Filter.Reader
import ScimQuery.Proofs.RecordSlots

/-!
# The fields of nodes

Attribute paths and the nodes of each kind as records of separate fields. A node is made of its
filled fields (`Filter.ofMembers_eq`).
-/

namespace ScimQuery

open Json

namespace AttributePath

/-- The fields of a path. -/
def slots : List (String × Slot Draft Json) :=
  [("uri", ⟨Option String, asOption asString, Draft.schema, fun d s => { d with schema := some s }⟩),
    ("name", ⟨String, asString, Draft.name, fun d s => { d with name := some s }⟩),
    ("sub_attribute",
      ⟨Option String, asOption asString, Draft.sub, fun d s => { d with sub := some s }⟩)]

theorem decodeField_eq (d : Draft) (m : String × Json) : decodeField d m = fillNamed slots d m := by
  obtain ⟨name, j⟩ := m
  unfold decodeField fillNamed
  dsimp only
  split
  · rfl
  · rfl
  · rfl
  · next other other' other'' =>
    have unnamed : ∀ s ∈ slots, name ≠ s.1 := by simpa [slots] using ⟨other, other', other''⟩
    exact (fillNamed_of_unnamed d (name, j) unnamed).symm

theorem separate_slots : Separate slots where
  kept := by simp [slots, Slot.Kept]
  apart := by
    simp only [slots, List.pairwise_cons, List.forall_mem_cons, List.not_mem_nil, false_implies,
      implies_true, List.Pairwise.nil, and_true]
    refine ⟨⟨?_, ?_⟩, ?_⟩ <;> exact ⟨fun _ _ => rfl, fun _ _ => rfl, fun _ _ _ => rfl⟩

end AttributePath

namespace Filter

def pathSlot : Slot Draft Held :=
  ⟨AttributePath, (AttributePath.ofJson ·.json), Draft.path, fun d p => { d with path := some p }⟩

def innerSlot : Slot Draft Held :=
  ⟨Filter, Held.node, Draft.inner, fun d f => { d with inner := some f }⟩

/-- The fields of a node. -/
def slots : NodeKind → List (String × Slot Draft Held)
  | .condition =>
    [("path", pathSlot),
      ("operator", ⟨Operator, (asName Operator.names ·.json), Draft.operator,
        fun d o => { d with operator := some o }⟩),
      ("value", ⟨Option Scalar, (asOption Scalar.ofJson ·.json), Draft.value,
        fun d v => { d with value := some v }⟩)]
  | .logical =>
    [("left", ⟨Filter, Held.node, Draft.left, fun d f => { d with left := some f }⟩),
      ("operator", ⟨Connective, (asName Connective.names ·.json), Draft.connective,
        fun d c => { d with connective := some c }⟩),
      ("right", ⟨Filter, Held.node, Draft.right, fun d f => { d with right := some f }⟩)]
  | .valuePath => [("path", pathSlot), ("filter", innerSlot)]
  | .negation => [("expression", innerSlot)]

theorem conditionField_eq (d : Draft) (m : String × Held) :
    conditionField d m = fillNamed (slots .condition) d m := by
  obtain ⟨name, h⟩ := m
  unfold conditionField
  dsimp only
  split
  · rfl
  · rfl
  · rfl
  · next other other' other'' =>
    have unnamed : ∀ s ∈ slots .condition, name ≠ s.1 := by
      simpa [slots] using ⟨other, other', other''⟩
    exact (fillNamed_of_unnamed d (name, h) unnamed).symm

theorem logicalField_eq (d : Draft) (m : String × Held) :
    logicalField d m = fillNamed (slots .logical) d m := by
  obtain ⟨name, h⟩ := m
  unfold logicalField
  dsimp only
  split
  · rfl
  · rfl
  · rfl
  · next other other' other'' =>
    have unnamed : ∀ s ∈ slots .logical, name ≠ s.1 := by
      simpa [slots] using ⟨other, other', other''⟩
    exact (fillNamed_of_unnamed d (name, h) unnamed).symm

theorem valuePathField_eq (d : Draft) (m : String × Held) :
    valuePathField d m = fillNamed (slots .valuePath) d m := by
  obtain ⟨name, h⟩ := m
  unfold valuePathField
  dsimp only
  split
  · rfl
  · rfl
  · next other other' =>
    have unnamed : ∀ s ∈ slots .valuePath, name ≠ s.1 := by simpa [slots] using ⟨other, other'⟩
    exact (fillNamed_of_unnamed d (name, h) unnamed).symm

theorem negationField_eq (d : Draft) (m : String × Held) :
    negationField d m = fillNamed (slots .negation) d m := by
  obtain ⟨name, h⟩ := m
  unfold negationField
  dsimp only
  split
  · rfl
  · next other =>
    have unnamed : ∀ s ∈ slots .negation, name ≠ s.1 := by simpa [slots] using other
    exact (fillNamed_of_unnamed d (name, h) unnamed).symm

theorem separate_slots (kind : NodeKind) : Separate (slots kind) where
  kept := by cases kind <;> simp [slots, pathSlot, innerSlot, Slot.Kept]
  apart := by
    cases kind <;>
      simp only [slots, List.pairwise_cons, List.forall_mem_cons, List.not_mem_nil, false_implies,
        implies_true, List.Pairwise.nil, and_true]
    · refine ⟨⟨?_, ?_⟩, ?_⟩ <;> exact ⟨fun _ _ => rfl, fun _ _ => rfl, fun _ _ _ => rfl⟩
    · refine ⟨⟨?_, ?_⟩, ?_⟩ <;> exact ⟨fun _ _ => rfl, fun _ _ => rfl, fun _ _ _ => rfl⟩
    · exact ⟨fun _ _ => rfl, fun _ _ => rfl, fun _ _ _ => rfl⟩

/-- The node of some fields. -/
def Draft.node (d : Draft) : NodeKind → Except ReadError Filter
  | .condition => do
    return condition ⟨← required "path" d.path, ← required "operator" d.operator, d.value.join⟩
  | .logical => do
    return logical (← required "left" d.left) (← required "operator" d.connective)
      (← required "right" d.right)
  | .valuePath => do
    return valuePath (← required "path" d.path) (← required "filter" d.inner)
  | .negation => do
    return negation (← required "expression" d.inner)

theorem ofMembers_eq (kind : NodeKind) (ms : List (String × Held)) :
    ofMembers kind ms = ms.foldlM (fillNamed (slots kind)) {} >>= fun d => d.node kind := by
  unfold ofMembers
  cases kind with
  | condition =>
    rw [funext₂ conditionField_eq]
    rfl
  | logical =>
    rw [funext₂ logicalField_eq]
    rfl
  | valuePath =>
    rw [funext₂ valuePathField_eq]
    rfl
  | negation =>
    rw [funext₂ negationField_eq]
    rfl

end Filter

end ScimQuery
