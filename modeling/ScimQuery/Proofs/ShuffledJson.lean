import Mathlib.Data.List.Forall2
import ScimQuery.Json.Record
import ScimQuery.Proofs.Agreement
import ScimQuery.Proofs.JsonParts

/-!
# Values with members in another order

Two values are shuffled if they differ in the order of the members of their objects only, at any
depth. What is decoded from both without such an order is the same, or refused in both.
-/

namespace ScimQuery.Json

variable {α β γ : Type}

/-- The same value but for the order of the members inside objects. -/
inductive Shuffled : Json → Json → Prop where
  | flat {j : Json} (scalar : j.depth = 0) : Shuffled j j
  | array {js js' : List Json} (length : js.length = js'.length)
      (inner : ∀ p ∈ js.zip js', Shuffled p.1 p.2) : Shuffled (.array js) (.array js')
  | object {ms ordered ms' : List (String × Json)} (perm : ms.Perm ordered)
      (length : ordered.length = ms'.length) (names : ∀ p ∈ ordered.zip ms', p.1.1 = p.2.1)
      (inner : ∀ p ∈ ordered.zip ms', Shuffled p.1.2 p.2.2) : Shuffled (.object ms) (.object ms')

/-- Members of one name whose values are related. -/
def SameName (R : α → β → Prop) (m : String × α) (m' : String × β) : Prop :=
  m.1 = m'.1 ∧ R m.2 m'.2

/-- Related members, in any order. -/
def Reordered (R : Json → Json → Prop) (ms ms' : List (String × Json)) : Prop :=
  ∃ ordered, ms.Perm ordered ∧ List.Forall₂ (SameName R) ordered ms'

namespace Shuffled

variable {j j' : Json} {js js' : List Json} {ms ordered ms' : List (String × Json)}

theorem of_items (alike : List.Forall₂ Shuffled js js') : Shuffled (.array js) (.array js') := by
  obtain ⟨length, inner⟩ := List.forall₂_iff_zip.mp alike
  exact .array length fun p => inner

theorem of_members (h : Reordered Shuffled ms ms') : Shuffled (.object ms) (.object ms') := by
  obtain ⟨ordered, perm, alike⟩ := h
  obtain ⟨length, inner⟩ := List.forall₂_iff_zip.mp alike
  exact .object perm length (fun p member => (inner member).1) fun p member => (inner member).2

/-- Induction where the values inside two lists or two objects are given as pairs. -/
theorem induct {P : ∀ j j' : Json, Shuffled j j' → Prop}
    (flat : ∀ j (scalar : j.depth = 0), P j j (.flat scalar))
    (array : ∀ js js' (alike : List.Forall₂ (fun j j' => ∃ h, P j j' h) js js'),
      P (.array js) (.array js') (of_items (alike.imp fun _ _ h => h.1)))
    (object : ∀ ms ordered ms' (perm : ms.Perm ordered)
      (alike : List.Forall₂ (SameName fun j j' => ∃ h, P j j' h) ordered ms'),
      P (.object ms) (.object ms') (of_members ⟨ordered, perm, alike.imp fun _ _ h => ⟨h.1, h.2.1⟩⟩))
    (h : Shuffled j j') : P j j' h := by
  induction h with
  | flat scalar => exact flat _ scalar
  | array length inner ih =>
    refine array _ _ (List.forall₂_iff_zip.mpr ⟨length, fun member => ?_⟩)
    exact ⟨inner _ member, ih _ member⟩
  | object perm length names inner ih =>
    refine object _ _ _ perm (List.forall₂_iff_zip.mpr ⟨length, fun member => ?_⟩)
    exact ⟨names _ member, inner _ member, ih _ member⟩

/-! ### Decoded values -/

/-- Where neither lists nor objects are taken, the order inside them does not count. -/
theorem agree_of_flat {decode : Json → Except ReadError α} (h : Shuffled j j')
    (array : ∀ js, ∃ e, decode (.array js) = .error e)
    (object : ∀ ms, ∃ e, decode (.object ms) = .error e) : Agree Eq (decode j) (decode j') := by
  cases h with
  | flat => exact .rfl
  | @array js js' =>
    obtain ⟨e, refused⟩ := array js
    obtain ⟨e', refused'⟩ := array js'
    exact refused ▸ refused' ▸ .error
  | @object ms _ ms' =>
    obtain ⟨e, refused⟩ := object ms
    obtain ⟨e', refused'⟩ := object ms'
    exact refused ▸ refused' ▸ .error

theorem asString (h : Shuffled j j') : Agree Eq (Json.asString j) (Json.asString j') :=
  h.agree_of_flat (fun _ => ⟨_, rfl⟩) fun _ => ⟨_, rfl⟩

theorem asOption {decode : Json → Except ReadError α} (h : Shuffled j j')
    (inner : Agree Eq (decode j) (decode j')) :
    Agree Eq (Json.asOption decode j) (Json.asOption decode j') := by
  cases h with
  | flat => exact .rfl
  | array => exact inner.map fun _ _ same => congrArg some same
  | object => exact inner.map fun _ _ same => congrArg some same

theorem asUnit (h : Shuffled j j') : Agree Eq (Json.asUnit j) (Json.asUnit j') := by
  cases h with
  | flat => exact .rfl
  | array => exact .error
  | @object ms ordered ms' perm length =>
    have size : ms.length = ms'.length := perm.length_eq.trans length
    cases ms with
    | nil =>
      obtain rfl := List.eq_nil_of_length_eq_zero size.symm
      exact .rfl
    | cons m ms =>
      cases ms' with
      | nil => cases size
      | cons => exact .error

theorem asName (h : Shuffled j j') (names : List (String × α)) :
    Agree Eq (Json.asName names j) (Json.asName names j') := by
  cases h with
  | flat => exact .rfl
  | array => exact .error
  | @object ms ordered ms' perm length same inner =>
    have size : ms.length = ms'.length := perm.length_eq.trans length
    match ms, ms' with
    | [], [] => exact .rfl
    | [m], [m'] =>
      -- an object of one member has no other order
      obtain rfl := List.perm_singleton.mp perm.symm
      obtain ⟨name, i⟩ := m
      obtain ⟨name', i'⟩ := m'
      obtain rfl : name = name' := same _ List.mem_cons_self
      have value : Shuffled i i' := inner _ List.mem_cons_self
      refine Agree.rfl.bind fun a b eq => ?_
      exact value.asUnit.bind fun _ _ _ => .ok eq
    | _ :: _ :: _, _ :: _ :: _ => exact .error

end Shuffled

/-! ### Records as lists -/

section Items

variable {Q : β → γ → Prop} {bs : List β} {cs : List γ}

theorem agree_nextField (alike : List.Forall₂ Q bs cs) (absent : Except ReadError α)
    {decode : β → Except ReadError α} {decode' : γ → Except ReadError α}
    (each : ∀ b c, Q b c → Agree Eq (decode b) (decode' c)) :
    Agree (fun p p' => p.1 = p'.1 ∧ List.Forall₂ Q p.2 p'.2) (nextField absent decode bs)
      (nextField absent decode' cs) := by
  cases alike with
  | nil => exact Agree.map .rfl fun a b (same : a = b) => ⟨same, .nil⟩
  | cons related rest => exact (each _ _ related).map fun a b same => ⟨same, rest⟩

theorem agree_noneLeft (alike : List.Forall₂ Q bs cs) (size : Nat) :
    Agree Eq (noneLeft size bs) (noneLeft size cs) := by
  cases alike with
  | nil => exact .rfl
  | cons => exact .error

end Items

end ScimQuery.Json
