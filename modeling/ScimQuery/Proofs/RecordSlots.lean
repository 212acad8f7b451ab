import Mathlib.Data.List.Pairwise
import ScimQuery.Json.Record
import ScimQuery.Proofs.Agreement
import ScimQuery.Proofs.Outcome

/-!
# Records whose fields come in any order

A record is filled member by member. Where each field has a slot of its own, what has been put into a
slot stays there (`Separate.get_of_fields`), and two members may change places: either they are
passed over, or they fill different slots, or the second of them is refused whichever it is
(`agree_fillNamed_swap`).
-/

namespace ScimQuery.Json

theorem fresh_eq_ok {name : String} {slot : Option α} {u : Unit} :
    fresh name slot = .ok u ↔ slot = none := by
  cases slot <;> simp [fresh, mismatch]

/-- A field of a record: what its value is decoded as, and where that is kept. -/
structure Slot (δ μ : Type) where
  Value : Type
  decode : μ → Except ReadError Value
  get : δ → Option Value
  set : δ → Value → δ

namespace Slot

variable {δ μ : Type}

/-- Takes in the value of a field, which is refused if there has been one. -/
def fill (slot : Slot δ μ) (name : String) (d : δ) (m : μ) : Except ReadError δ := do
  fresh name (slot.get d)
  return slot.set d (← slot.decode m)

/-- Filling either of two slots leaves the other as it is. -/
structure Apart (p q : Slot δ μ) : Prop where
  get_set : ∀ d v, p.get (q.set d v) = p.get d
  get_set' : ∀ d v, q.get (p.set d v) = q.get d
  set_comm : ∀ d v w, q.set (p.set d v) w = p.set (q.set d w) v

theorem Apart.symm {p q : Slot δ μ} (h : p.Apart q) : q.Apart p :=
  ⟨h.get_set', h.get_set, fun d v w => (h.set_comm d w v).symm⟩

/-- What has been put into a slot is in it. -/
def Kept (slot : Slot δ μ) : Prop := ∀ d v, slot.get (slot.set d v) = some v

theorem fill_ok_iff {slot : Slot δ μ} {name : String} {d d' : δ} {m : μ} :
    slot.fill name d m = .ok d' ↔
      slot.get d = none ∧ ∃ v, slot.decode m = .ok v ∧ slot.set d v = d' := by
  simp only [fill, bind_ok_iff, pure_ok_iff, fresh_eq_ok, exists_const]

/-- A slot is not filled twice. -/
theorem Kept.fill_fill {slot : Slot δ μ} (kept : slot.Kept) (name name' : String) (d d' : δ)
    (m m' : μ) : (slot.fill name d m >>= fun d => slot.fill name' d m') ≠ .ok d' := by
  intro filled
  obtain ⟨d₁, first, second⟩ := bind_ok_iff.mp filled
  obtain ⟨_, v, _, rfl⟩ := fill_ok_iff.mp first
  have free := (fill_ok_iff.mp second).1
  rw [kept d v] at free
  cases free

theorem Apart.fill_fill {p q : Slot δ μ} (apart : p.Apart q) {name name' : String} {d d' : δ}
    {m m' : μ} (filled : (p.fill name d m >>= fun d => q.fill name' d m') = .ok d') :
    (q.fill name' d m' >>= fun d => p.fill name d m) = .ok d' := by
  obtain ⟨d₁, first, second⟩ := bind_ok_iff.mp filled
  obtain ⟨free, v, decoded, rfl⟩ := fill_ok_iff.mp first
  obtain ⟨free', w, decoded', rfl⟩ := fill_ok_iff.mp second
  rw [apart.get_set'] at free'
  refine bind_ok_iff.mpr ⟨q.set d w, fill_ok_iff.mpr ⟨free', w, decoded', rfl⟩, ?_⟩
  exact fill_ok_iff.mpr ⟨(apart.get_set d w).trans free, v, decoded, (apart.set_comm d v w).symm⟩

end Slot

/-! ### Members by name -/

section Members

variable {δ μ : Type} {slots : List (String × Slot δ μ)}

/-- A member fills the slot of its name, if there is one. -/
def fillNamed (slots : List (String × Slot δ μ)) (d : δ) (m : String × μ) : Except ReadError δ :=
  match slots.lookup m.1 with
  | some slot => slot.fill m.1 d m.2
  | none => .ok d

theorem fillNamed_of_unnamed (d : δ) (m : String × μ) (unnamed : ∀ s ∈ slots, m.1 ≠ s.1) :
    fillNamed slots d m = .ok d := by
  have absent : slots.lookup m.1 = none :=
    List.lookup_eq_none_iff.mpr fun s member => bne_iff_ne.mpr (unnamed s member)
  rw [fillNamed, absent]

theorem fillNamed_ok_iff {d d' : δ} {m : String × μ} :
    fillNamed slots d m = .ok d' ↔
      (slots.lookup m.1 = none ∧ d = d') ∨
        ∃ slot, slots.lookup m.1 = some slot ∧
          slot.get d = none ∧ ∃ v, slot.decode m.2 = .ok v ∧ slot.set d v = d' := by
  unfold fillNamed
  cases slots.lookup m.1 with
  | none => simp
  | some slot => simp [Slot.fill_ok_iff]

/-- Every field has a slot of its own. -/
structure Separate (slots : List (String × Slot δ μ)) : Prop where
  kept : ∀ s ∈ slots, s.2.Kept
  apart : slots.Pairwise fun s s' => s.2.Apart s'.2

theorem mem_of_lookup {name : String} {slot : Slot δ μ} (found : slots.lookup name = some slot) :
    (name, slot) ∈ slots := by
  obtain ⟨_, _, rfl, _⟩ := List.lookup_eq_some_iff.mp found
  exact List.mem_append_right _ List.mem_cons_self

theorem Separate.apart_of_ne (separate : Separate slots) {s s' : String × Slot δ μ}
    (member : s ∈ slots) (member' : s' ∈ slots) (different : s ≠ s') : s.2.Apart s'.2 := by
  have : Std.Symm fun s s' : String × Slot δ μ => s.2.Apart s'.2 := ⟨fun _ _ h => h.symm⟩
  exact separate.apart.forall member member' different

/-- What has been put into a slot stays there. -/
theorem Separate.get_of_fillNamed (separate : Separate slots) {s : String × Slot δ μ}
    (member : s ∈ slots) {d d' : δ} {m : String × μ} {v : s.2.Value} (taken : s.2.get d = some v)
    (filled : fillNamed slots d m = .ok d') : s.2.get d' = some v := by
  rcases fillNamed_ok_iff.mp filled with ⟨_, rfl⟩ | ⟨slot, found, free, w, _, rfl⟩
  · exact taken
  · by_cases same : s = (m.1, slot)
    · subst same
      rw [free] at taken
      cases taken
    · have apart := separate.apart_of_ne member (mem_of_lookup found) same
      rw [apart.get_set, taken]

/-- A field is decoded from the member with its name. -/
theorem Separate.get_of_fields (separate : Separate slots) {name : String} {slot : Slot δ μ}
    (found : slots.lookup name = some slot) {ms : List (String × μ)} {d d' : δ}
    (filled : ms.foldlM (fillNamed slots) d = .ok d') {m : μ} (given : (name, m) ∈ ms) :
    ∃ v, slot.decode m = .ok v ∧ slot.get d' = some v := by
  obtain ⟨before, after, rfl⟩ := List.append_of_mem given
  rw [List.foldlM_append] at filled
  obtain ⟨d₁, _, filled⟩ := bind_ok_iff.mp filled
  rw [List.foldlM_cons] at filled
  obtain ⟨d₂, first, others⟩ := bind_ok_iff.mp filled
  rcases fillNamed_ok_iff.mp first with ⟨absent, _⟩ | ⟨slot', found', _, v, decoded, rfl⟩
  · cases absent.symm.trans found
  · obtain rfl : slot' = slot := Option.some.inj (found'.symm.trans found)
    have member := mem_of_lookup found
    refine ⟨v, decoded, ?_⟩
    exact foldlM_invariant (P := fun d => slot'.get d = some v)
      (fun _ taken => separate.get_of_fillNamed member taken) (separate.kept _ member d₁ v) others

theorem agree_fillNamed_swap (separate : Separate slots) (d : δ) (m m' : String × μ) :
    Agree Eq (fillNamed slots d m >>= fun d => fillNamed slots d m')
      (fillNamed slots d m' >>= fun d => fillNamed slots d m) := by
  have passed (x : Except ReadError δ) : (x >>= fun d => .ok d) = x := bind_pure x
  unfold fillNamed
  cases found : slots.lookup m.1 with
  | none =>
    rw [passed]
    exact .rfl
  | some p =>
    cases found' : slots.lookup m'.1 with
    | none =>
      rw [passed]
      exact .rfl
    | some q =>
      refine Agree.eq_iff.mpr fun d' => ?_
      by_cases same : m.1 = m'.1
      · -- the second of the two finds the slot filled, whichever it is
        obtain rfl : p = q := Option.some.inj (found.symm.trans (same ▸ found'))
        have kept := separate.kept _ (mem_of_lookup found)
        exact iff_of_false (kept.fill_fill _ _ d d' _ _) (kept.fill_fill _ _ d d' _ _)
      · have apart := separate.apart_of_ne (mem_of_lookup found) (mem_of_lookup found')
          fun eq => same (Prod.mk.inj eq).1
        exact ⟨apart.fill_fill, apart.symm.fill_fill⟩

/-- Members of one name fill a slot alike if it decodes their values alike. -/
theorem agree_fillNamed {m m' : String × μ} (name : m.1 = m'.1)
    (decode : ∀ s ∈ slots, Agree Eq (s.2.decode m.2) (s.2.decode m'.2)) (d : δ) :
    Agree Eq (fillNamed slots d m) (fillNamed slots d m') := by
  unfold fillNamed
  rw [name]
  cases found : slots.lookup m'.1 with
  | none => exact .rfl
  | some slot =>
    refine Agree.rfl.bind fun _ _ _ => ?_
    refine (decode _ (mem_of_lookup found)).bind fun v w same => ?_
    exact same ▸ .rfl

/-- A record of separate fields is the same whatever the order of its members. -/
theorem agree_foldlM_fillNamed (separate : Separate slots) {Q : μ → μ → Prop}
    (decode : ∀ s ∈ slots, ∀ m m', Q m m' → Agree Eq (s.2.decode m) (s.2.decode m'))
    {ms ordered ms' : List (String × μ)} (perm : ms.Perm ordered)
    (alike : List.Forall₂ (fun m m' => m.1 = m'.1 ∧ Q m.2 m'.2) ordered ms') (d : δ) :
    Agree Eq (ms.foldlM (fillNamed slots) d) (ms'.foldlM (fillNamed slots) d) := by
  have reordered : Agree Eq (ms.foldlM (fillNamed slots) d) (ordered.foldlM (fillNamed slots) d) :=
    .foldlM_perm eq_equivalence (fun m d d' same => same ▸ .rfl) (agree_fillNamed_swap separate)
      perm rfl
  refine reordered.eq_trans (.foldlM (fun m m' related d d' same => ?_) alike rfl)
  exact same ▸ agree_fillNamed related.1 (fun s member => decode s member _ _ related.2) d

end Members

end ScimQuery.Json
