import ScimQuery.Proofs.WrittenJson

/-!
# Read values

Whatever the text, a value that is read opens no more lists and objects at a time than are allowed,
and each number in it is one that a text spells (`sound_value`).
-/

namespace ScimQuery.Json

variable {α σ : Type}

/-- No more lists and objects are open at a time, and every number is one that a text spells. -/
def Sound (d : Nat) (j : Json) : Prop := j.depth ≤ d ∧ ∀ n ∈ j.numbers, n.Sound

theorem itemsFrom_forall {P : α → Prop} {item : Reader α}
    (each : ∀ {text a rest}, item text = .ok (a, rest) → P a) {bound : List Char} {first : Bool}
    {text : List Char} {as : List α} {rest : List Char}
    (read : itemsFrom item bound first text = .ok (as, rest)) : ∀ a ∈ as, P a := by
  induction bound generalizing first text as rest with
  | nil => cases read
  | cons _ bound ih =>
    cases next : nextItem first text with
    | error e =>
      rw [itemsFrom, next] at read
      cases read
    | ok next? =>
      cases next? with
      | none =>
        rw [itemsFrom, next] at read
        change (closeList text >>= fun rest => pure ([], rest)) = _ at read
        obtain ⟨_, _, same⟩ := bind_ok_iff.mp read
        obtain ⟨rfl, _⟩ := Prod.mk.inj (Except.ok.inj same)
        exact List.forall_mem_nil P
      | some text' =>
        rw [itemsFrom_some next] at read
        obtain ⟨⟨a, _⟩, element, others⟩ := except_bind_ok_iff.mp read
        obtain ⟨⟨as, _⟩, later, same⟩ := except_map_ok_iff.mp others
        obtain ⟨rfl, _⟩ := Prod.mk.inj same
        exact List.forall_mem_cons.mpr ⟨each element, ih later⟩

theorem membersFrom_invariant {P : σ → Prop} {member : String → σ → Reader σ}
    (each : ∀ {name s text s' rest}, P s → member name s text = .ok (s', rest) → P s')
    {bound : List Char} {first : Bool} {s s' : σ} {text rest : List Char} (start : P s)
    (read : membersFrom member bound first s text = .ok (s', rest)) : P s' := by
  induction bound generalizing first s text with
  | nil => cases read
  | cons _ bound ih =>
    cases next : nextName first text with
    | error e =>
      rw [membersFrom, next] at read
      cases read
    | ok named =>
      obtain ⟨name?, text'⟩ := named
      cases name? with
      | none =>
        rw [membersFrom, next] at read
        obtain ⟨rfl, _⟩ := Prod.mk.inj (Except.ok.inj read)
        exact start
      | some name =>
        rw [membersFrom_some next] at read
        obtain ⟨⟨s'', _⟩, first, later⟩ := except_bind_ok_iff.mp read
        exact ih (each start first) later

theorem unexpected_ne_ok {expected : String} {text : List Char} {a : α × List Char} :
    unexpected expected text ≠ .ok a := by
  intro read
  unfold unexpected at read
  split at read
  · cases read
  · cases read
  · obtain ⟨_, _, refused⟩ := bind_ok_iff.mp read
    cases refused

theorem sound_scalar {text rest : List Char} {j : Json} (read : scalar text = .ok (j, rest))
    (d : Nat) : j.Sound d := by
  have flat : ∀ {i : Json}, i.depth = 0 → i.numbers = [] → i.Sound d := by
    intro i level none
    refine ⟨level ▸ Nat.zero_le d, ?_⟩
    rw [none]
    exact nofun
  have number : ∀ {negative text rest n}, scanNumber negative text = .ok (n, rest) →
      (Json.number n).Sound d := by
    intro negative text rest n scanned
    refine ⟨Nat.zero_le d, ?_⟩
    rw [numbers, List.forall_mem_singleton]
    exact sound_scanNumber scanned
  unfold scalar at read
  split at read
  · cases read
  · obtain ⟨_, _, same⟩ := bind_ok_iff.mp read
    obtain ⟨rfl, _⟩ := Prod.mk.inj (Except.ok.inj same)
    exact flat rfl rfl
  · obtain ⟨_, _, same⟩ := bind_ok_iff.mp read
    obtain ⟨rfl, _⟩ := Prod.mk.inj (Except.ok.inj same)
    exact flat rfl rfl
  · obtain ⟨_, _, same⟩ := bind_ok_iff.mp read
    obtain ⟨rfl, _⟩ := Prod.mk.inj (Except.ok.inj same)
    exact flat rfl rfl
  · obtain ⟨_, _, same⟩ := bind_ok_iff.mp read
    obtain ⟨rfl, _⟩ := Prod.mk.inj (Except.ok.inj same)
    exact flat rfl rfl
  · obtain ⟨_, scanned, same⟩ := bind_ok_iff.mp read
    obtain ⟨rfl, _⟩ := Prod.mk.inj (Except.ok.inj same)
    exact number (mapError_ok_iff.mp scanned)
  · split at read
    · obtain ⟨_, scanned, same⟩ := bind_ok_iff.mp read
      obtain ⟨rfl, _⟩ := Prod.mk.inj (Except.ok.inj same)
      exact number (mapError_ok_iff.mp scanned)
    · cases read

theorem sound_value {d : Nat} {text rest : List Char} {j : Json}
    (read : value d text = .ok (j, rest)) : j.Sound d := by
  induction d generalizing text rest j with
  | zero =>
    unfold value at read
    split at read
    · cases read
    · cases read
    · exact sound_scalar read 0
  | succ d ih =>
    unfold value at read
    split at read
    · obtain ⟨⟨js, _⟩, inner, same⟩ := bind_ok_iff.mp read
      obtain ⟨rfl, _⟩ := Prod.mk.inj (Except.ok.inj same)
      have all : ∀ j ∈ js, j.Sound d := itemsFrom_forall ih inner
      refine ⟨Nat.succ_le_succ (depthItems_le_iff.mpr fun j member => (all j member).1), ?_⟩
      intro n inside
      obtain ⟨j, member, inner⟩ := mem_numbersItems.mp inside
      exact (all j member).2 n inner
    · obtain ⟨⟨ms, _⟩, inner, same⟩ := bind_ok_iff.mp read
      obtain ⟨rfl, _⟩ := Prod.mk.inj (Except.ok.inj same)
      have all : ∀ m ∈ ms, m.2.Sound d := by
        refine @membersFrom_invariant _ (fun ms => ∀ m ∈ ms, m.2.Sound d) _ ?_ _ _ _ _ _ _
          nofun inner
        intro name taken text taken' rest sound one
        obtain ⟨_, _, one⟩ := bind_ok_iff.mp one
        obtain ⟨⟨j, _⟩, inner, same⟩ := bind_ok_iff.mp one
        obtain ⟨rfl, _⟩ := Prod.mk.inj (Except.ok.inj same)
        exact List.forall_mem_cons.mpr ⟨ih inner, sound⟩
      refine ⟨Nat.succ_le_succ (depthMembers_le_iff.mpr fun m member => ?_), ?_⟩
      · exact (all m (List.mem_reverse.mp member)).1
      · intro n inside
        obtain ⟨m, member, inner⟩ := mem_numbersMembers.mp inside
        exact (all m (List.mem_reverse.mp member)).2 n inner
    · exact sound_scalar read (d + 1)

end ScimQuery.Json
