/-!
# Catalogues

Values under names, each name once, in the order of the names. Names are ordered by their
characters, which is also the order of their UTF-8 bytes.
-/

namespace ScimQuery

structure Catalog (α : Type) where
  entries : List (String × α)
  sorted : (entries.map (·.1)).Pairwise (· < ·)

namespace Catalog

def empty : Catalog α := ⟨[], .nil⟩

instance : Inhabited (Catalog α) := ⟨empty⟩

def size (c : Catalog α) : Nat := c.entries.length

def names (c : Catalog α) : List String := c.entries.map (·.1)

def get? (c : Catalog α) (name : String) : Option α := c.entries.lookup name

/-- Puts a value in its place; it takes the place of an earlier one under the same name. -/
def place (name : String) (a : α) : List (String × α) → List (String × α)
  | [] => [(name, a)]
  | e :: es =>
    if e.1 < name then e :: place name a es
    else if e.1 = name then (name, a) :: es
    else (name, a) :: e :: es

theorem mem_names_place {name other : String} {a : α} {es : List (String × α)} :
    other ∈ (place name a es).map (·.1) ↔ other = name ∨ other ∈ es.map (·.1) := by
  induction es with
  | nil => simp [place]
  | cons e es ih =>
    unfold place
    split
    · simp only [List.map_cons, List.mem_cons, ih]
      grind
    · split
      · next same => simp [same]
      · simp

theorem sorted_place (name : String) (a : α) {es : List (String × α)}
    (h : (es.map (·.1)).Pairwise (· < ·)) : ((place name a es).map (·.1)).Pairwise (· < ·) := by
  induction es with
  | nil => simp [place]
  | cons e es ih =>
    simp only [List.map_cons, List.pairwise_cons] at h
    unfold place
    split
    · next below =>
      simp only [List.map_cons, List.pairwise_cons, mem_names_place]
      refine ⟨fun other found => ?_, ih h.2⟩
      exact found.elim (fun same => same ▸ below) (h.1 other)
    · next notBelow =>
      split
      · next same =>
        simp only [List.map_cons, List.pairwise_cons]
        exact ⟨fun other found => same ▸ h.1 other found, h.2⟩
      · next differ =>
        have above : name < e.1 := Decidable.byContradiction fun notAbove =>
          differ (String.le_antisymm (String.not_lt.mp notAbove) (String.not_lt.mp notBelow))
        simp only [List.map_cons, List.pairwise_cons, List.mem_cons]
        refine ⟨fun other found => ?_, h⟩
        rcases found with same | found
        · exact same ▸ above
        · exact String.lt_trans above (h.1 other found)

theorem mem_place {name : String} {a : α} {e : String × α} {es : List (String × α)}
    (h : e ∈ place name a es) : e = (name, a) ∨ e ∈ es := by
  induction es with
  | nil => simpa [place] using h
  | cons first es ih =>
    unfold place at h
    split at h
    · rcases List.mem_cons.mp h with same | later
      · exact Or.inr (List.mem_cons.mpr (Or.inl same))
      · exact (ih later).imp_right (List.mem_cons_of_mem first)
    · split at h
      · exact (List.mem_cons.mp h).imp_right (List.mem_cons_of_mem first)
      · exact List.mem_cons.mp h

def insert (c : Catalog α) (name : String) (a : α) : Catalog α :=
  ⟨place name a c.entries, sorted_place name a c.sorted⟩

theorem lookup_place (name other : String) (a : α) (es : List (String × α)) :
    (place name a es).lookup other = if other = name then some a else es.lookup other := by
  induction es with
  | nil => simp only [place, List.lookup_cons]; grind
  | cons e es ih =>
    obtain ⟨first, b⟩ := e
    unfold place
    split
    · next below =>
      have differ : first ≠ name := fun same => String.lt_irrefl name (same ▸ below)
      simp only [List.lookup_cons]
      grind
    · split <;> simp only [List.lookup_cons] <;> grind

@[simp] theorem get?_empty (name : String) : (empty : Catalog α).get? name = none := rfl

@[simp] theorem get?_insert (c : Catalog α) (name other : String) (a : α) :
    (c.insert name a).get? other = if other = name then some a else c.get? other :=
  lookup_place name other a c.entries

theorem mem_of_get? {c : Catalog α} {name : String} {a : α} (h : c.get? name = some a) :
    (name, a) ∈ c.entries := by
  obtain ⟨before, after, split, _⟩ := List.lookup_eq_some_iff.mp h
  rw [split]
  exact List.mem_append_right _ List.mem_cons_self

/-- Of several values under one name the last one counts. -/
def ofList (es : List (String × α)) : Catalog α :=
  es.foldl (fun c e => c.insert e.1 e.2) empty

/-- The values of the second catalogue take precedence. -/
def override (c other : Catalog α) : Catalog α :=
  other.entries.foldl (fun c e => c.insert e.1 e.2) c

theorem mem_override {c other : Catalog α} {e : String × α}
    (h : e ∈ (c.override other).entries) : e ∈ c.entries ∨ e ∈ other.entries := by
  unfold override at h
  generalize other.entries = es at h ⊢
  induction es generalizing c with
  | nil => exact Or.inl h
  | cons first es ih =>
    rcases ih h with placed | later
    · rcases mem_place placed with same | early
      · exact Or.inr (List.mem_cons.mpr (Or.inl same))
      · exact Or.inl early
    · exact Or.inr (List.mem_cons_of_mem first later)

/-- Converts values one by one; the first that cannot be converted decides. -/
def convert (f : String → α → Except ε β) :
    (es : List (String × α)) → Except ε { fs : List (String × β) // fs.map (·.1) = es.map (·.1) }
  | [] => .ok ⟨[], rfl⟩
  | (name, a) :: es => do
    let b ← f name a
    let ⟨fs, same⟩ ← convert f es
    return ⟨(name, b) :: fs, by simp [same]⟩

def mapM (f : String → α → Except ε β) (c : Catalog α) : Except ε (Catalog β) := do
  let ⟨es, same⟩ ← convert f c.entries
  return ⟨es, same ▸ c.sorted⟩

end Catalog

end ScimQuery
