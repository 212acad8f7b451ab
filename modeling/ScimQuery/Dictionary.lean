/-!
# Dictionaries

Values under keys, each key once. A value put in under a key that is there takes the place of the
earlier one; a new key goes to the end.
-/

namespace ScimQuery

structure Dictionary (κ ν : Type) where
  entries : List (κ × ν)
  distinct : (entries.map (·.1)).Nodup

namespace Dictionary

def empty : Dictionary κ ν := ⟨[], .nil⟩

def size (d : Dictionary κ ν) : Nat := d.entries.length

def isEmpty (d : Dictionary κ ν) : Bool := d.entries.isEmpty

variable [DecidableEq κ]

def get? (d : Dictionary κ ν) (k : κ) : Option ν := d.entries.lookup k

/-- Puts a value in the place of the key's earlier one, or at the end. -/
def put (k : κ) (v : ν) : List (κ × ν) → List (κ × ν)
  | [] => [(k, v)]
  | e :: es => if e.1 = k then (k, v) :: es else e :: put k v es

theorem mem_keys_put {k j : κ} {v : ν} {es : List (κ × ν)} :
    j ∈ (put k v es).map (·.1) ↔ j = k ∨ j ∈ es.map (·.1) := by
  induction es with
  | nil => simp [put]
  | cons e es ih =>
    unfold put
    split
    · next same => simp [same]
    · simp only [List.map_cons, List.mem_cons, ih]
      grind

theorem nodup_put (k : κ) (v : ν) {es : List (κ × ν)} (h : (es.map (·.1)).Nodup) :
    ((put k v es).map (·.1)).Nodup := by
  induction es with
  | nil => simp [put]
  | cons e es ih =>
    simp only [List.map_cons, List.nodup_cons] at h
    unfold put
    split
    · next same => simpa [← same] using h
    · next other =>
      simp only [List.map_cons, List.nodup_cons, mem_keys_put]
      exact ⟨fun found => found.elim other h.1, ih h.2⟩

def insert (d : Dictionary κ ν) (k : κ) (v : ν) : Dictionary κ ν :=
  ⟨put k v d.entries, nodup_put k v d.distinct⟩

theorem mem_put {k : κ} {v : ν} {e : κ × ν} {es : List (κ × ν)} (h : e ∈ put k v es) :
    e = (k, v) ∨ e ∈ es := by
  induction es with
  | nil => simpa [put] using h
  | cons first es ih =>
    unfold put at h
    split at h
    · exact (List.mem_cons.mp h).imp_right (List.mem_cons_of_mem first)
    · rcases List.mem_cons.mp h with same | later
      · exact Or.inr (List.mem_cons.mpr (Or.inl same))
      · exact (ih later).imp_right (List.mem_cons_of_mem first)

theorem lookup_put (k j : κ) (v : ν) (es : List (κ × ν)) :
    (put k v es).lookup j = if j = k then some v else es.lookup j := by
  induction es with
  | nil => simp only [put, List.lookup_cons]; grind
  | cons e es ih =>
    obtain ⟨i, u⟩ := e
    unfold put
    split <;> simp only [List.lookup_cons] <;> grind

@[simp] theorem get?_empty (k : κ) : (empty : Dictionary κ ν).get? k = none := rfl

@[simp] theorem get?_insert (d : Dictionary κ ν) (k j : κ) (v : ν) :
    (d.insert k v).get? j = if j = k then some v else d.get? j := lookup_put k j v d.entries

theorem mem_of_get? {d : Dictionary κ ν} {k : κ} {v : ν} (h : d.get? k = some v) :
    (k, v) ∈ d.entries := by
  obtain ⟨before, after, split, _⟩ := List.lookup_eq_some_iff.mp h
  rw [split]
  exact List.mem_append_right _ List.mem_cons_self

/-- Of several values under one key the last one counts. -/
def ofList (es : List (κ × ν)) : Dictionary κ ν :=
  es.foldl (fun d e => d.insert e.1 e.2) empty

theorem mem_insertAll {d : Dictionary κ ν} {e : κ × ν} {es : List (κ × ν)}
    (h : e ∈ (es.foldl (fun d e => d.insert e.1 e.2) d).entries) : e ∈ d.entries ∨ e ∈ es := by
  induction es generalizing d with
  | nil => exact Or.inl h
  | cons first es ih =>
    rcases ih h with early | later
    · rcases mem_put early with same | before
      · exact Or.inr (List.mem_cons.mpr (Or.inl same))
      · exact Or.inl before
    · exact Or.inr (List.mem_cons_of_mem first later)

theorem mem_ofList {e : κ × ν} {es : List (κ × ν)} (h : e ∈ (ofList es).entries) : e ∈ es :=
  (mem_insertAll h).resolve_left List.not_mem_nil

end Dictionary

end ScimQuery
