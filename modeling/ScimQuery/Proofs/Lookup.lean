import Mathlib.Data.List.Nodup
import Mathlib.Data.List.Sort
import ScimQuery.Catalog
import ScimQuery.Dictionary
import ScimQuery.Proofs.Outcome

/-!
# Look-ups

A key of a dictionary or a catalogue has one value, so looking it up and finding it among the
entries come to the same (`Dictionary.get?_eq_some_iff`, `Catalog.get?_eq_some_iff`). Catalogues are
equal when all look-ups are.
-/

namespace ScimQuery

theorem lookup_eq_some_iff_mem {κ ν : Type} [BEq κ] [LawfulBEq κ] {es : List (κ × ν)} {k : κ}
    {v : ν} (distinct : (es.map (·.1)).Nodup) : es.lookup k = some v ↔ (k, v) ∈ es := by
  induction es with
  | nil => simp
  | cons e es ih =>
    obtain ⟨j, u⟩ := e
    simp only [List.map_cons, List.nodup_cons] at distinct
    obtain ⟨fresh, distinct⟩ := distinct
    rw [List.lookup_cons, List.mem_cons]
    by_cases same : k = j
    · subst j
      have absent : (k, v) ∉ es := fun found => fresh (List.mem_map_of_mem found)
      simp [absent, eq_comm]
    · have other : (k == j) = false := beq_eq_false_iff_ne.mpr same
      simp [other, same, ih distinct]

namespace Dictionary

variable {κ ν : Type} [DecidableEq κ]

theorem get?_eq_some_iff {d : Dictionary κ ν} {k : κ} {v : ν} :
    d.get? k = some v ↔ (k, v) ∈ d.entries :=
  lookup_eq_some_iff_mem d.distinct

theorem mem_keys_iff {d : Dictionary κ ν} {k : κ} :
    k ∈ d.entries.map (·.1) ↔ ∃ v, d.get? k = some v := by
  simp [get?_eq_some_iff]

theorem put_fresh {k : κ} {v : ν} {es : List (κ × ν)} (fresh : k ∉ es.map (·.1)) :
    put k v es = es ++ [(k, v)] := by
  induction es with
  | nil => rfl
  | cons e es ih =>
    simp only [List.map_cons, List.mem_cons, not_or] at fresh
    rw [put, if_neg (Ne.symm fresh.1), ih fresh.2, List.cons_append]

/-- Entries under keys of their own all go to the end. -/
theorem entries_insertAll {d : Dictionary κ ν} {es : List (κ × ν)}
    (distinct : ((d.entries ++ es).map (·.1)).Nodup) :
    (es.foldl (fun d e => d.insert e.1 e.2) d).entries = d.entries ++ es := by
  induction es generalizing d with
  | nil => simp
  | cons e es ih =>
    have fresh : e.1 ∉ d.entries.map (·.1) := by
      simp only [List.map_append, List.map_cons] at distinct
      intro early
      exact (List.nodup_append.mp distinct).2.2 e.1 early e.1 List.mem_cons_self rfl
    have entries : (d.insert e.1 e.2).entries = d.entries ++ [e] := put_fresh fresh
    rw [List.foldl_cons, ih, entries, List.append_assoc, List.singleton_append]
    rwa [entries, List.append_assoc, List.singleton_append]

theorem entries_ofList {es : List (κ × ν)} (distinct : (es.map (·.1)).Nodup) :
    (ofList es).entries = es :=
  entries_insertAll distinct

theorem ofList_entries (d : Dictionary κ ν) : ofList d.entries = d := by
  have same := entries_ofList d.distinct
  generalize ofList d.entries = d' at same
  cases d
  cases d'
  cases same
  rfl

end Dictionary

namespace Catalog

theorem distinct (c : Catalog α) : (c.entries.map (·.1)).Nodup :=
  c.sorted.imp fun {a b} (below : a < b) (same : a = b) => String.lt_irrefl b (same ▸ below)

theorem get?_eq_some_iff {c : Catalog α} {name : String} {a : α} :
    c.get? name = some a ↔ (name, a) ∈ c.entries :=
  lookup_eq_some_iff_mem c.distinct

theorem mem_names_iff {c : Catalog α} {name : String} :
    name ∈ c.names ↔ ∃ a, c.get? name = some a := by
  simp [names, get?_eq_some_iff]

theorem get?_insertAll (c : Catalog α) (name : String) {es : List (String × α)}
    (distinct : (es.map (·.1)).Nodup) :
    (es.foldl (fun c e => c.insert e.1 e.2) c).get? name = (es.lookup name).or (c.get? name) := by
  induction es generalizing c with
  | nil => simp
  | cons e es ih =>
    obtain ⟨other, a⟩ := e
    simp only [List.map_cons, List.nodup_cons] at distinct
    obtain ⟨fresh, distinct⟩ := distinct
    rw [List.foldl_cons, ih _ distinct, get?_insert, List.lookup_cons]
    by_cases same : name = other
    · subst other
      have absent : es.lookup name = none :=
        Option.eq_none_iff_forall_ne_some.mpr fun b found =>
          fresh (List.mem_map_of_mem (f := (·.1)) ((lookup_eq_some_iff_mem distinct).mp found))
      simp [absent]
    · have differ : (name == other) = false := beq_eq_false_iff_ne.mpr same
      simp [differ, same]

@[simp] theorem get?_override (c other : Catalog α) (name : String) :
    (c.override other).get? name = (other.get? name).or (c.get? name) :=
  get?_insertAll c name other.distinct

/-- The names of a catalogue are in order, so its entries are known from its look-ups. -/
theorem ext_get? {c d : Catalog α} (same : ∀ name, c.get? name = d.get? name) : c = d := by
  have members : ∀ e, e ∈ c.entries ↔ e ∈ d.entries := fun (name, a) => by
    rw [← get?_eq_some_iff, ← get?_eq_some_iff, same]
  have perm : c.entries.Perm d.entries :=
    (List.perm_ext_iff_of_nodup c.distinct.of_map d.distinct.of_map).mpr members
  have ordered : ∀ b : Catalog α, b.entries.Pairwise fun e f => e.1 < f.1 :=
    fun b => List.pairwise_map.mp b.sorted
  have entries : c.entries = d.entries :=
    perm.eq_of_pairwise (fun e f _ _ below above => (String.lt_asymm below above).elim)
      (ordered c) (ordered d)
  cases c
  cases d
  simpa using entries

theorem ofList_entries (c : Catalog α) : ofList c.entries = c := by
  apply ext_get?
  intro name
  rw [ofList, get?_insertAll _ _ c.distinct, get?_empty, Option.or_none]
  rfl

/-- A value under its name, converted. -/
def convertEntry (f : String → α → Except ε β) (e : String × α) : Except ε (String × β) :=
  (f e.1 e.2).map fun b => (e.1, b)

theorem convertEntry_ok_iff {f : String → α → Except ε β} {e : String × α} {e' : String × β} :
    convertEntry f e = .ok e' ↔ e'.1 = e.1 ∧ f e.1 e.2 = .ok e'.2 := by
  simp only [convertEntry, except_map_ok_iff, Prod.ext_iff]
  constructor
  · rintro ⟨b, converted, name, same⟩
    exact ⟨name.symm, same ▸ converted⟩
  · rintro ⟨name, converted⟩
    exact ⟨e'.2, converted, name.symm, rfl⟩

theorem convert_eq_mapM (f : String → α → Except ε β) (es : List (String × α)) :
    (convert f es).map (·.1) = es.mapM (convertEntry f) := by
  induction es with
  | nil => rfl
  | cons e es ih =>
    rw [List.mapM_cons, ← ih, convert, convertEntry]
    cases f e.1 e.2 with
    | error => rfl
    | ok b => cases convert f es <;> rfl

theorem mapM_ok_iff {f : String → α → Except ε β} {c : Catalog α} {d : Catalog β} :
    c.mapM f = .ok d ↔ c.entries.mapM (convertEntry f) = .ok d.entries := by
  rw [← convert_eq_mapM, mapM]
  simp only [bind_ok_iff, pure_ok_iff, except_map_ok_iff]
  refine exists_congr fun out => and_congr_right fun _ => ?_
  cases d
  simp

theorem exists_mapM_iff {f : String → α → Except ε β} {c : Catalog α} :
    (∃ d, c.mapM f = .ok d) ↔ ∀ name a, c.get? name = some a → ∃ b, f name a = .ok b := by
  have converted : (∃ d, c.mapM f = .ok d) ↔ ∃ es, c.entries.mapM (convertEntry f) = .ok es := by
    rw [← convert_eq_mapM, mapM]
    cases convert f c.entries <;> simp [bind, Except.bind, Except.map, pure, Except.pure]
  rw [converted, ScimQuery.exists_mapM_iff]
  simp only [get?_eq_some_iff, Prod.forall]
  refine forall₃_congr fun name a _ => ?_
  simp [convertEntry_ok_iff]

theorem get?_of_mapM {f : String → α → Except ε β} {c : Catalog α} {d : Catalog β}
    (h : c.mapM f = .ok d) {name : String} {b : β} :
    d.get? name = some b ↔ ∃ a, c.get? name = some a ∧ f name a = .ok b := by
  rw [get?_eq_some_iff, mem_mapM_iff (mapM_ok_iff.mp h)]
  simp only [get?_eq_some_iff, convertEntry_ok_iff, Prod.exists]
  constructor
  · rintro ⟨_, a, member, rfl, converted⟩
    exact ⟨a, member, converted⟩
  · rintro ⟨a, member, converted⟩
    exact ⟨name, a, member, rfl, converted⟩

end Catalog

end ScimQuery
