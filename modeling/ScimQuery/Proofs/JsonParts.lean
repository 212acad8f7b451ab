import ScimQuery.Json

/-!
# The parts of a value

How deep a value is nested, the numbers in it and what it is read back as, each by recursion over
the value and its members, and the text of a list or an object in front of what stands behind it.
`induct` is the induction that goes with them.
-/

namespace ScimQuery.Json

mutual

/-- How many lists and objects are open at a time. -/
def depth : Json → Nat
  | array js => depthItems js + 1
  | object ms => depthMembers ms + 1
  | null | bool _ | number _ | string _ => 0

def depthItems : List Json → Nat
  | [] => 0
  | j :: js => max j.depth (depthItems js)

def depthMembers : List (String × Json) → Nat
  | [] => 0
  | (_, j) :: ms => max j.depth (depthMembers ms)

end

mutual

def numbers : Json → List Number
  | number n => [n]
  | array js => numbersItems js
  | object ms => numbersMembers ms
  | null | bool _ | string _ => []

def numbersItems : List Json → List Number
  | [] => []
  | j :: js => j.numbers ++ numbersItems js

def numbersMembers : List (String × Json) → List Number
  | [] => []
  | (_, j) :: ms => j.numbers ++ numbersMembers ms

end

/-- What a number is read back as: a float without a text is written as null. -/
def Number.reread : Number → Json
  | .integer n => .integer n
  | .decimal x => if x.isFinite then .decimal x else .null

mutual

def reread : Json → Json
  | number n => n.reread
  | array js => array (rereadItems js)
  | object ms => object (rereadMembers ms)
  | j => j

def rereadItems : List Json → List Json
  | [] => []
  | j :: js => j.reread :: rereadItems js

def rereadMembers : List (String × Json) → List (String × Json)
  | [] => []
  | (name, j) :: ms => (name, j.reread) :: rereadMembers ms

end

theorem depthItems_le_iff {js : List Json} {d : Nat} :
    depthItems js ≤ d ↔ ∀ j ∈ js, j.depth ≤ d := by
  induction js with
  | nil => simp [depthItems]
  | cons j js ih => rw [depthItems, Nat.max_le, ih, List.forall_mem_cons]

theorem depthMembers_le_iff {ms : List (String × Json)} {d : Nat} :
    depthMembers ms ≤ d ↔ ∀ m ∈ ms, m.2.depth ≤ d := by
  induction ms with
  | nil => simp [depthMembers]
  | cons m ms ih => rw [depthMembers, Nat.max_le, ih, List.forall_mem_cons]

theorem mem_numbersItems {js : List Json} {n : Number} :
    n ∈ numbersItems js ↔ ∃ j ∈ js, n ∈ j.numbers := by
  induction js with
  | nil => simp [numbersItems]
  | cons j js ih => simp [numbersItems, ih]

theorem mem_numbersMembers {ms : List (String × Json)} {n : Number} :
    n ∈ numbersMembers ms ↔ ∃ m ∈ ms, n ∈ m.2.numbers := by
  induction ms with
  | nil => simp [numbersMembers]
  | cons m ms ih => simp [numbersMembers, ih]

theorem rereadItems_eq_map (js : List Json) : rereadItems js = js.map reread := by
  induction js with
  | nil => rfl
  | cons j js ih => rw [rereadItems, ih, List.map_cons]

theorem rereadMembers_eq_map (ms : List (String × Json)) :
    rereadMembers ms = ms.map fun m => (m.1, m.2.reread) := by
  induction ms with
  | nil => rfl
  | cons m ms ih => rw [rereadMembers, ih, List.map_cons]

theorem compactItems_eq_map (js : List Json) : compactItems js = js.map compact := by
  induction js with
  | nil => rfl
  | cons j js ih => rw [compactItems, ih, List.map_cons]

theorem compactMembers_eq_map (ms : List (String × Json)) :
    compactMembers ms = ms.map fun m => writeText m.1 ++ ":" ++ m.2.compact := by
  induction ms with
  | nil => rfl
  | cons m ms ih => rw [compactMembers, ih, List.map_cons]

theorem toList_compact_array (js : List Json) (rest : List Char) :
    (array js).compact.toList ++ rest =
      '[' :: ((",".intercalate (js.map compact)).toList ++ ']' :: rest) := by
  rw [compact, compactItems_eq_map, String.toList_append, String.toList_append,
    List.append_assoc, List.append_assoc]
  rfl

theorem toList_compact_object (ms : List (String × Json)) (rest : List Char) :
    (object ms).compact.toList ++ rest =
      '\x7b' :: ((",".intercalate (compactMembers ms)).toList ++ '\x7d' :: rest) := by
  rw [compact, String.toList_append, String.toList_append, List.append_assoc, List.append_assoc]
  rfl

/-- Induction where the values inside a list or an object are given as its members. -/
theorem induct {P : Json → Prop} (null : P null) (bool : ∀ b, P (bool b))
    (number : ∀ n, P (number n)) (string : ∀ s, P (string s))
    (array : ∀ js, (∀ j ∈ js, P j) → P (array js))
    (object : ∀ ms : List (String × Json), (∀ m ∈ ms, P m.2) → P (object ms)) (j : Json) : P j := by
  refine @Json.rec P (fun js => ∀ j ∈ js, P j) (fun ms => ∀ m ∈ ms, P m.2) (fun m => P m.2)
    null bool number string array object nofun ?_ nofun ?_ ?_ j
  · intro j js first others
    exact List.forall_mem_cons.mpr ⟨first, others⟩
  · intro m ms first others
    exact List.forall_mem_cons.mpr ⟨first, others⟩
  · intro name j inner
    exact inner

end ScimQuery.Json
