import ScimQuery.Log.Recorded

/-!
# Successful computations

What the success of a computation says of its parts, for plain results and for recorded ones.
-/

namespace ScimQuery

/-! ### Plain results -/

@[simp] theorem except_bind_ok_iff {x : Except ε α} {f : α → Except ε β} {b : β} :
    x.bind f = .ok b ↔ ∃ a, x = .ok a ∧ f a = .ok b := by
  cases x <;> simp [Except.bind]

@[simp] theorem bind_ok_iff {x : Except ε α} {f : α → Except ε β} {b : β} :
    (x >>= f) = .ok b ↔ ∃ a, x = .ok a ∧ f a = .ok b :=
  except_bind_ok_iff

@[simp] theorem pure_ok_iff {a b : α} : (pure a : Except ε α) = .ok b ↔ a = b := by
  simp [pure, Except.pure]

@[simp] theorem throw_ok_iff {e : ε} {b : α} : (throw e : Except ε α) = .ok b ↔ False := by
  simp [throw, throwThe, MonadExceptOf.throw]

@[simp] theorem except_map_ok_iff {x : Except ε α} {f : α → β} {b : β} :
    x.map f = .ok b ↔ ∃ a, x = .ok a ∧ f a = b := by
  cases x <;> simp [Except.map]

@[simp] theorem mapError_ok_iff {x : Except ε α} {f : ε → ε'} {a : α} :
    x.mapError f = .ok a ↔ x = .ok a := by
  cases x with
  | ok b => exact ⟨fun h => congrArg _ (Except.ok.inj h), fun h => congrArg _ (Except.ok.inj h)⟩
  | error e => exact ⟨nofun, nofun⟩

theorem toOption_eq_some_iff {x : Except ε α} {a : α} : x.toOption = some a ↔ x = .ok a := by
  cases x <;> simp [Except.toOption]

theorem forM_ok_iff {check : α → Except ε Unit} {xs : List α} :
    xs.forM check = .ok () ↔ ∀ x ∈ xs, check x = .ok () := by
  induction xs with
  | nil => simp [List.forM]
  | cons x xs ih =>
    simp only [List.forM, bind_ok_iff, ih, List.forall_mem_cons]
    exact ⟨fun ⟨_, checked⟩ => checked, fun checked => ⟨(), checked⟩⟩

theorem exists_mapM_iff {f : α → Except ε β} {xs : List α} :
    (∃ ys, xs.mapM f = .ok ys) ↔ ∀ x ∈ xs, ∃ y, f x = .ok y := by
  induction xs with
  | nil => simp [pure, Except.pure]
  | cons x xs ih =>
    simp only [List.mapM_cons, bind_ok_iff, pure_ok_iff, List.forall_mem_cons, ← ih]
    constructor
    · rintro ⟨_, y, first, ys, rest, _⟩
      exact ⟨⟨y, first⟩, ys, rest⟩
    · rintro ⟨⟨y, first⟩, ys, rest⟩
      exact ⟨y :: ys, y, first, ys, rest, rfl⟩

theorem mem_mapM_iff {f : α → Except ε β} {xs : List α} {ys : List β} (h : xs.mapM f = .ok ys)
    {y : β} : y ∈ ys ↔ ∃ x ∈ xs, f x = .ok y := by
  induction xs generalizing ys with
  | nil =>
    obtain rfl := pure_ok_iff.mp h
    simp
  | cons x xs ih =>
    simp only [List.mapM_cons, bind_ok_iff, pure_ok_iff] at h
    obtain ⟨first, converted, rest, later, rfl⟩ := h
    simp only [List.mem_cons, ih later, exists_eq_or_imp, converted, Except.ok.injEq]
    exact or_congr_left eq_comm

/-- What a conversion keeps of each element it keeps of a list. -/
theorem map_of_mapM {f : α → Except ε β} {g : α → γ} {g' : β → γ}
    (same : ∀ x y, f x = .ok y → g' y = g x) {xs : List α} {ys : List β}
    (h : xs.mapM f = .ok ys) : ys.map g' = xs.map g := by
  induction xs generalizing ys with
  | nil =>
    obtain rfl := pure_ok_iff.mp h
    rfl
  | cons x xs ih =>
    simp only [List.mapM_cons, bind_ok_iff, pure_ok_iff] at h
    obtain ⟨first, converted, rest, later, rfl⟩ := h
    rw [List.map_cons, List.map_cons, same x first converted, ih later]

theorem foldlM_invariant {P : σ → Prop} {step : σ → α → Except ε σ} {as : List α} {s s' : σ}
    (each : ∀ {s a s'}, a ∈ as → P s → step s a = .ok s' → P s') (start : P s)
    (h : as.foldlM step s = .ok s') : P s' := by
  induction as generalizing s with
  | nil =>
    obtain rfl := pure_ok_iff.mp h
    exact start
  | cons a as ih =>
    rw [List.foldlM_cons] at h
    obtain ⟨s'', first, later⟩ := bind_ok_iff.mp h
    refine ih (fun member => each (List.mem_cons_of_mem _ member)) ?_ later
    exact each List.mem_cons_self start first

/-! ### Failures -/

/-- The error of a failed computation. -/
def failureOf? : Except ε α → Option ε
  | .ok _ => none
  | .error e => some e

theorem failureOf?_eq_none {x : Except ε α} : failureOf? x = none ↔ ∃ a, x = .ok a := by
  cases x <;> simp [failureOf?]

theorem failureOf?_eq_some {x : Except ε α} {e : ε} : failureOf? x = some e ↔ x = .error e := by
  cases x <;> simp [failureOf?]

@[simp] theorem failureOf?_map (x : Except ε α) (f : α → β) :
    failureOf? (x.map f) = failureOf? x := by
  cases x <;> rfl

/-- Of two computations in a row the first failure counts. -/
theorem failureOf?_bind_map (x : Except ε α) (y : Except ε β) (f : α → β → γ) :
    failureOf? (x.bind fun a => y.map (f a)) = (failureOf? x).or (failureOf? y) := by
  cases x with
  | ok a => exact failureOf?_map y (f a)
  | error e => rfl

/-! ### Recorded results -/

theorem recorded_forM_ok_iff {check : α → Recorded ε Unit} {xs : List α} :
    (xs.forM check).result = .ok () ↔ ∀ x ∈ xs, (check x).result = .ok () := by
  induction xs with
  | nil => simp [List.forM]
  | cons x xs ih =>
    simp only [List.forM, Recorded.result_bind, except_bind_ok_iff, ih, List.forall_mem_cons]
    exact ⟨fun ⟨_, checked⟩ => checked, fun checked => ⟨(), checked⟩⟩

end ScimQuery
