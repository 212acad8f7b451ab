import Mathlib.Data.List.Forall2

/-!
# Computations that agree

Two computations agree if both fail or both succeed with related results. Which of several errors
comes first does not count, so a fold agrees with itself in any order of the list if any two of its
steps may change places (`Agree.foldlM_perm`).
-/

namespace ScimQuery

/-- Both succeed, with related results, or both fail. -/
inductive Agree (R : α → β → Prop) : Except ε α → Except ε β → Prop where
  | ok {a b} (related : R a b) : Agree R (.ok a) (.ok b)
  | error {e e'} : Agree R (.error e) (.error e')

namespace Agree

variable {α β γ δ ε σ τ : Type} {R : α → β → Prop} {S : σ → τ → Prop}

theorem rfl {x : Except ε α} : Agree Eq x x := by
  cases x with
  | ok a => exact .ok (.refl a)
  | error e => exact .error

theorem trans {x : Except ε α} {y : Except ε β} {z : Except ε γ} {T : β → γ → Prop}
    {U : α → γ → Prop} (compose : ∀ a b c, R a b → T b c → U a c) (first : Agree R x y)
    (second : Agree T y z) : Agree U x z := by
  cases first with
  | ok related =>
    cases second with
    | ok related' => exact .ok (compose _ _ _ related related')
  | error =>
    cases second with
    | error => exact .error

theorem mono {T : α → β → Prop} {x : Except ε α} {y : Except ε β} (h : Agree R x y)
    (weaker : ∀ a b, R a b → T a b) : Agree T x y := by
  cases h with
  | ok related => exact .ok (weaker _ _ related)
  | error => exact .error

theorem eq_iff {x y : Except ε α} : Agree Eq x y ↔ ∀ a, x = .ok a ↔ y = .ok a := by
  constructor
  · rintro (same | _) a
    · rw [same]
    · exact ⟨nofun, nofun⟩
  · intro same
    cases x with
    | ok a => exact (same a).mp (.refl _) ▸ rfl
    | error e =>
      cases y with
      | ok b => cases (same b).mpr (.refl _)
      | error => exact .error

theorem eq_trans {x y z : Except ε α} (first : Agree Eq x y) (second : Agree Eq y z) :
    Agree Eq x z :=
  eq_iff.mpr fun a => (eq_iff.mp first a).trans (eq_iff.mp second a)

theorem bind {x : Except ε α} {y : Except ε β} {f : α → Except ε σ} {g : β → Except ε τ}
    (h : Agree R x y) (each : ∀ a b, R a b → Agree S (f a) (g b)) :
    Agree S (x >>= f) (y >>= g) := by
  cases h with
  | ok related => exact each _ _ related
  | error => exact .error

theorem map {x : Except ε α} {y : Except ε β} {f : α → σ} {g : β → τ} (h : Agree R x y)
    (each : ∀ a b, R a b → S (f a) (g b)) : Agree S (x.map f) (y.map g) := by
  cases h with
  | ok related => exact .ok (each _ _ related)
  | error => exact .error

/-! ### Lists -/

variable {Q : γ → δ → Prop} {cs : List γ} {ds : List δ}

theorem mapM {f : γ → Except ε σ} {g : δ → Except ε τ} (each : ∀ c d, Q c d → Agree S (f c) (g d))
    (alike : List.Forall₂ Q cs ds) : Agree (List.Forall₂ S) (cs.mapM f) (ds.mapM g) := by
  induction alike with
  | nil => exact .ok .nil
  | @cons c d cs ds related _ ih =>
    rw [List.mapM_cons, List.mapM_cons]
    refine (each c d related).bind fun s t first => ih.bind fun ss ts rest => ?_
    exact .ok (.cons first rest)

theorem mapM_perm {f : γ → Except ε σ} {cs ds : List γ} (perm : cs.Perm ds) :
    Agree List.Perm (cs.mapM f) (ds.mapM f) := by
  induction perm with
  | nil => exact .ok .nil
  | cons c _ ih =>
    rw [List.mapM_cons, List.mapM_cons]
    refine rfl.bind fun s t same => ih.bind fun ss ts perm => ?_
    exact .ok (same ▸ perm.cons s)
  | swap c d cs =>
    simp only [List.mapM_cons]
    cases f c with
    | error => cases f d <;> exact .error
    | ok s =>
      cases f d with
      | error => exact .error
      | ok t =>
        cases cs.mapM f with
        | error => exact .error
        | ok ss => exact .ok (.swap s t ss)
  | trans _ _ ih ih' =>
    have compose : ∀ ss ts us : List σ, ss.Perm ts → ts.Perm us → ss.Perm us :=
      fun _ _ _ => List.Perm.trans
    exact ih.trans compose ih'

theorem foldlM {f : σ → γ → Except ε σ} {g : τ → δ → Except ε τ}
    (each : ∀ c d, Q c d → ∀ s t, S s t → Agree S (f s c) (g t d)) (alike : List.Forall₂ Q cs ds)
    {s : σ} {t : τ} (start : S s t) : Agree S (cs.foldlM f s) (ds.foldlM g t) := by
  induction alike generalizing s t with
  | nil => exact .ok start
  | @cons c d cs ds related _ ih =>
    rw [List.foldlM_cons, List.foldlM_cons]
    exact (each c d related s t start).bind fun s' t' => ih

/-- The order of the list does not count if it does not for any two steps. -/
theorem foldlM_perm {S : σ → σ → Prop} {step : σ → γ → Except ε σ} (equiv : Equivalence S)
    (congr : ∀ c s t, S s t → Agree S (step s c) (step t c))
    (swap : ∀ s c d, Agree S (step s c >>= (step · d)) (step s d >>= (step · c)))
    {cs ds : List γ} (perm : cs.Perm ds) {s t : σ} (start : S s t) :
    Agree S (cs.foldlM step s) (ds.foldlM step t) := by
  have compose : ∀ s t u, S s t → S t u → S s u := fun _ _ _ => equiv.trans
  induction perm generalizing s t with
  | nil => exact .ok start
  | cons c _ ih =>
    rw [List.foldlM_cons, List.foldlM_cons]
    exact (congr c s t start).bind fun s' t' => ih
  | swap c d cs =>
    simp only [List.foldlM_cons, ← bind_assoc]
    have swapped : Agree S (step s d >>= (step · c)) (step t c >>= (step · d)) :=
      ((congr d s t start).bind (congr c)).trans compose (swap t d c)
    have alike : List.Forall₂ Eq cs cs := List.forall₂_same.mpr fun c _ => Eq.refl c
    have each : ∀ c d, c = d → ∀ s t, S s t → Agree S (step s c) (step t d) := by
      rintro c _ rfl
      exact congr c
    exact swapped.bind fun s' t' => foldlM each alike
  | trans _ _ ih ih' => exact (ih start).trans compose (ih' (equiv.refl t))

end Agree

end ScimQuery
