import ScimQuery.Log.Event

/-!
# Recorded computations

A computation that may fail and keeps a record of events. The events before a failure stay in the
record, and none come after it.
-/

namespace ScimQuery

open Log (Event)

structure Recorded (ε α : Type) where
  events : List Event
  result : Except ε α

namespace Recorded

def log (e : Event) : Recorded ε Unit := ⟨[e], .ok ()⟩

def logAll (es : List Event) : Recorded ε Unit := ⟨es, .ok ()⟩

def silent (r : Except ε α) : Recorded ε α := ⟨[], r⟩

instance : Monad (Recorded ε) where
  pure a := ⟨[], .ok a⟩
  bind x f :=
    match x.result with
    | .ok a => ⟨x.events ++ (f a).events, (f a).result⟩
    | .error e => ⟨x.events, .error e⟩

instance : MonadExcept ε (Recorded ε) where
  throw e := ⟨[], .error e⟩
  tryCatch x handle :=
    match x.result with
    | .ok a => ⟨x.events, .ok a⟩
    | .error e => ⟨x.events ++ (handle e).events, (handle e).result⟩

def mapError (f : ε → ε') (x : Recorded ε α) : Recorded ε' α := ⟨x.events, x.result.mapError f⟩

@[simp] theorem result_pure (a : α) : (pure a : Recorded ε α).result = .ok a := rfl

@[simp] theorem events_pure (a : α) : (pure a : Recorded ε α).events = [] := rfl

@[simp] theorem result_bind (x : Recorded ε α) (f : α → Recorded ε β) :
    (x >>= f).result = x.result.bind fun a => (f a).result := by
  cases h : x.result <;> simp [bind, Except.bind, h]

@[simp] theorem result_silent (r : Except ε α) : (silent r : Recorded ε α).result = r := rfl

@[simp] theorem result_log (e : Event) : (log e : Recorded ε Unit).result = .ok () := rfl

@[simp] theorem result_logAll (es : List Event) : (logAll es : Recorded ε Unit).result = .ok () := rfl

@[simp] theorem result_throw (e : ε) : (throw e : Recorded ε α).result = .error e := rfl

@[simp] theorem result_mapError (f : ε → ε') (x : Recorded ε α) :
    (x.mapError f).result = x.result.mapError f := rfl

/-- What comes after a failure leaves no events. -/
theorem events_bind (x : Recorded ε α) (f : α → Recorded ε β) :
    (x >>= f).events = match x.result with
      | .ok a => x.events ++ (f a).events
      | .error _ => x.events := by
  cases h : x.result <;> simp [bind, h]

instance : LawfulMonad (Recorded ε) := LawfulMonad.mk' (Recorded ε)
  (fun x => by
    cases x with
    | mk events result => cases result <;> simp [Functor.map])
  (fun a f => by simp [pure, bind])
  (fun x f g => by
    cases x with
    | mk events result =>
      cases result with
      | error e => rfl
      | ok a => cases h : (f a).result <;> simp [bind, h])

@[simp] theorem result_map (f : α → β) (x : Recorded ε α) : (f <$> x).result = x.result.map f := by
  rw [map_eq_pure_bind, result_bind]
  cases x.result <;> rfl

end Recorded

end ScimQuery
