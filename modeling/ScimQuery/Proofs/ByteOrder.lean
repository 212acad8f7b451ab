import Mathlib.Data.String.Basic

/-!
# The order of bytes

Strings are ordered character by character. UTF-8 keeps this order: a string comes before another
one if and only if its bytes do (`Text.before_iff`).
-/

namespace ScimQuery.Text

/-- The bytes of a string in UTF-8. -/
def bytes (s : String) : List UInt8 := s.toUTF8.data.toList

/-- The bytes of one string come before those of another one, as words do in a dictionary. -/
def Before (s t : String) : Prop := List.Lex (· < ·) (bytes s) (bytes t)

theorem bytes_eq_flatMap (s : String) : bytes s = s.toList.flatMap String.utf8EncodeChar := by
  have encoded : s.toUTF8 = (s.toList.flatMap String.utf8EncodeChar).toByteArray :=
    String.utf8Encode_toList.symm
  rw [bytes, encoded, List.toList_data_toByteArray]

theorem encode_ne_nil (c : Char) : String.utf8EncodeChar c ≠ [] := by
  unfold String.utf8EncodeChar
  simp only
  split_ifs <;> exact List.cons_ne_nil _ _

theorem lex_cons {m n : Nat} {xs ys : List UInt8} (hm : m < 256) (hn : n < 256)
    (h : m < n ∨ m = n ∧ List.Lex (· < ·) xs ys) :
    List.Lex (· < ·) (UInt8.ofNat m :: xs) (UInt8.ofNat n :: ys) := by
  rcases h with below | ⟨rfl, rest⟩
  · exact .rel ((UInt8.ofNat_lt_iff_lt hm hn).mpr below)
  · exact .cons rest

/-! The continuation bytes hold the digits of a code point to the base 64. -/

section Continuation

variable {v w : Nat} {xs ys : List UInt8}

theorem lex_last (below : v < w) (same : v / 64 = w / 64) :
    List.Lex (· < ·) (UInt8.ofNat (v % 64 + 128) :: xs) (UInt8.ofNat (w % 64 + 128) :: ys) := by
  apply lex_cons (by omega) (by omega)
  exact .inl (by omega)

theorem lex_lastTwo (below : v < w) (same : v / 4096 = w / 4096) :
    List.Lex (· < ·) (UInt8.ofNat (v / 64 % 64 + 128) :: UInt8.ofNat (v % 64 + 128) :: xs)
      (UInt8.ofNat (w / 64 % 64 + 128) :: UInt8.ofNat (w % 64 + 128) :: ys) := by
  apply lex_cons (by omega) (by omega)
  rcases Nat.lt_or_ge (v / 64) (w / 64) with earlier | later
  · exact .inl (by omega)
  · exact .inr ⟨by omega, lex_last below (by omega)⟩

theorem lex_lastThree (below : v < w) (same : v / 262144 = w / 262144) :
    List.Lex (· < ·)
      (UInt8.ofNat (v / 4096 % 64 + 128) :: UInt8.ofNat (v / 64 % 64 + 128) ::
        UInt8.ofNat (v % 64 + 128) :: xs)
      (UInt8.ofNat (w / 4096 % 64 + 128) :: UInt8.ofNat (w / 64 % 64 + 128) ::
        UInt8.ofNat (w % 64 + 128) :: ys) := by
  apply lex_cons (by omega) (by omega)
  rcases Nat.lt_or_ge (v / 4096) (w / 4096) with earlier | later
  · exact .inl (by omega)
  · exact .inr ⟨by omega, lex_lastTwo below (by omega)⟩

end Continuation

theorem lex_encode_append {c d : Char} (h : c < d) (xs ys : List UInt8) :
    List.Lex (· < ·) (String.utf8EncodeChar c ++ xs) (String.utf8EncodeChar d ++ ys) := by
  have below : c.val.toNat < d.val.toNat := h
  have bound : d.val.toNat < 0x110000 := by
    have valid := d.valid
    simp only [UInt32.isValidChar, Nat.isValidChar] at valid
    omega
  unfold String.utf8EncodeChar
  generalize c.val.toNat = v at below ⊢
  generalize d.val.toNat = w at below bound ⊢
  simp only
  split_ifs
  -- The first character has no longer encoding, and a shorter one starts with a lower byte. For two
  -- encodings of one length the first place that differs decides.
  any_goals (exfalso; omega)
  any_goals (apply lex_cons (by omega) (by omega); left; omega)
  · apply lex_cons (by omega) (by omega)
    rcases Nat.lt_or_ge (v / 64) (w / 64) with earlier | later
    · exact .inl (by omega)
    · exact .inr ⟨by omega, lex_last below (by omega)⟩
  · apply lex_cons (by omega) (by omega)
    rcases Nat.lt_or_ge (v / 4096) (w / 4096) with earlier | later
    · exact .inl (by omega)
    · exact .inr ⟨by omega, lex_lastTwo below (by omega)⟩
  · apply lex_cons (by omega) (by omega)
    rcases Nat.lt_or_ge (v / 262144) (w / 262144) with earlier | later
    · exact .inl (by omega)
    · exact .inr ⟨by omega, lex_lastThree below (by omega)⟩

theorem before_of_lt {s t : List Char} (h : List.Lex (· < ·) s t) :
    List.Lex (· < ·) (s.flatMap String.utf8EncodeChar) (t.flatMap String.utf8EncodeChar) := by
  induction h with
  | @nil d t =>
    rw [List.flatMap_nil, List.flatMap_cons]
    obtain ⟨b, bs, encoded⟩ := List.exists_cons_of_ne_nil (encode_ne_nil d)
    rw [encoded]
    exact .nil
  | @cons c s t _ ih =>
    rw [List.flatMap_cons, List.flatMap_cons]
    exact ih.append_left _ (String.utf8EncodeChar c)
  | @rel c s d t below =>
    rw [List.flatMap_cons, List.flatMap_cons]
    exact lex_encode_append below _ _

/-- The order of strings is the order of their bytes. -/
theorem before_iff {s t : String} : Before s t ↔ s < t := by
  have before {s t : String} (below : s < t) : Before s t := by
    rw [Before, bytes_eq_flatMap, bytes_eq_flatMap]
    exact before_of_lt (List.lex_lt.mpr (String.lt_iff_toList_lt.mp below))
  have irreflexive : ∀ {x y : List UInt8}, List.Lex (· < ·) x y → ¬List.Lex (· < ·) y x :=
    List.lex_asymm UInt8.lt_asymm
  constructor
  · intro bytes
    rcases lt_trichotomy s t with below | same | above
    · exact below
    · subst t
      exact (irreflexive bytes bytes).elim
    · exact (irreflexive bytes (before above)).elim
  · exact before

end ScimQuery.Text
