import ScimQuery.Page
import ScimQuery.Proofs.Scanning

/-!
# The rows of pages

As long as its offset fits into 64 bits, a page shows the rows whose quotient by the count is its
start index. So pages of one count do not overlap and leave no row out, and a limit clause says
which page it was written for (`pages_tile`).
-/

namespace ScimQuery

theorem Decimal.natural?_toDigits (n : Nat) : natural? (Nat.toDigits 10 n) = some n := by
  have digits : (Nat.toDigits 10 n).all Char.isDigit = true :=
    List.all_eq_true.mpr Json.isDigit_of_mem_toDigits
  have filled : (Nat.toDigits 10 n).isEmpty = false := by
    rw [List.isEmpty_eq_false_iff]
    exact Nat.toDigits_ne_nil
  rw [natural?, digits, filled, Json.ofDigits_toDigits]
  rfl

namespace Page

variable {p q : Page} {row : Nat}

/-- The rows of a page stand behind those that it skips, as many as it counts. -/
def Shows (p : Page) (row : Nat) : Prop :=
  p.offset.toNat ≤ row ∧ row < p.offset.toNat + p.count.toNat

/-- The pages in front of this one have no more rows than 64 bits can count. -/
def Fits (p : Page) : Prop := p.startIndex.toNat * p.count.toNat ≤ UInt64.size - 1

theorem Fits.offset (fits : p.Fits) : p.offset.toNat = p.startIndex.toNat * p.count.toNat := by
  rw [offset_toNat, Nat.min_eq_left fits]

theorem Fits.of_le (fits : q.Fits) (start : p.startIndex ≤ q.startIndex) (count : p.count ≤ q.count) :
    p.Fits :=
  Nat.le_trans (Nat.mul_le_mul start count) fits

/-- A row is shown by the page that its quotient by the count numbers. -/
theorem Fits.shows_iff (fits : p.Fits) :
    p.Shows row ↔ 0 < p.count.toNat ∧ row / p.count.toNat = p.startIndex.toNat := by
  rw [Shows, fits.offset]
  rcases Nat.eq_zero_or_pos p.count.toNat with empty | filled
  · rw [empty]
    omega
  · rw [Nat.div_eq_iff filled]
    omega

theorem offset_mono (start : p.startIndex ≤ q.startIndex) (count : p.count ≤ q.count) :
    p.offset ≤ q.offset := by
  have rows : p.startIndex.toNat * p.count.toNat ≤ q.startIndex.toNat * q.count.toNat :=
    Nat.mul_le_mul start count
  rw [UInt64.le_iff_toNat_le, offset_toNat, offset_toNat]
  omega

/-! ### Pages of one count -/

section Pages

variable {i j k c : UInt64}

theorem shows_apart (before : i < j) (fits : (mk j c).Fits) :
    ¬((mk i c).Shows row ∧ (mk j c).Shows row) := by
  rintro ⟨shown, shown'⟩
  have first : (mk i c).Fits := fits.of_le (UInt64.le_of_lt before) (UInt64.le_refl c)
  have same : i.toNat = j.toNat := (first.shows_iff.mp shown).2.symm.trans (fits.shows_iff.mp shown').2
  have less : i.toNat < j.toNat := before
  omega

theorem offset_next (next : j.toNat = i.toNat + 1) (fits : (mk j c).Fits) :
    (mk i c).offset.toNat + c.toNat = (mk j c).offset.toNat := by
  have before : i ≤ j := UInt64.le_iff_toNat_le.mpr (by omega)
  have first : (mk i c).Fits := fits.of_le before (UInt64.le_refl c)
  rw [first.offset, fits.offset, next, Nat.succ_mul]

theorem exists_shows_iff (fits : (mk k c).Fits) :
    (∃ i ≤ k, (mk i c).Shows row) ↔ row < (k.toNat + 1) * c.toNat := by
  have upTo : ∀ i ≤ k, (mk i c).Fits := fun i below => fits.of_le below (UInt64.le_refl c)
  constructor
  · rintro ⟨i, below, shown⟩
    obtain ⟨filled, number⟩ := (upTo i below).shows_iff.mp shown
    rw [← Nat.div_lt_iff_lt_mul filled, number]
    exact Nat.lt_succ_of_le below
  · intro inside
    have filled : 0 < c.toNat := Nat.pos_of_mul_pos_left (Nat.lt_of_le_of_lt (Nat.zero_le row) inside)
    have below : row / c.toNat ≤ k.toNat :=
      Nat.le_of_lt_succ ((Nat.div_lt_iff_lt_mul filled).mpr inside)
    have number : (UInt64.ofNat (row / c.toNat)).toNat = row / c.toNat :=
      UInt64.toNat_ofNat_of_lt' (Nat.lt_of_le_of_lt below k.toNat_lt)
    have least : UInt64.ofNat (row / c.toNat) ≤ k := by
      rw [UInt64.le_iff_toNat_le, number]
      exact below
    exact ⟨_, least, (upTo _ least).shows_iff.mpr ⟨filled, number.symm⟩⟩

end Pages

/-! ### Limit clauses -/

/-- The two numbers of a limit clause. -/
def limitNumbers? (clause : String) : Option (Nat × Nat) :=
  match clause.toList with
  | 'l' :: 'i' :: 'm' :: 'i' :: 't' :: ' ' :: numbers =>
    match numbers.dropWhile Char.isDigit with
    | ',' :: ' ' :: count => do
      return (← Decimal.natural? (numbers.takeWhile Char.isDigit), ← Decimal.natural? count)
    | _ => none
  | _ => none

theorem limitNumbers?_sql (p : Page) :
    limitNumbers? p.sql = some (p.offset.toNat, p.count.toNat) := by
  have clause : p.sql.toList = 'l' :: 'i' :: 'm' :: 'i' :: 't' :: ' ' ::
      (Nat.toDigits 10 p.offset.toNat ++ ',' :: ' ' :: Nat.toDigits 10 p.count.toNat) := by
    simp [sql, String.toList_append, Nat.toList_repr]
  have digits := Json.isDigit_of_mem_toDigits (n := p.offset.toNat)
  rw [limitNumbers?, clause]
  simp only [List.takeWhile_append_of_pos digits, List.dropWhile_append_of_pos digits]
  rw [List.takeWhile_cons_of_neg (by decide), List.dropWhile_cons_of_neg (by decide)]
  simp [Decimal.natural?_toDigits]

end Page

/-- The offset of a page is its start index times its count, or the largest number of 64 bits if
this is less; it grows with both. Pages of one count show no row twice, two pages in a row leave
none out, and the pages up to one of them show exactly the rows below its end, as long as its offset
is not cut. The two numbers of the limit clause are the offset and the count. -/
theorem pages_tile :
    (∀ i c : UInt64, (Page.mk i c).offset.toNat = min (i.toNat * c.toNat) (UInt64.size - 1)) ∧
    (∀ i j c d : UInt64, i ≤ j → c ≤ d → (Page.mk i c).offset ≤ (Page.mk j d).offset) ∧
    (∀ i j c : UInt64, i < j → j.toNat * c.toNat ≤ UInt64.size - 1 →
      (∀ row, ¬((Page.mk i c).Shows row ∧ (Page.mk j c).Shows row)) ∧
      (j.toNat = i.toNat + 1 →
        (Page.mk i c).offset.toNat + c.toNat = (Page.mk j c).offset.toNat)) ∧
    (∀ k c : UInt64, k.toNat * c.toNat ≤ UInt64.size - 1 →
      ∀ row, (∃ i ≤ k, (Page.mk i c).Shows row) ↔ row < (k.toNat + 1) * c.toNat) ∧
    ∀ p : Page, Page.limitNumbers? p.sql = some (p.offset.toNat, p.count.toNat) := by
  refine ⟨fun i c => Page.offset_toNat ⟨i, c⟩, ?_, ?_, ?_, Page.limitNumbers?_sql⟩
  · exact fun i j c d start count => Page.offset_mono start count
  · exact fun i j c before fits =>
      ⟨fun row => Page.shows_apart before fits, fun next => Page.offset_next next fits⟩
  · exact fun k c fits row => Page.exists_shows_iff fits

/-- Pages of ten rows: the second is shown behind the first, both together are the first twenty
rows, and a page far behind starts at the largest number. -/
theorem tenRows_tile :
    (∀ row, ¬((Page.mk 0 10).Shows row ∧ (Page.mk 1 10).Shows row)) ∧
    (Page.mk 0 10).offset.toNat + 10 = (Page.mk 1 10).offset.toNat ∧
    (Page.mk 2 7).offset ≤ (Page.mk 3 10).offset ∧
    (∀ row, (∃ i ≤ (1 : UInt64), (Page.mk i 10).Shows row) ↔ row < 20) ∧
    (Page.mk (.ofNat (UInt64.size - 1)) 2).offset.toNat = UInt64.size - 1 ∧
    Page.limitNumbers? (Page.mk 3 25).sql = some (75, 25) := by
  obtain ⟨cut, grows, apart, upTo, clause⟩ := pages_tile
  obtain ⟨none, next⟩ := apart 0 1 10 (by decide) (by decide)
  refine ⟨none, next (by decide), grows 2 3 7 10 (by decide) (by decide), upTo 1 10 (by decide), ?_, ?_⟩
  · rw [cut]
    decide
  · rw [clause]
    decide

end ScimQuery
