/-
Which texts are read as whole numbers, and for which: digits, one at least, behind an
optional plus sign (`readNumber_eq_ok`).
-/
import ClusterOutput.Text.Decimal

namespace ClusterOutput.Text

variable {limit acc n : Nat} {cs : List Char}

/-- A decimal digit. -/
def IsDigit (c : Char) : Prop := '0' ≤ c ∧ c ≤ '9'

instance (c : Char) : Decidable (IsDigit c) := inferInstanceAs (Decidable ('0' ≤ c ∧ c ≤ '9'))

/-- The number that digits denote, most significant first, behind those of `acc`. -/
def denoted (acc : Nat) (cs : List Char) : Nat :=
  cs.foldl (fun n c => n * 10 + (c.toNat - '0'.toNat)) acc

/-- Digits, one at least, behind an optional plus sign. -/
inductive IsDecimal : List Char → Nat → Prop
  | unsigned {cs : List Char} (hne : cs ≠ []) (hdigits : ∀ c ∈ cs, IsDigit c) :
    IsDecimal cs (denoted 0 cs)
  | signed {cs : List Char} (hne : cs ≠ []) (hdigits : ∀ c ∈ cs, IsDigit c) :
    IsDecimal ('+' :: cs) (denoted 0 cs)

theorem le_denoted (acc : Nat) (cs : List Char) : acc ≤ denoted acc cs := by
  induction cs generalizing acc with
  | nil => exact Nat.le_refl acc
  | cons c cs ih =>
    have hmore := ih (acc * 10 + (c.toNat - '0'.toNat))
    exact Nat.le_trans (by omega) hmore

/-- Digits are read as the number that they denote, if it is below the bound. -/
theorem readDigits_eq_ok (hacc : acc < limit) :
    readDigits limit acc cs = .ok n ↔ (∀ c ∈ cs, IsDigit c) ∧ denoted acc cs = n ∧ n < limit := by
  induction cs generalizing acc with
  | nil =>
    constructor
    · intro h
      cases h
      exact ⟨List.forall_mem_nil _, rfl, hacc⟩
    · rintro ⟨-, rfl, -⟩
      rfl
  | cons c cs ih =>
    rw [readDigits, List.forall_mem_cons]
    by_cases hc : IsDigit c
    · have hdigit : digit? c = some (c.toNat - '0'.toNat) := if_pos hc
      rw [hdigit]
      have hdenoted : denoted acc (c :: cs) = denoted (acc * 10 + (c.toNat - '0'.toNat)) cs := rfl
      by_cases hlt : acc * 10 + (c.toNat - '0'.toNat) < limit
      · simp only [if_pos hlt, ih hlt, hc, true_and, hdenoted]
      · simp only [if_neg hlt, hdenoted]
        constructor
        · intro h
          cases h
        · rintro ⟨-, rfl, hn⟩
          -- further digits make no number smaller
          exact absurd (Nat.lt_of_le_of_lt (le_denoted _ cs) hn) hlt
    · have hdigit : digit? c = none := if_neg hc
      rw [hdigit]
      exact ⟨nofun, fun h => absurd h.1.1 hc⟩

/-- **A text is a whole number below the bound if and only if it is decimal.** -/
theorem readNumber_eq_ok (hlimit : 0 < limit) :
    readNumber limit cs = .ok n ↔ IsDecimal cs n ∧ n < limit := by
  have hplus : ¬IsDigit '+' := by decide
  have hminus : ¬IsDigit '-' := by decide
  unfold readNumber
  split
  · refine ⟨nofun, fun h => ?_⟩
    cases h.1 with
    | unsigned hne => exact absurd rfl hne
  · refine ⟨nofun, fun h => ?_⟩
    cases h.1 with
    | unsigned _ hdigits => exact absurd (hdigits '+' List.mem_cons_self) hplus
    | signed hne => exact absurd rfl hne
  · refine ⟨nofun, fun h => ?_⟩
    cases h.1 with
    | unsigned _ hdigits => exact absurd (hdigits '-' List.mem_cons_self) hminus
  next cs hne =>
    rw [readDigits_eq_ok hlimit]
    constructor
    · rintro ⟨hdigits, rfl, hn⟩
      exact ⟨.signed hne hdigits, hn⟩
    · rintro ⟨h, hn⟩
      cases h with
      | unsigned _ hdigits => exact absurd (hdigits '+' List.mem_cons_self) hplus
      | signed _ hdigits => exact ⟨hdigits, rfl, hn⟩
  next hnil _ _ hsigned =>
    rw [readDigits_eq_ok hlimit]
    constructor
    · rintro ⟨hdigits, rfl, hn⟩
      exact ⟨.unsigned hnil hdigits, hn⟩
    · rintro ⟨h, hn⟩
      cases h with
      | unsigned _ hdigits => exact ⟨hdigits, rfl, hn⟩
      | signed => exact (hsigned _ rfl).elim

theorem readWord_eq_ok {s : String} :
    readWord s = .ok n ↔ IsDecimal s.toList n ∧ n < wordLimit :=
  readNumber_eq_ok (by decide)

end ClusterOutput.Text
