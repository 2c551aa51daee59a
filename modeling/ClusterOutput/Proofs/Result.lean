/-
Results, which are values or errors.
-/

namespace ClusterOutput

/-- Two results are the same error, or values that are alike. -/
inductive Agree {ε α : Type} (alike : α → α → Prop) : Except ε α → Except ε α → Prop
  | ok {a b : α} (h : alike a b) : Agree alike (.ok a) (.ok b)
  | error (e : ε) : Agree alike (.error e) (.error e)

variable {ε α β : Type} {r : Except ε α}

/-- A result that was evaluated. -/
theorem ok_of_toOption {a : α} (h : r.toOption = some a) : r = .ok a := by
  cases r with
  | error => cases h
  | ok => exact congrArg Except.ok (Option.some.inj h)

/-- Two steps succeed if both do. -/
theorem bind_eq_ok {f : α → Except ε β} {b : β} :
    (r >>= f) = .ok b ↔ ∃ a, r = .ok a ∧ f a = .ok b := by
  cases r with
  | error e => simp [bind, Except.bind]
  | ok a => simp [bind, Except.bind]

theorem map_eq_ok {f : α → β} {b : β} : r.map f = .ok b ↔ ∃ a, r = .ok a ∧ f a = b := by
  cases r with
  | error e => simp [Except.map]
  | ok a => simp [Except.map]

theorem mapError_eq_ok {ε' : Type} {f : ε → ε'} {a : α} : r.mapError f = .ok a ↔ r = .ok a := by
  cases r with
  | error e => exact ⟨nofun, nofun⟩
  | ok a' => constructor <;> (intro h; cases h; rfl)

theorem Agree.refl {alike : α → α → Prop} (h : ∀ a, alike a a) (r : Except ε α) :
    Agree alike r r := by
  cases r with
  | error e => exact .error e
  | ok a => exact .ok (h a)

/-- Results that agree, taken apart. -/
theorem Agree.pair {alike : α → α → Prop} {r r' : Except ε α} (h : Agree alike r r') :
    (∃ e, r = .error e ∧ r' = .error e) ∨ ∃ a b, r = .ok a ∧ r' = .ok b ∧ alike a b := by
  cases h with
  | error e => exact .inl ⟨e, rfl, rfl⟩
  | ok h => exact .inr ⟨_, _, rfl, rfl, h⟩

/-- Two steps agree if both do. -/
theorem Agree.bind {alike : α → α → Prop} {alike' : β → β → Prop} {r r' : Except ε α}
    {f f' : α → Except ε β} (h : Agree alike r r')
    (hnext : ∀ a a', alike a a' → Agree alike' (f a) (f' a')) :
    Agree alike' (r >>= f) (r' >>= f') := by
  cases h with
  | error e => exact .error e
  | ok h => exact hnext _ _ h

end ClusterOutput
