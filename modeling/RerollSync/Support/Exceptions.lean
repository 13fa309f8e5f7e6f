/-!
# Exceptions of a kind

A computation that raises exceptions of one kind only, or none: what a caller with a clause
for that kind relies on.
-/

namespace RerollSync.Support

universe u v

variable {ε ε' : Type u} {α β : Type v} {P : ε → Prop}

/-- Every exception of `x` is a `P`. -/
def OnlyRaises (P : ε → Prop) (x : Except ε α) : Prop := ∀ e, x = .error e → P e

@[simp] theorem onlyRaises_ok {a : α} : OnlyRaises P (.ok a : Except ε α) := nofun

@[simp] theorem onlyRaises_error {e : ε} : OnlyRaises P (.error e : Except ε α) ↔ P e := by
  constructor
  · intro h
    exact h e rfl
  · rintro h e' ⟨⟩
    exact h

theorem onlyRaises_bind {x : Except ε α} {f : α → Except ε β} :
    OnlyRaises P (x >>= f) ↔ OnlyRaises P x ∧ ∀ a, x = .ok a → OnlyRaises P (f a) := by
  cases x with
  | error e => simp [bind, Except.bind]
  | ok a => simp [bind, Except.bind]

/-- A sequence of two computations returns when both do. -/
theorem bind_eq_ok_iff {x : Except ε α} {f : α → Except ε β} {b : β} :
    (x >>= f) = .ok b ↔ ∃ a, x = .ok a ∧ f a = .ok b := by
  cases x <;> simp [bind, Except.bind]

/-- A clause that turns the exceptions of one kind into those of another. -/
theorem onlyRaises_mapError {R : ε' → Prop} {f : ε → ε'} {x : Except ε α} :
    OnlyRaises R (x.mapError f) ↔ OnlyRaises (fun e => R (f e)) x := by
  cases x with
  | error e =>
      have hmap : (Except.error e : Except ε α).mapError f = .error (f e) := rfl
      rw [hmap, onlyRaises_error, onlyRaises_error]
  | ok a => exact iff_of_true onlyRaises_ok onlyRaises_ok

/-- With no exception of any kind, it returns. -/
theorem exists_eq_ok_iff {x : Except ε α} :
    (∃ a, x = .ok a) ↔ OnlyRaises (fun _ => False) x := by
  cases x with
  | error e => simp
  | ok a => simp

end RerollSync.Support
