import Mathlib.Tactic.Basic
import Ventilation.Pricing.Error

/-!
What the success of a computation says about its parts.
-/

set_option autoImplicit false
set_option relaxedAutoImplicit false

namespace Ventilation

variable {ε α β : Type}

theorem ok_bind (a : α) (f : α → Except ε β) : Except.ok a >>= f = f a := rfl

theorem bind_eq_ok_iff {x : Except ε α} {f : α → Except ε β} {b : β} :
    x >>= f = .ok b ↔ ∃ a, x = .ok a ∧ f a = .ok b := by
  cases x with
  | error e =>
    constructor
    · intro h
      cases h
    · rintro ⟨a, ha, -⟩
      cases ha
  | ok a =>
    constructor
    · exact fun h ↦ ⟨a, rfl, h⟩
    · rintro ⟨a', ha, h⟩
      cases ha
      exact h

theorem bind_eq_error_iff {x : Except ε α} {f : α → Except ε β} {error : ε} :
    x >>= f = .error error ↔ x = .error error ∨ ∃ a, x = .ok a ∧ f a = .error error := by
  cases x with
  | error other =>
    constructor
    · exact fun h ↦ .inl (congrArg Except.error (Except.error.inj h))
    · rintro (h | ⟨a, ha, -⟩)
      · exact congrArg Except.error (Except.error.inj h)
      · cases ha
  | ok a =>
    constructor
    · exact fun h ↦ .inr ⟨a, rfl, h⟩
    · rintro (h | ⟨a', ha, h⟩)
      · cases h
      · cases ha
        exact h

/-- An error is kept by what follows a step in the same way. -/
theorem or_bind_eq_error {P : Prop} {x : Except ε α} {f g : α → Except ε β} {error : ε}
    (h : x >>= f = .error error) (hfg : ∀ a, f a = .error error → P ∨ g a = .error error) :
    P ∨ x >>= g = .error error := by
  rcases bind_eq_error_iff.1 h with hx | ⟨a, rfl, hf⟩
  · exact .inr (bind_eq_error_iff.2 (.inl hx))
  · exact hfg a hf

theorem eq_ok_of_toOption {x : Except ε α} {a : α} (h : x.toOption = some a) : x = .ok a := by
  cases x with
  | error e => cases h
  | ok b => exact congrArg Except.ok (Option.some.inj h)

theorem exists_error_of_toOption {x : Except ε α} (h : x.toOption = none) :
    ∃ error, x = .error error := by
  cases x with
  | error e => exact ⟨e, rfl⟩
  | ok a => cases h

theorem map_eq_ok_iff {x : Except ε α} {f : α → β} {b : β} :
    x.map f = .ok b ↔ ∃ a, x = .ok a ∧ f a = b := by
  cases x with
  | error e => simp [Except.map]
  | ok a => simp [Except.map]

theorem fromCatalog_eq_ok_iff {x : Except CatalogError α} {a : α} :
    fromCatalog x = .ok a ↔ x = .ok a := by
  cases x <;> simp [fromCatalog]

theorem fromCatalog_ok (a : α) : fromCatalog (.ok a) = .ok a := rfl

theorem fromMeasure_ok (a : α) : fromMeasure (.ok a) = .ok a := rfl

theorem fromMeasure_eq_ok_iff {x : Except MeasureError α} {a : α} :
    fromMeasure x = .ok a ↔ x = .ok a := by
  cases x <;> simp [fromMeasure]

end Ventilation
