/-
  ScreenInspector/Proofs/Outcomes.lean
  ====================================
  **Steps that may fail**: how a sequence of them is taken apart.

  Readers, parsers and evaluations are sequences of steps each of which gives a value or a fault.
  A sequence gives a value only if every step does, and it fails with the first step that fails.
-/

namespace ScreenInspector

variable {ε α β : Type}

@[simp] theorem ok_bind (a : α) (f : α → Except ε β) : (Except.ok a >>= f) = f a := rfl

@[simp] theorem error_bind (e : ε) (f : α → Except ε β) : (Except.error e >>= f) = .error e := rfl

@[simp] theorem pure_eq_ok (a : α) : (pure a : Except ε α) = .ok a := rfl

@[simp] theorem map_ok (f : α → β) (a : α) : (Except.ok a : Except ε α).map f = .ok (f a) := rfl

@[simp] theorem map_error (f : α → β) (e : ε) : (Except.error e : Except ε α).map f = .error e := rfl

/-- Two steps give a value iff the first gives one from which the second gives that value. -/
theorem bind_eq_ok_iff {x : Except ε α} {f : α → Except ε β} {b : β} :
    (x >>= f) = .ok b ↔ ∃ a, x = .ok a ∧ f a = .ok b := by
  cases x with
  | error e => simp
  | ok a => simp

/-- Something has no value. -/
def Fails (x : Except ε α) : Prop :=
  ∃ fault, x = .error fault

@[simp] theorem fails_error (e : ε) : Fails (Except.error e : Except ε α) :=
  ⟨e, rfl⟩

@[simp] theorem not_fails_ok (a : α) : ¬ Fails (Except.ok a : Except ε α) := by
  rintro ⟨fault, h⟩
  cases h

theorem fails_or_ok (x : Except ε α) : Fails x ∨ ∃ a, x = .ok a := by
  cases x with
  | error e => exact Or.inl ⟨e, rfl⟩
  | ok a => exact Or.inr ⟨a, rfl⟩

/-- Two steps fail iff the first does, or gives a value from which the second fails. -/
theorem fails_bind_iff {x : Except ε α} {f : α → Except ε β} :
    Fails (x >>= f) ↔ Fails x ∨ ∃ a, x = .ok a ∧ Fails (f a) := by
  cases x with
  | error e => simp
  | ok a => simp

/-- What follows a first step may be looked at alone if it does not depend on the value. -/
theorem fails_or_ok_and_iff {x : Except ε α} {p : Prop} :
    (Fails x ∨ ∃ a, x = .ok a ∧ p) ↔ Fails x ∨ p := by
  cases x with
  | error e => simp
  | ok a => simp

/-- **Steps one after the other fail iff one of them does**, whatever is made of their values on the
way. -/
theorem fails_each_iff {ι γ : Type} (run : List ι → γ → Except ε β) (step : ι → Except ε α)
    (hnil : ∀ s, ¬ Fails (run [] s))
    (hcons : ∀ i rest s, ∃ next : α → γ, Fails (run (i :: rest) s) ↔
      Fails (step i) ∨ ∃ a, step i = .ok a ∧ Fails (run rest (next a)))
    (items : List ι) (s : γ) : Fails (run items s) ↔ ∃ i ∈ items, Fails (step i) := by
  induction items generalizing s with
  | nil => simp [hnil]
  | cons i rest ih =>
    obtain ⟨next, hnext⟩ := hcons i rest s
    rw [hnext]
    simp only [ih, List.mem_cons, exists_eq_or_imp]
    exact fails_or_ok_and_iff

theorem map_eq_ok_iff {x : Except ε α} {f : α → β} {b : β} :
    x.map f = .ok b ↔ ∃ a, x = .ok a ∧ f a = b := by
  cases x with
  | error e => simp
  | ok a => simp

theorem any_toOption_iff {x : Except ε α} {p : α → Bool} :
    x.toOption.any p = true ↔ ∃ a, x = .ok a ∧ p a = true := by
  cases x with
  | error e => simp [Except.toOption]
  | ok a => simp [Except.toOption]

end ScreenInspector
