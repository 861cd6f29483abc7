/-! # Steps that may fail

How a sequence of steps goes on after one that succeeds, and what succeeded before a sequence that
does; the same for steps that keep a state as well. -/

namespace Posting

variable {ε α β : Type}

@[simp] theorem ok_bind (a : α) (next : α → Except ε β) : (Except.ok a >>= next) = next a :=
  rfl

@[simp] theorem ok_map (a : α) (f : α → β) :
    Except.map f (Except.ok a : Except ε α) = Except.ok (f a) :=
  rfl

theorem bind_eq_ok_iff {x : Except ε α} {next : α → Except ε β} {b : β} :
    (x >>= next) = .ok b ↔ ∃ a, x = .ok a ∧ next a = .ok b := by
  cases x with
  | error e => exact ⟨nofun, nofun⟩
  | ok a =>
      refine ⟨fun h => ⟨a, rfl, h⟩, ?_⟩
      rintro ⟨_, ⟨⟩, h⟩
      exact h

theorem map_eq_ok_iff {x : Except ε α} {f : α → β} {b : β} :
    x.map f = .ok b ↔ ∃ a, x = .ok a ∧ f a = b := by
  cases x with
  | error e => exact ⟨nofun, nofun⟩
  | ok a => simp

theorem mapError_eq_ok_iff {ε' : Type} {x : Except ε α} {f : ε → ε'} {a : α} :
    x.mapError f = .ok a ↔ x = .ok a := by
  cases x with
  | error e => exact ⟨nofun, nofun⟩
  | ok b =>
      constructor
      · rintro ⟨⟩
        rfl
      · rintro ⟨⟩
        rfl

theorem exists_error_of_ne_ok {x : Except ε α} (h : ∀ a, x ≠ .ok a) : ∃ e, x = .error e := by
  cases x with
  | error e => exact ⟨e, rfl⟩
  | ok a => exact absurd rfl (h a)

/-! ### Steps with a state -/

variable {σ : Type}

theorem run_bind_eq (x : StateM σ α) (next : α → StateM σ β) (s : σ) :
    (x >>= next).run s = (next (x.run s).1).run (x.run s).2 :=
  rfl

theorem run_lift_bind_eq (x : StateM σ α) (next : α → ExceptT ε (StateM σ) β) (s : σ) :
    ((x : ExceptT ε (StateM σ) α) >>= next).run.run s =
      (next (x.run s).1).run.run (x.run s).2 :=
  rfl

/-- A step that succeeds is followed by the next one, and one that fails by nothing. -/
theorem run_bind_cases {x : ExceptT ε (StateM σ) α} {next : α → ExceptT ε (StateM σ) β} {s t : σ}
    {result : Except ε β} (h : (x >>= next).run.run s = (result, t)) :
    (∃ a between, x.run.run s = (.ok a, between) ∧ (next a).run.run between = (result, t)) ∨
      ∃ error, x.run.run s = (.error error, t) ∧ result = .error error := by
  rw [ExceptT.run_bind, run_bind_eq] at h
  rcases hx : x.run.run s with ⟨_ | _, between⟩
  · rw [hx] at h
    cases h
    exact Or.inr ⟨_, rfl, rfl⟩
  · rw [hx] at h
    exact Or.inl ⟨_, _, rfl, h⟩

end Posting
