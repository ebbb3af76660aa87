/-!
# Results and failures of runs

A run gives a result or fails. What is said about *one* run is read off its
steps (`bind_eq_ok_iff`, `map_eq_ok_iff`). What is said about *two* runs,
under two policies or over two expressions, has one form: they fail alike,
or both give results, and the results are related. `Outcomes` is that
form, and it is put together step by step as the runs are
(`Outcomes.bind`).
-/

namespace DocFilter

/-! ## One run -/

/-- A mapped outcome is a result exactly when the outcome is. -/
theorem map_eq_ok_iff {ε α β : Type} {f : α → β} {x : Except ε α} {b : β} :
    x.map f = .ok b ↔ ∃ a, x = .ok a ∧ f a = b := by
  cases x with
  | error e =>
    refine ⟨fun h => ?_, fun ⟨_, h, _⟩ => ?_⟩
    · cases h
    · cases h
  | ok a =>
    refine ⟨fun h => ⟨a, rfl, Except.ok.inj h⟩, ?_⟩
    rintro ⟨a', ha, rfl⟩
    obtain rfl := Except.ok.inj ha
    rfl

/-- And it fails exactly when the outcome does. -/
theorem map_eq_error_iff {ε α β : Type} {f : α → β} {x : Except ε α} {e : ε} :
    x.map f = .error e ↔ x = .error e := by
  cases x with
  | error e' => exact ⟨fun h => by cases h; rfl, fun h => by cases h; rfl⟩
  | ok a =>
    refine ⟨fun h => ?_, fun h => ?_⟩
    · cases h
    · cases h

/-- A computation gives a result exactly when all its steps do. -/
theorem bind_eq_ok_iff {ε α β : Type} {f : α → Except ε β} {x : Except ε α} {b : β} :
    x.bind f = .ok b ↔ ∃ a, x = .ok a ∧ f a = .ok b := by
  cases x with
  | error e =>
    refine ⟨fun h => ?_, fun ⟨_, h, _⟩ => ?_⟩
    · cases h
    · cases h
  | ok a =>
    refine ⟨fun h => ⟨a, rfl, h⟩, ?_⟩
    rintro ⟨a', ha, h⟩
    obtain rfl := Except.ok.inj ha
    exact h

/-- And it fails exactly when one of its steps does. -/
theorem bind_eq_error_iff {ε α β : Type} {f : α → Except ε β} {x : Except ε α} {e : ε} :
    x.bind f = .error e ↔ x = .error e ∨ ∃ a, x = .ok a ∧ f a = .error e := by
  cases x with
  | error e' =>
    refine ⟨fun h => .inl (by cases h; rfl), ?_⟩
    rintro (h | ⟨_, h, _⟩)
    · cases h; rfl
    · cases h
  | ok a =>
    refine ⟨fun h => .inr ⟨a, rfl, h⟩, ?_⟩
    rintro (h | ⟨a', ha, h⟩)
    · cases h
    · obtain rfl := Except.ok.inj ha
      exact h

/-! ## Two runs -/

/-- **Outcomes of two runs that go together**: they fail alike, or both
give results, and these are related. -/
inductive Outcomes {ε α β : Type} (R : α → β → Prop) : Except ε α → Except ε β → Prop where
  /-- Both fail. -/
  | error (e : ε) : Outcomes R (.error e) (.error e)
  /-- Neither fails. -/
  | ok {a : α} {b : β} (h : R a b) : Outcomes R (.ok a) (.ok b)

namespace Outcomes

variable {ε α β γ δ : Type} {R : α → β → Prop} {S : γ → δ → Prop} {x : Except ε α} {y : Except ε β}

/-- Outcomes that look alike go together. -/
theorem of_map_eq {f : α → γ} {g : β → γ} (h : x.map f = y.map g) :
    Outcomes (fun a b => f a = g b) x y := by
  cases x with
  | error e =>
    cases y with
    | error e' =>
      obtain rfl := Except.error.inj h
      exact .error e
    | ok b => cases h
  | ok a =>
    obtain ⟨b, rfl, hab⟩ := map_eq_ok_iff.mp h.symm
    exact .ok hab.symm

/-- **Runs go on together** after outcomes that go together. -/
theorem bind {f : α → Except ε γ} {g : β → Except ε δ} (h : Outcomes R x y)
    (hfg : ∀ a b, R a b → Outcomes S (f a) (g b)) : Outcomes S (x.bind f) (y.bind g) := by
  cases h with
  | error e => exact .error e
  | ok hab => exact hfg _ _ hab

/-- So they do after a step that they have in common. -/
theorem bind_same {f : α → Except ε γ} {g : α → Except ε δ}
    (hfg : ∀ a, x = .ok a → Outcomes S (f a) (g a)) : Outcomes S (x.bind f) (x.bind g) := by
  cases x with
  | error e => exact .error e
  | ok a => exact hfg a rfl

/-- What takes related results to related results takes outcomes along. -/
theorem map {f : α → γ} {g : β → δ} (h : Outcomes R x y)
    (hfg : ∀ a b, R a b → S (f a) (g b)) : Outcomes S (x.map f) (y.map g) := by
  cases h with
  | error e => exact .error e
  | ok hab => exact .ok (hfg _ _ hab)

/-- The results of one run may be taken further by themselves. -/
theorem map_left {f : α → γ} {S : γ → β → Prop} (h : Outcomes R x y)
    (hf : ∀ a b, x = .ok a → R a b → S (f a) b) : Outcomes S (x.map f) y := by
  cases h with
  | error e => exact .error e
  | ok hab => exact .ok (hf _ _ rfl hab)

/-- Results may be related in another way that follows. -/
theorem mono {S : α → β → Prop} (h : Outcomes R x y)
    (hRS : ∀ a b, x = .ok a → y = .ok b → R a b → S a b) : Outcomes S x y := by
  cases h with
  | error e => exact .error e
  | ok hab => exact .ok (hRS _ _ rfl rfl hab)

/-- Outcomes that go together, case by case. -/
theorem inversion (h : Outcomes R x y) :
    (∃ e, x = .error e ∧ y = .error e) ∨ ∃ a b, x = .ok a ∧ y = .ok b ∧ R a b := by
  cases h with
  | error e => exact .inl ⟨e, rfl, rfl⟩
  | ok hab => exact .inr ⟨_, _, rfl, rfl, hab⟩

/-- Where one run gives a result, so does the other. -/
theorem exists_ok (h : Outcomes R x y) {a : α} (hx : x = .ok a) : ∃ b, y = .ok b ∧ R a b := by
  cases h with
  | error e => cases hx
  | ok hab =>
    obtain rfl := Except.ok.inj hx
    exact ⟨_, rfl, hab⟩

end Outcomes

end DocFilter
