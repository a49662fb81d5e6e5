
/-!
# Results of steps in a row

What is known of steps from what is known of each of them, for steps that only give a result
(`Except`) and for steps that keep a state whether they fail or not (`ExceptT` over `StateM`).

* `bind_eq_ok_iff`, `map_eq_ok_iff` and `mapError_eq_ok_iff` say when `x >>= f`, `f <$> x` and
  `x.mapError f` succeed, and `foldlM_eq_ok_congr` compares two folds by their steps.
* `bind_of_ok` and `bind_of_error` run `x >>= next` from a state when it is known what `x` does
  there, and `exists_of_bind_ok` takes a run that succeeded apart.
* `settle` is what a step leaves behind that makes all its changes at once, and `eq_of_settled` says
  what is known of steps in place that agree with it.
-/

namespace Straightline

section

variable {ε ε' α β : Type}

/-- `x >>= f` succeeds with `b` iff `x` succeeds with some `a` and `f a` with `b`. -/
theorem bind_eq_ok_iff {x : Except ε α} {f : α → Except ε β} {b : β} :
    x >>= f = .ok b ↔ ∃ a, x = .ok a ∧ f a = .ok b := by
  cases x with
  | error e => exact ⟨nofun, nofun⟩
  | ok a => exact ⟨fun h => ⟨a, rfl, h⟩, fun ⟨_, ha, h⟩ => Except.ok.inj ha ▸ h⟩

/-- `f <$> x` succeeds with `b` iff `x` succeeds with some `a` and `f a = b`. -/
theorem map_eq_ok_iff {x : Except ε α} {f : α → β} {b : β} :
    f <$> x = .ok b ↔ ∃ a, x = .ok a ∧ f a = b := by
  cases x with
  | error e => exact ⟨nofun, nofun⟩
  | ok a => simp [Functor.map, Except.map]

/-- `x.mapError f` succeeds iff `x` does, with the same result. -/
theorem mapError_eq_ok_iff {x : Except ε α} {f : ε → ε'} {a : α} :
    x.mapError f = .ok a ↔ x = .ok a := by
  cases x with
  | error e => exact ⟨nofun, nofun⟩
  | ok a => exact ⟨fun h => congrArg Except.ok (Except.ok.inj h),
      fun h => congrArg Except.ok (Except.ok.inj h)⟩

/-- If `f b a` and `g b a` succeed alike, then so do the folds of `f` and `g` over a list. -/
theorem foldlM_eq_ok_congr {f g : β → α → Except ε β}
    (h : ∀ b a b', f b a = .ok b' ↔ g b a = .ok b') (as : List α) (b b' : β) :
    as.foldlM f b = .ok b' ↔ as.foldlM g b = .ok b' := by
  induction as generalizing b with
  | nil => rfl
  | cons a as ih =>
    rw [List.foldlM_cons, List.foldlM_cons, bind_eq_ok_iff, bind_eq_ok_iff]
    exact exists_congr fun c => and_congr (h b a c) (ih c)

end

/-! ### Steps that keep a state -/

section

variable {ε σ α β : Type} {x : ExceptT ε (StateM σ) α}
  {next : α → ExceptT ε (StateM σ) β} {c c' : σ}

/-- A result that is known gives itself and keeps the state. -/
theorem ofExcept_eq (r : Except ε α) :
    (MonadExcept.ofExcept r : ExceptT ε (StateM σ) α) c = (r, c) := by
  cases r <;> rfl

/-- If `x` succeeds with `a`, then `x >>= next` goes on as `next a` does, from where `x` stopped. -/
theorem bind_of_ok {a : α} (h : x c = (.ok a, c')) : (x >>= next) c = next a c' := by
  simp only [bind, ExceptT.bind, ExceptT.mk, StateT.bind, h]
  rfl

/-- If `x` fails, then so does `x >>= next`, and it leaves the state that `x` left. -/
theorem bind_of_error {e : ε} (h : x c = (.error e, c')) : (x >>= next) c = (.error e, c') := by
  simp only [bind, ExceptT.bind, ExceptT.mk, StateT.bind, h]
  rfl

/-- If `x >>= next` succeeds, then `x` does, and then `next` from where `x` stopped. -/
theorem exists_of_bind_ok {b : β} (h : (x >>= next) c = (.ok b, c')) :
    ∃ a c₁, x c = (.ok a, c₁) ∧ next a c₁ = (.ok b, c') := by
  rcases hx : x c with ⟨e | a, c₁⟩
  · rw [bind_of_error hx] at h
    cases h
  · rw [bind_of_ok hx] at h
    exact ⟨a, c₁, rfl, h⟩

/-- The result of a step that changes the state `c` at once, and the state afterwards: the new one,
    or `c` if the step fails. -/
def settle (c : σ) : Except ε (α × σ) → Except ε α × σ
  | .ok (a, c') => (.ok a, c')
  | .error e => (.error e, c)

/-- A step in place that agrees with `r` succeeds iff `r` does. It fails iff `r` does, and then the
    state is what it was. -/
theorem eq_of_settled {r : Except ε (α × σ)} (h : x c = settle c r) :
    (∀ a c', x c = (.ok a, c') ↔ r = .ok (a, c')) ∧
      ∀ e c', x c = (.error e, c') ↔ c' = c ∧ r = .error e := by
  rw [h]
  show (∀ a c', (settle c r : Except ε α × σ) = (.ok a, c') ↔ _) ∧
    ∀ e c', (settle c r : Except ε α × σ) = (.error e, c') ↔ _
  rcases r with e | ⟨a, c₁⟩
  · simp [settle, and_comm, eq_comm]
  · simp [settle]

end

end Straightline
