/-!
# Steps in a row that keep a state

Evaluating a formula and executing a command are steps in a row, of which the
first that fails ends the whole; what they change is kept all the same. A row
succeeds just if each step does, from the state in which the one before left
off, and it fails just where one of them fails.
-/

namespace GameTable

variable {ε σ α β : Type} {x : ExceptT ε (StateM σ) α} {next : α → ExceptT ε (StateM σ) β}

theorem run_bind_of_ok {s t : σ} {a : α} (h : x s = (.ok a, t)) :
    (x >>= next) s = next a t := by
  change (match x s with | (result, t) => ExceptT.bindCont next result t) = next a t
  rw [h]
  rfl

theorem run_bind_of_error {s t : σ} {err : ε} (h : x s = (.error err, t)) :
    (x >>= next) s = (.error err, t) := by
  change (match x s with | (result, t) => ExceptT.bindCont next result t) = (.error err, t)
  rw [h]
  rfl

theorem run_bind_eq_ok_iff {s u : σ} {b : β} :
    (x >>= next) s = (.ok b, u) ↔ ∃ a t, x s = (.ok a, t) ∧ next a t = (.ok b, u) := by
  constructor
  · intro h
    rcases hx : x s with ⟨err | a, t⟩
    · rw [run_bind_of_error hx] at h
      cases h
    · rw [run_bind_of_ok hx] at h
      exact ⟨a, t, rfl, h⟩
  · rintro ⟨a, t, hx, h⟩
    rw [run_bind_of_ok hx, h]

theorem run_bind_eq_error {s u : σ} {err : ε} (h : (x >>= next) s = (.error err, u)) :
    x s = (.error err, u) ∨ ∃ a t, x s = (.ok a, t) ∧ next a t = (.error err, u) := by
  rcases hx : x s with ⟨err' | a, t⟩
  · rw [run_bind_of_error hx] at h
    cases h
    exact .inl rfl
  · rw [run_bind_of_ok hx] at h
    exact .inr ⟨a, t, rfl, h⟩

/-- Two runs that agree on the first step both end there, or both go on with the same next one. -/
theorem run_bind_both {Q : Except ε β × σ → Except ε β × σ → Prop} {s s' : σ}
    (h : (x s').1 = (x s).1) (herror : ∀ err, Q (.error err, (x s).2) (.error err, (x s').2))
    (hok : ∀ a, Q (next a (x s).2) (next a (x s').2)) : Q ((x >>= next) s) ((x >>= next) s') := by
  rcases hx : x s with ⟨err | a, t⟩
  · rcases hx' : x s' with ⟨result, t'⟩
    rw [hx, hx'] at h herror
    obtain rfl : result = .error err := h
    rw [run_bind_of_error hx, run_bind_of_error hx']
    exact herror err
  · rcases hx' : x s' with ⟨result, t'⟩
    rw [hx, hx'] at h hok
    obtain rfl : result = .ok a := h
    rw [run_bind_of_ok hx, run_bind_of_ok hx']
    exact hok a

theorem run_map (f : α → β) (s : σ) : (f <$> x) s = ((x s).1.map f, (x s).2) := by
  rcases hx : x s with ⟨err | a, t⟩
  · rw [map_eq_pure_bind, run_bind_of_error hx]
    rfl
  · rw [map_eq_pure_bind, run_bind_of_ok hx]
    rfl

end GameTable
