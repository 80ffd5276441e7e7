import GameTable.Session.Basic

/-!
# Sequences of events

Three loops of the engine apply one event after the other: `replay` over a
log, `stage` over the events of a command, and the loop that writes a command
to the log. They differ in what they say about an event that does not fit, and
in nothing else. `State.after?` is what they share: the state after a list of
events, or nothing if one of them does not fit.

- `replay_eq_ok_iff` and `stage_eq_ok_iff`: replaying and staging succeed just
  where `after?` does, with the same state.
- `stage_eq_error_iff`: staging fails just at the first event that does not fit.
-/

namespace GameTable

namespace State

/-- The state after a list of events, if every one of them fits. -/
def after? (s : State) : List Event → Option State
  | [] => some s
  | e :: rest =>
    match e.apply s with
    | .ok t => t.after? rest
    | .error _ => none

@[simp] theorem after?_nil (s : State) : s.after? [] = some s := rfl

theorem after?_cons_of_ok {s t : State} {e : Event} (h : e.apply s = .ok t)
    (rest : List Event) : s.after? (e :: rest) = t.after? rest := by
  rw [after?, h]

theorem after?_cons_of_error {s : State} {e : Event} {cause : ApplyError}
    (h : e.apply s = .error cause) (rest : List Event) :
    s.after? (e :: rest) = none := by
  rw [after?, h]

theorem after?_append (s : State) (xs ys : List Event) :
    s.after? (xs ++ ys) = (s.after? xs).bind (·.after? ys) := by
  induction xs generalizing s with
  | nil => rfl
  | cons x xs ih =>
      rw [List.cons_append]
      cases h : x.apply s with
      | error cause => rw [after?_cons_of_error h, after?_cons_of_error h, Option.bind_none]
      | ok t => rw [after?_cons_of_ok h, after?_cons_of_ok h, ih]

theorem after?_append_of_some {s t : State} {xs : List Event} (h : s.after? xs = some t)
    (ys : List Event) : s.after? (xs ++ ys) = t.after? ys := by
  rw [after?_append, h, Option.bind_some]

/-- What fits as a whole fits up to any point. -/
theorem after?_left {s t : State} {xs ys : List Event} (h : s.after? (xs ++ ys) = some t) :
    ∃ u, s.after? xs = some u ∧ u.after? ys = some t := by
  rw [after?_append, Option.bind_eq_some_iff] at h
  exact h

/-- The next of several events that fit as a whole. -/
theorem after?_next {s t : State} {e : Event} {rest : List Event}
    (h : s.after? (e :: rest) = some t) : ∃ u, e.apply s = .ok u ∧ u.after? rest = some t := by
  cases he : e.apply s with
  | error cause =>
      rw [after?_cons_of_error he] at h
      cases h
  | ok u =>
      rw [after?_cons_of_ok he] at h
      exact ⟨u, rfl, h⟩

/-- Where events fit as a whole, each of them fits some state. -/
theorem exists_apply_of_after? {s t : State} {events : List Event}
    (h : s.after? events = some t) {e : Event} (he : e ∈ events) :
    ∃ u v, e.apply u = .ok v := by
  obtain ⟨before, after, rfl⟩ := List.append_of_mem he
  obtain ⟨u, -, hu⟩ := after?_left h
  obtain ⟨v, hv, -⟩ := after?_next hu
  exact ⟨u, v, hv⟩

/-- Events that do not fit as a whole have a first that does not fit. -/
theorem after?_eq_none_iff {s : State} {events : List Event} :
    s.after? events = none ↔ ∃ fit e rest t cause, events = fit ++ e :: rest
      ∧ s.after? fit = some t ∧ e.apply t = .error cause := by
  constructor
  · intro h
    induction events generalizing s with
    | nil => cases h
    | cons e rest ih =>
        cases he : e.apply s with
        | error cause => exact ⟨[], e, rest, s, cause, rfl, rfl, he⟩
        | ok t =>
            rw [after?_cons_of_ok he] at h
            obtain ⟨fit, e', rest', u, cause, rfl, hfit, he'⟩ := ih h
            exact ⟨e :: fit, e', rest', u, cause, rfl,
              (after?_cons_of_ok he fit).trans hfit, he'⟩
  · rintro ⟨fit, e, rest, t, cause, rfl, hfit, he⟩
    rw [after?_append_of_some hfit, after?_cons_of_error he]

end State

/-! ## Replaying a log -/

theorem replayFrom_eq_ok_iff {index : Nat} {s t : State} {events : List Event} :
    replayFrom index s events = .ok t ↔ s.after? events = some t := by
  induction events generalizing index s with
  | nil => simp [replayFrom]
  | cons e rest ih =>
      cases he : e.apply s with
      | error cause => simp [replayFrom, he, State.after?_cons_of_error he]
      | ok u =>
          rw [replayFrom, he, State.after?_cons_of_ok he]
          exact ih

theorem replay_eq_ok_iff {s t : State} {events : List Event} :
    replay s events = .ok t ↔ s.after? events = some t :=
  replayFrom_eq_ok_iff

/-! ## Staging a command -/

theorem stageFrom_eq_ok_iff {index : Nat} {s t : State} {events : List Event} :
    stageFrom index s events = .ok t ↔ s.after? events = some t := by
  induction events generalizing index s with
  | nil => simp [stageFrom]
  | cons e rest ih =>
      cases he : e.apply s with
      | error cause => simp [stageFrom, he, State.after?_cons_of_error he]
      | ok u =>
          rw [stageFrom, he, State.after?_cons_of_ok he]
          exact ih

theorem stage_eq_ok_iff {s t : State} {events : List Event} :
    stage s events = .ok t ↔ s.after? events = some t :=
  stageFrom_eq_ok_iff

/-- Staging stops at the first event that does not fit, and counts those
before it. -/
theorem stageFrom_of_misfit {s t : State} {fit : List Event} (h : s.after? fit = some t)
    {e : Event} {cause : ApplyError} (he : e.apply t = .error cause) (rest : List Event)
    (index : Nat) :
    stageFrom index s (fit ++ e :: rest)
      = .error (.invalidEvent (index + fit.length) e.tag cause) := by
  induction fit generalizing index s with
  | nil =>
      obtain rfl := Option.some.inj h
      rw [List.nil_append, stageFrom, he]
      rfl
  | cons x fit ih =>
      obtain ⟨u, hx, hfit⟩ := State.after?_next h
      simp only [List.cons_append, stageFrom, hx]
      rw [ih hfit, List.length_cons, show index + 1 + fit.length = index + (fit.length + 1) by omega]

theorem stage_eq_error_iff {s : State} {events : List Event} {err : SessionError} :
    stage s events = .error err ↔ ∃ fit e rest t cause, events = fit ++ e :: rest
      ∧ s.after? fit = some t ∧ e.apply t = .error cause
      ∧ err = .invalidEvent fit.length e.tag cause := by
  constructor
  · intro h
    have hnone : s.after? events = none := by
      cases ht : s.after? events with
      | none => rfl
      | some t =>
          rw [stage_eq_ok_iff.mpr ht] at h
          cases h
    obtain ⟨fit, e, rest, t, cause, rfl, hfit, he⟩ := State.after?_eq_none_iff.mp hnone
    refine ⟨fit, e, rest, t, cause, rfl, hfit, he, ?_⟩
    rw [stage, stageFrom_of_misfit hfit he, Nat.zero_add] at h
    exact (Except.error.inj h).symm
  · rintro ⟨fit, e, rest, t, cause, rfl, hfit, he, rfl⟩
    rw [stage, stageFrom_of_misfit hfit he, Nat.zero_add]

end GameTable
