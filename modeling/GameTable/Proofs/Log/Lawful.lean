import GameTable.Log.Journal

/-!
# Lawful logs

What a session may rely on when it appends. A log may fail at any time and for
any reason of its own; it is lawful (`LawfulLog`) if an event that it takes
stands at its end and nowhere else, and an event that it refuses stands
nowhere, not even in part. Nothing is assumed about offsets, about the size, or about a log that
cannot be loaded to begin with.

`EventLog.after?` is a log after several appends, or nothing if one of them
fails. It is to the log what `State.after?` is to the state, and
`load_after?` says what such a log holds. A log that never fails is `Steady`.
-/

namespace GameTable

namespace EventLog

variable {lg : Type} [EventLog lg]

/-- The log after a list of events, if it takes every one of them. -/
def after? (l : lg) : List Event → Option lg
  | [] => some l
  | e :: rest =>
    match append l e with
    | (.ok _, m) => after? m rest
    | (.error _, _) => none

@[simp] theorem after?_nil (l : lg) : after? l [] = some l := rfl

theorem after?_cons_of_ok {l m : lg} {e : Event} {offset : Nat}
    (h : append l e = (.ok offset, m)) (rest : List Event) :
    after? l (e :: rest) = after? m rest := by
  rw [after?, h]

theorem after?_cons_of_error {l m : lg} {e : Event} {err : LogError}
    (h : append l e = (.error err, m)) (rest : List Event) :
    after? l (e :: rest) = none := by
  rw [after?, h]

theorem after?_append (l : lg) (xs ys : List Event) :
    after? l (xs ++ ys) = (after? l xs).bind (after? · ys) := by
  induction xs generalizing l with
  | nil => rfl
  | cons x xs ih =>
      rw [List.cons_append]
      rcases h : append l x with ⟨result, m⟩
      cases result with
      | error err => rw [after?_cons_of_error h, after?_cons_of_error h, Option.bind_none]
      | ok offset => rw [after?_cons_of_ok h, after?_cons_of_ok h, ih]

/-- A log that does not take all events has a first that it refuses. -/
theorem after?_eq_none_iff {l : lg} {events : List Event} :
    after? l events = none ↔ ∃ kept e rest m err n, events = kept ++ e :: rest
      ∧ after? l kept = some m ∧ append m e = (.error err, n) := by
  constructor
  · intro h
    induction events generalizing l with
    | nil => cases h
    | cons e rest ih =>
        rcases he : append l e with ⟨result, m⟩
        cases result with
        | error err => exact ⟨[], e, rest, l, err, m, rfl, rfl, he⟩
        | ok offset =>
            rw [after?_cons_of_ok he] at h
            obtain ⟨kept, e', rest', m', err, n, rfl, hkept, he'⟩ := ih h
            exact ⟨e :: kept, e', rest', m', err, n, rfl,
              (after?_cons_of_ok he kept).trans hkept, he'⟩
  · rintro ⟨kept, e, rest, m, err, n, rfl, hkept, he⟩
    rw [after?_append, hkept, Option.bind_some, after?_cons_of_error he]

/-- A log that takes whatever events it is given. -/
def Steady (l : lg) : Prop := ∀ events, (after? l events).isSome = true

theorem Steady.after {l m : lg} (h : Steady l) {events : List Event}
    (hm : after? l events = some m) : Steady m := by
  intro rest
  have hall := h (events ++ rest)
  rwa [after?_append, hm, Option.bind_some] at hall

/-- A log that never fails does not refuse an event after others that it took. -/
theorem Steady.takes {l m n : lg} (h : Steady l) {events : List Event}
    (hm : after? l events = some m) {e : Event} {err : LogError} :
    append m e ≠ (.error err, n) := by
  intro he
  have hone := h.after hm [e]
  rw [after?_cons_of_error he] at hone
  cases hone

end EventLog

/-- A log that stores an event at its end or not at all. -/
class LawfulLog (lg : Type) [EventLog lg] : Prop where
  load_taken {l m : lg} {events : List Event} {e : Event} {offset : Nat} :
    EventLog.load l = .ok events → EventLog.append l e = (.ok offset, m) →
      EventLog.load m = .ok (events ++ [e])
  load_refused {l m : lg} {events : List Event} {e : Event} {err : LogError} :
    EventLog.load l = .ok events → EventLog.append l e = (.error err, m) →
      EventLog.load m = .ok events
  not_torn {l m : lg} {e : Event} {err : LogError} :
    EventLog.append l e = (.error err, m) → EventLog.isTorn m = false

/-- A lawful log that keeps its events when it is flushed. -/
class DurableLog (lg : Type) [EventLog lg] : Prop extends LawfulLog lg where
  load_flushed (l : lg) : EventLog.load (EventLog.flush l).2 = EventLog.load l

namespace EventLog

variable {lg : Type} [EventLog lg] [LawfulLog lg]

theorem load_after? {l m : lg} {before events : List Event} (hl : load l = .ok before)
    (h : after? l events = some m) : load m = .ok (before ++ events) := by
  induction events generalizing l before with
  | nil =>
      obtain rfl := Option.some.inj h
      rw [List.append_nil, hl]
  | cons e rest ih =>
      rcases he : append l e with ⟨result, l'⟩
      cases result with
      | error err =>
          rw [after?_cons_of_error he] at h
          cases h
      | ok offset =>
          rw [after?_cons_of_ok he] at h
          rw [List.append_cons]
          exact ih (LawfulLog.load_taken hl he) h

end EventLog

/-! ## Logs in memory -/

instance : DurableLog MemoryLog where
  load_taken := by
    intro l m events e offset hl h
    obtain rfl : l.events = events := Except.ok.inj hl
    change l.append e = _ at h
    unfold MemoryLog.append at h
    split at h
    · cases h
    · cases h
      rfl
  load_refused := by
    intro l m events e err hl h
    change l.append e = _ at h
    unfold MemoryLog.append at h
    split at h
    · cases h
      exact hl
    · cases h
  not_torn _ := rfl
  load_flushed _ := rfl

instance : DurableLog LimitedLog where
  load_taken := by
    intro l m events e offset hl h
    change l.append e = _ at h
    unfold LimitedLog.append at h
    split at h
    · cases h
    · split at h
      · rename_i log hlog
        cases h
        exact LawfulLog.load_taken (l := l.log) hl hlog
      · cases h
  load_refused := by
    intro l m events e err hl h
    change l.append e = _ at h
    unfold LimitedLog.append at h
    split at h
    · cases h
      exact hl
    · split at h
      · cases h
      · rename_i log hlog
        cases h
        exact LawfulLog.load_refused (l := l.log) hl hlog
  not_torn _ := rfl
  load_flushed _ := rfl

/-- A log in memory that is open to writing never fails. -/
theorem steady_ofEvents (events : List Event) : EventLog.Steady (MemoryLog.ofEvents events) := by
  intro more
  induction more generalizing events with
  | nil => rfl
  | cons e rest ih => exact ih (events ++ [e])

end GameTable
