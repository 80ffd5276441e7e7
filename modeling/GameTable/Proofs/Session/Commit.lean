import GameTable.Proofs.Event.Sequence
import GameTable.Proofs.Log.Lawful
import GameTable.Proofs.Session.Submission

/-!
# Committing

Committing folds `Event.apply` twice: over a copy of the state, to see whether
the events fit, and over the state itself, one step behind the log. Applying
depends on the state and the event alone, so the second fold meets no event
that does not fit: whatever staging accepts can only be stopped by the log.

That leaves three ways in which a commit may end, and `commit_of_misfit`,
`commit_of_refused` and `commit_of_taken` say what the session is after each.
`commit_outcome` is the converse, that there is no fourth. Laws of the log play
no part in it; they come in where the log is loaded again or may be torn, in
`commit_keeps_step`.
-/

namespace GameTable

namespace Session

variable {ρ lg : Type} [EventLog lg]

/-! ## Writing events that fit -/

theorem writeFrom_of_taken {s : Session ρ lg} {events : List Event} {t : State} {m : lg}
    (hs : s.state.after? events = some t) (hl : EventLog.after? s.log events = some m)
    (index : Nat) :
    s.writeFrom index events = (.ok (), { s with log := m, state := t }) := by
  induction events generalizing s index with
  | nil =>
      obtain rfl := Option.some.inj hs
      obtain rfl := Option.some.inj hl
      rfl
  | cons e rest ih =>
      obtain ⟨u, he, hrest⟩ := State.after?_next hs
      rcases ha : EventLog.append s.log e with ⟨result, l⟩
      cases result with
      | error err =>
          rw [EventLog.after?_cons_of_error ha] at hl
          cases hl
      | ok offset =>
          rw [EventLog.after?_cons_of_ok ha] at hl
          simp only [writeFrom, ha, he]
          exact ih (s := { s with log := l, state := u }) hrest hl (index + 1)

/-- The log refuses the event after those in `kept`: they stay in the log and
in the state. -/
theorem writeFrom_of_refused {s : Session ρ lg} {kept : List Event} {u : State} {m n : lg}
    (hs : s.state.after? kept = some u) (hl : EventLog.after? s.log kept = some m)
    {e : Event} {err : LogError} (he : EventLog.append m e = (.error err, n))
    (rest : List Event) (index : Nat) :
    s.writeFrom index (kept ++ e :: rest) = (.error (.storage err),
      { s with
        log := n
        state := u
        diverged := s.diverged || index + kept.length != 0 || EventLog.isTorn n }) := by
  induction kept generalizing s index with
  | nil =>
      obtain rfl := Option.some.inj hs
      obtain rfl := Option.some.inj hl
      simp only [List.nil_append, writeFrom, he]
      rfl
  | cons x kept ih =>
      obtain ⟨v, hx, hkept⟩ := State.after?_next hs
      rcases ha : EventLog.append s.log x with ⟨result, l⟩
      cases result with
      | error err' =>
          rw [EventLog.after?_cons_of_error ha] at hl
          cases hl
      | ok offset =>
          rw [EventLog.after?_cons_of_ok ha] at hl
          simp only [List.cons_append, writeFrom, ha, hx]
          rw [ih (s := { s with log := l, state := v }) hkept hl (index + 1), List.length_cons,
            show index + 1 + kept.length = index + (kept.length + 1) by omega]

/-! ## The ends of a commit -/

theorem commit_of_misfit {s : Session ρ lg} {fit : List Event} {t : State}
    (hs : s.state.after? fit = some t) {e : Event} {cause : ApplyError}
    (he : e.apply t = .error cause) (rest : List Event) :
    s.commit (fit ++ e :: rest) = (.error (.invalidEvent fit.length e.tag cause), s) := by
  have hstage : stage s.state (fit ++ e :: rest) = .error (.invalidEvent fit.length e.tag cause) :=
    stage_eq_error_iff.mpr ⟨fit, e, rest, t, cause, rfl, hs, he, rfl⟩
  rw [commit, hstage]

theorem commit_of_taken {s : Session ρ lg} {events : List Event} {t : State} {m : lg}
    (hs : s.state.after? events = some t) (hl : EventLog.after? s.log events = some m) :
    s.commit events = (.ok (), { s with log := m, state := t }) := by
  rw [commit, stage_eq_ok_iff.mpr hs]
  exact writeFrom_of_taken hs hl 0

theorem commit_of_refused {s : Session ρ lg} {kept rest : List Event} {e : Event} {t u : State}
    {m n : lg} {err : LogError} (hs : s.state.after? (kept ++ e :: rest) = some t)
    (hu : s.state.after? kept = some u) (hl : EventLog.after? s.log kept = some m)
    (he : EventLog.append m e = (.error err, n)) :
    s.commit (kept ++ e :: rest) = (.error (.storage err),
      { s with
        log := n
        state := u
        diverged := s.diverged || !kept.isEmpty || EventLog.isTorn n }) := by
  rw [commit, stage_eq_ok_iff.mpr hs]
  rw [writeFrom_of_refused hu hl he, Nat.zero_add]
  cases kept <;> rfl

/-- The ways in which committing events may end. -/
inductive CommitOutcome (s : Session ρ lg) :
    List Event → Except SessionError Unit × Session ρ lg → Prop
  /-- The event after those in `fit` does not fit, and nothing changes. -/
  | misfit {fit rest : List Event} {e : Event} {t : State} {cause : ApplyError} :
      s.state.after? fit = some t → e.apply t = .error cause →
      CommitOutcome s (fit ++ e :: rest) (.error (.invalidEvent fit.length e.tag cause), s)
  /-- All events fit, but the log refuses the one after those in `kept`. -/
  | refused {kept rest : List Event} {e : Event} {u : State} {m n : lg} {err : LogError} :
      s.state.after? kept = some u → EventLog.after? s.log kept = some m →
      EventLog.append m e = (.error err, n) →
      CommitOutcome s (kept ++ e :: rest) (.error (.storage err),
        { s with
          log := n
          state := u
          diverged := s.diverged || !kept.isEmpty || EventLog.isTorn n })
  | taken {events : List Event} {t : State} {m : lg} :
      s.state.after? events = some t → EventLog.after? s.log events = some m →
      CommitOutcome s events (.ok (), { s with log := m, state := t })

theorem commit_outcome (s : Session ρ lg) (events : List Event) :
    s.CommitOutcome events (s.commit events) := by
  cases hs : s.state.after? events with
  | none =>
      obtain ⟨fit, e, rest, t, cause, rfl, hfit, he⟩ := State.after?_eq_none_iff.mp hs
      rw [commit_of_misfit hfit he]
      exact .misfit hfit he
  | some t =>
      cases hl : EventLog.after? s.log events with
      | none =>
          obtain ⟨kept, e, rest, m, err, n, rfl, hkept, he⟩ := EventLog.after?_eq_none_iff.mp hl
          obtain ⟨u, hu, -⟩ := State.after?_left hs
          rw [commit_of_refused hs hu hkept he]
          exact .refused hu hkept he
      | some m =>
          rw [commit_of_taken hs hl]
          exact .taken hs hl

end Session

end GameTable
