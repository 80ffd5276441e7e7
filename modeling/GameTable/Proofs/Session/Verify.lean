import GameTable.Proofs.Session.Run

/-!
# A session is what its log amounts to

Replaying the log of a session over the genesis gives the state of the session,
at every point of every run. A run may hold any submissions, and the log may
fail at any append, even in the middle of a command: the state has taken just
the events that the log has. So `verify` never finds a difference, and a
session that is started again on its log is where it was.

The invariant is `Grounded`. A session is grounded when it starts, and stays
so because all that is submitted to it advances log and state by the same
events (`Advances`).
-/

namespace GameTable

namespace Session

variable {ρ lg : Type} [EventLog lg]

/-- The log can be replayed, and amounts to the state. -/
def Grounded (s : Session ρ lg) : Prop :=
  ∃ events, EventLog.load s.log = .ok events
    ∧ replay (.genesis s.rules.compendium.entities) events = .ok s.state

theorem replayLog_eq_ok_iff {compendium : Compendium} {log : lg} {state : State} :
    replayLog compendium log = .ok state
      ↔ ∃ events, EventLog.load log = .ok events
        ∧ replay (.genesis compendium.entities) events = .ok state := by
  rw [replayLog]
  cases hl : EventLog.load log with
  | error err => simp
  | ok events =>
      cases hr : replay (.genesis compendium.entities) events with
      | error err => simp [hr]
      | ok s => simp [hr]

theorem replayLog_eq_ok {compendium : Compendium} {log : lg} {events : List Event} {state : State}
    (hl : EventLog.load log = .ok events)
    (hr : replay (.genesis compendium.entities) events = .ok state) :
    replayLog compendium log = .ok state :=
  replayLog_eq_ok_iff.mpr ⟨events, hl, hr⟩

theorem Grounded.verify {s : Session ρ lg} (h : s.Grounded) : s.verify = .ok true := by
  obtain ⟨events, hl, hr⟩ := h
  rw [Session.verify, replayLog_eq_ok hl hr, Except.map, decide_eq_true rfl]

theorem Advances.grounded {s t : Session ρ lg} {more : List Event} (h : s.Advances more t)
    {events : List Event} (hl : EventLog.load s.log = .ok events)
    (hr : replay (.genesis s.rules.compendium.entities) events = .ok s.state) :
    EventLog.load t.log = .ok (events ++ more)
      ∧ replay (.genesis s.rules.compendium.entities) (events ++ more) = .ok t.state := by
  refine ⟨h.log events hl, ?_⟩
  rw [replay_eq_ok_iff] at hr ⊢
  rw [State.after?_append_of_some hr, h.state]

/-- A session starts on any log that can be replayed. From then on its log can
be replayed, and amounts to its state, whatever is submitted. -/
theorem verify_after_receiveAll [Roller ρ] [LawfulLog lg] (rules : Rules)
    (parse : String → Except LineError Input) (evaluator : Evaluator ρ) (log : lg)
    {stored : List Event} {state : State} (hl : EventLog.load log = .ok stored)
    (hr : replay (.genesis rules.compendium.entities) stored = .ok state) :
    ∃ s : Session ρ lg, start rules parse evaluator log = .ok s ∧ s.state = state
      ∧ ∀ subs : List Submission, ∃ events,
        EventLog.load (s.receiveAll subs).log = .ok (stored ++ events)
          ∧ replay (.genesis rules.compendium.entities) (stored ++ events)
              = .ok (s.receiveAll subs).state
          ∧ (s.receiveAll subs).verify = .ok true := by
  let s : Session ρ lg := ⟨rules, parse, evaluator, log, state, none, false⟩
  refine ⟨s, ?_, rfl, fun subs => ?_⟩
  · rw [start, replayLog_eq_ok hl hr]
  · obtain ⟨events, h⟩ := s.receiveAll_advances subs
    obtain ⟨hl', hr'⟩ := h.grounded hl hr
    have hg : (s.receiveAll subs).Grounded := by
      refine ⟨stored ++ events, hl', ?_⟩
      rw [h.rules]
      exact hr'
    exact ⟨events, hl', hr', hg.verify⟩

/-- The log takes the first of two events and then no more: the session has
diverged, and still is what its log amounts to. -/
theorem verify_after_full_disk :
    ∃ s : Session DiceCup LimitedLog,
      start ⟨.empty, .empty, false⟩ Line.parse (.new (.fixed 10) 100)
          ⟨.ofEvents [.askIssued "GM" ["help"]], 1⟩ = .ok s
        ∧ (s.receiveAll [.line "allow", .line "help"]).diverged = true
        ∧ (s.receiveAll [.line "allow", .line "help"]).verify = .ok true := by
  obtain ⟨s, hs, -, hall⟩ := verify_after_receiveAll ⟨.empty, .empty, false⟩ Line.parse
    (.new (DiceCup.fixed 10) 100) (⟨.ofEvents [.askIssued "GM" ["help"]], 1⟩ : LimitedLog) rfl rfl
  obtain ⟨events, -, -, hv⟩ := hall [.line "allow", .line "help"]
  refine ⟨s, hs, ?_, hv⟩
  obtain rfl := Except.ok.inj hs
  decide +kernel

end Session

end GameTable
