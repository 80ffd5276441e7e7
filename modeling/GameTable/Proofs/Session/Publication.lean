import GameTable.Proofs.Session.Approval
import GameTable.Session.Worker

/-!
# What a worker publishes

Clients put their calls into the queue of a worker and the worker answers them,
in any order of sending and working (`Worker.Move`). Whoever follows what the
worker publishes should see every event that the log takes, in the order of the
log. Over a log that never fails there is one exception: an approval whose
command then fails is in the log, but the answer is an error, and an error
publishes nothing.

`Session.strands` is that exception for one call, and `Worker.stranded` counts
it along a run. What is published is always part of what the log takes, in its
order (`Publishes.sublist`), and is short of it by the events of the approvals
that were stranded (`Publishes.length`). So nothing is missing just if none was:
`published_eq_appended_iff`.
-/

namespace GameTable

namespace Session

variable {ρ lg : Type} [EventLog lg]

/-- Between `s` and `t` log and state have taken `appended`, of which `shown` has
been published; the events of `missed` approvals have not. -/
structure Publishes (s : Session ρ lg) (appended shown : List Event) (missed : Nat)
    (t : Session ρ lg) : Prop where
  advances : s.Advances appended t
  sublist : shown.Sublist appended
  length : appended.length = shown.length + missed * approvalEvents.length

theorem Publishes.refl (s : Session ρ lg) : s.Publishes [] [] 0 s := ⟨.refl s, .refl [], rfl⟩

theorem Publishes.trans {s t u : Session ρ lg} {xs ys shown more : List Event} {m n : Nat}
    (h : s.Publishes xs shown m t) (h' : t.Publishes ys more n u) :
    s.Publishes (xs ++ ys) (shown ++ more) (m + n) u where
  advances := h.advances.trans h'.advances
  sublist := h.sublist.append h'.sublist
  length := by
    rw [List.length_append, List.length_append, h.length, h'.length, Nat.add_mul]
    omega

/-- Nothing is missing just if no approval was missed. -/
theorem Publishes.eq_iff {s t : Session ρ lg} {appended shown : List Event} {missed : Nat}
    (h : s.Publishes appended shown missed t) : shown = appended ↔ missed = 0 := by
  have hlen : appended.length = shown.length + missed * 2 := h.length
  constructor
  · rintro rfl
    omega
  · rintro rfl
    exact h.sublist.eq_of_length hlen.symm

theorem close_snd (s : Session ρ lg) : s.close.2 = (EventLog.flush s.log).2 := by
  rw [close]
  rcases EventLog.flush s.log with ⟨result, log⟩
  cases result with
  | error e => rfl
  | ok => rfl

/-- A durable log holds the same events when the session has ended. -/
theorem advances_close [DurableLog lg] (s : Session ρ lg) :
    s.Advances [] { s with log := s.close.2 } := by
  refine ⟨rfl, rfl, fun before hb => ?_⟩
  rw [close_snd, DurableLog.load_flushed, hb, List.append_nil]

variable [Roller ρ]

/-- Whether a call is an approval that is granted, but whose command fails. -/
def strands (s : Session ρ lg) : Call → Bool
  | .submit line => s.grants (.line line) && !(s.submit line).1.isOk
  | _ => false

theorem strands_of_ok {s t : Session ρ lg} {line : String} {events : List Event}
    (h : s.submit line = (.ok events, t)) : s.strands (.submit line) = false := by
  rw [strands, h, Except.isOk, Except.toBool, Bool.not_true, Bool.and_false]

theorem strands_of_error {s t : Session ρ lg} {line : String} {e : SessionError}
    (h : s.submit line = (.error e, t)) : s.strands (.submit line) = s.grants (.line line) := by
  rw [strands, h, Except.isOk, Except.toBool, Bool.not_false, Bool.and_true]

theorem submit_publishes [LawfulLog lg] {s : Session ρ lg} (hl : EventLog.Steady s.log)
    (line : String) :
    ∃ appended, s.Publishes appended (s.answer (.submit line)).1.events
        (s.strands (.submit line)).toNat (s.answer (.submit line)).2
      ∧ EventLog.Steady (s.answer (.submit line)).2.log := by
  have hacc := s.accounts_receive (.line line)
  rcases hr : s.receive (.line line) with ⟨result, t⟩
  have hs : s.submit line = (result, t) := hr
  have hans : s.answer (.submit line) = (.submitted result, t) := by rw [answer, hs]
  rw [hr] at hacc
  rw [hans]
  cases hacc with
  | @ok events _ ht =>
      rw [strands_of_ok hs]
      exact ⟨events, ⟨ht.advances, .refl events, rfl⟩, hl.after ht.log⟩
  | broken hb => exact absurd hb (not_breaks_of_steady hl)
  | error hne _ =>
      obtain ⟨hkeep, htake⟩ := takes_of_receive_error hr hne
      rw [strands_of_error hs]
      cases hg : s.grants (.line line) with
      | false => exact ⟨[], ⟨(hkeep hg).advances, .refl [], rfl⟩, hl.after (hkeep hg).log⟩
      | true =>
          exact ⟨approvalEvents, ⟨(htake hg).advances, List.nil_sublist _, rfl⟩,
            hl.after (htake hg).log⟩

/-- What is published of the events that one call adds to a log that never
fails. -/
theorem answer_publishes [DurableLog lg] {s : Session ρ lg} (hl : EventLog.Steady s.log)
    (call : Call) :
    ∃ appended, s.Publishes appended (s.answer call).1.events (s.strands call).toNat
        (s.answer call).2
      ∧ (call ≠ .shutdown → EventLog.Steady (s.answer call).2.log) := by
  cases call with
  | submit line =>
      obtain ⟨appended, hp, hl'⟩ := submit_publishes hl line
      exact ⟨appended, hp, fun _ => hl'⟩
  | snapshot => exact ⟨[], .refl s, fun _ => hl⟩
  | verify => exact ⟨[], .refl s, fun _ => hl⟩
  | shutdown => exact ⟨[], ⟨s.advances_close, .refl [], rfl⟩, fun h => absurd rfl h⟩

end Session

namespace Worker

variable {ρ lg : Type}

/-- What happens next to a worker: a client sends a call, or the worker answers
one. -/
inductive Move where
  | send (call : Call)
  | work

variable [Roller ρ] [EventLog lg]

/-- A client of a full queue waits; its call is sent in a later move. -/
def move (w : Worker ρ lg) : Move → Worker ρ lg
  | .send call => (w.enqueue call).getD w
  | .work => w.step

def run (w : Worker ρ lg) : List Move → Worker ρ lg
  | [] => w
  | m :: rest => (w.move m).run rest

/-- Whether the call that a move answers is stranded. -/
def strands (w : Worker ρ lg) : Move → Bool
  | .send _ => false
  | .work =>
    match w.running, w.queue with
    | true, call :: _ => w.session.strands call
    | _, _ => false

/-- How many approvals are stranded along a run. -/
def stranded (w : Worker ρ lg) : List Move → Nat
  | [] => 0
  | m :: rest => (w.strands m).toNat + (w.move m).stranded rest

/-- As long as a worker runs, its log never fails. -/
def Sound (w : Worker ρ lg) : Prop := w.running = true → EventLog.Steady w.session.log

theorem step_of_stopped {w : Worker ρ lg} (h : w.running = false) : w.step = w := by
  simp only [step, h]

theorem step_of_nil {w : Worker ρ lg} (h : w.queue = []) : w.step = w := by
  rw [step, h]
  cases w.running with
  | false => rfl
  | true => rfl

theorem step_of_cons {w : Worker ρ lg} {call : Call} {rest : List Call} (hr : w.running = true)
    (hq : w.queue = call :: rest) :
    w.step.session = (w.session.answer call).2
      ∧ w.step.published = w.published ++ (w.session.answer call).1.events
      ∧ (w.step.running = true → call ≠ .shutdown) := by
  simp only [step, hr, hq]
  split
  · exact ⟨rfl, rfl, fun h => by cases h⟩
  · rename_i hne
    exact ⟨rfl, rfl, fun _ => hne⟩

/-- What one move publishes of the events that it adds to the log. -/
theorem move_publishes [DurableLog lg] {w : Worker ρ lg} (h : w.Sound) (m : Move) :
    ∃ appended shown, w.session.Publishes appended shown (w.strands m).toNat (w.move m).session
      ∧ (w.move m).published = w.published ++ shown ∧ (w.move m).Sound := by
  have hidle : ∃ appended shown, w.session.Publishes appended shown 0 w.session
      ∧ w.published = w.published ++ shown ∧ w.Sound :=
    ⟨[], [], .refl w.session, (List.append_nil _).symm, h⟩
  cases m with
  | send call =>
      rw [move, enqueue]
      split
      · split
        · exact hidle
        · exact hidle
      · exact hidle
  | work =>
      rw [move, strands]
      cases hr : w.running with
      | false =>
          rw [step_of_stopped hr]
          exact hidle
      | true =>
          cases hq : w.queue with
          | nil =>
              rw [step_of_nil hq]
              exact hidle
          | cons call rest =>
              obtain ⟨hsession, hpublished, hrunning⟩ := step_of_cons hr hq
              obtain ⟨appended, hp, hl⟩ := Session.answer_publishes (h hr) call
              refine ⟨appended, (w.session.answer call).1.events, ?_, hpublished, fun hr' => ?_⟩
              · rw [hsession]
                exact hp
              · rw [hsession]
                exact hl (hrunning hr')

theorem run_publishes [DurableLog lg] : ∀ (moves : List Move) {w : Worker ρ lg}, w.Sound →
    ∃ appended shown, w.session.Publishes appended shown (w.stranded moves) (w.run moves).session
      ∧ (w.run moves).published = w.published ++ shown
  | [], w, _ => ⟨[], [], .refl w.session, (List.append_nil _).symm⟩
  | m :: rest, w, h => by
      obtain ⟨xs, shown, hmove, hshown, hsound⟩ := move_publishes h m
      obtain ⟨ys, more, hrun, hmore⟩ := run_publishes rest hsound
      refine ⟨xs ++ ys, shown ++ more, hmove.trans hrun, ?_⟩
      rw [run, hmore, hshown, List.append_assoc]

/-- Over a log that never fails, what a worker publishes in any run is part of
what the log takes, in the order of the log; and it is all of it just if no
approval is stranded. -/
theorem published_eq_appended_iff [DurableLog lg] (s : Session ρ lg) (depth : Nat)
    (moves : List Move) {before : List Event} (hb : EventLog.load s.log = .ok before)
    (hl : EventLog.Steady s.log) :
    ∃ appended,
      EventLog.load ((spawn s depth).run moves).session.log = .ok (before ++ appended)
        ∧ ((spawn s depth).run moves).published.Sublist appended
        ∧ (((spawn s depth).run moves).published = appended
            ↔ (spawn s depth).stranded moves = 0) := by
  obtain ⟨appended, shown, h, hshown⟩ := run_publishes moves (w := spawn s depth) fun _ => hl
  rw [hshown]
  exact ⟨appended, h.advances.log before hb, h.sublist, h.eq_iff⟩

/-- Two clients, the second of which grants the question of the first: all that
the log takes is published. -/
theorem published_granted_question :
    let s : Session DiceCup MemoryLog :=
      ⟨⟨.empty, .empty, false⟩, Line.parse, .new (.fixed 10) 100, .ofEvents [], .empty, none, false⟩
    let moves := [.send (.submit "ask to: GM options: help"), .send (.submit "allow"), .work, .work]
    EventLog.load ((spawn s 2).run moves).session.log = .ok ((spawn s 2).run moves).published
      ∧ ((spawn s 2).run moves).published.length = 4 := by
  intro s moves
  obtain ⟨appended, hload, -, hiff⟩ :=
    published_eq_appended_iff s 2 moves rfl (steady_ofEvents [])
  have hpub : ((spawn s 2).run moves).published = appended := hiff.mpr (by decide +kernel)
  refine ⟨?_, by decide +kernel⟩
  rw [hpub]
  exact hload

/-- The question is granted, but the command in it is unknown: the log has taken
the approval, and nobody is told. -/
theorem published_lacks_approval :
    let s : Session DiceCup MemoryLog :=
      ⟨⟨.empty, .empty, false⟩, Line.parse, .new (.fixed 10) 100, .ofEvents [], .empty, none, false⟩
    let w := (spawn s 1).run
      [.send (.submit "ask to: GM options: nonsense"), .work, .send (.submit "allow"), .work]
    w.published = [.askIssued "GM" ["nonsense"]]
      ∧ w.session.log.events = .askIssued "GM" ["nonsense"] :: approvalEvents
      ∧ w.published ≠ w.session.log.events := by
  decide +kernel

end Worker

end GameTable
