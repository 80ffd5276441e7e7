import GameTable.Proofs.Session.Publication

/-!
# One call after another

However many clients send calls to a worker, and whenever they do, the worker
answers as if there were one client and no queue: it takes the calls in the
order in which they were sent, and answers each on the session that the one
before it has left (`Session.answerAll`). Log and state are part of that
session.

The first call to shut down cuts the order in two. What stands before it has
been answered; what is sent after it finds the worker closed, whether it was in
the queue at that time or came later, and leaves no trace. `Serves` says so of
one moment and `Serves.move` that sending and working keep it.

A worker answers a call in one move here. A client that sends a call meanwhile
is not forgotten: sending concerns the end of the queue and answering its front,
so that it does not matter which of them comes first (`work_send_comm`). And a
fault is a reply like any other here, although a program that meets one stops.
-/

namespace GameTable

namespace Session

variable {ρ lg : Type} [Roller ρ] [EventLog lg]

/-- The replies to a list of calls that are answered one after another, and the
session after them. -/
def answerAll (s : Session ρ lg) : List Call → List Reply × Session ρ lg
  | [] => ([], s)
  | call :: rest =>
    let (reply, s) := s.answer call
    let (replies, s) := s.answerAll rest
    (reply :: replies, s)

theorem answerAll_cons (s : Session ρ lg) (call : Call) (rest : List Call) :
    s.answerAll (call :: rest)
      = ((s.answer call).1 :: ((s.answer call).2.answerAll rest).1,
        ((s.answer call).2.answerAll rest).2) := rfl

theorem answerAll_concat (s : Session ρ lg) (calls : List Call) (call : Call) :
    s.answerAll (calls ++ [call])
      = ((s.answerAll calls).1 ++ [((s.answerAll calls).2.answer call).1],
        ((s.answerAll calls).2.answer call).2) := by
  induction calls generalizing s with
  | nil => rfl
  | cons first rest ih =>
      rw [List.cons_append, answerAll_cons, answerAll_cons, ih]
      rfl

end Session

namespace Worker

variable {ρ lg : Type} {w : Worker ρ lg}

/-! ## Single moves -/

theorem enqueue_of_room (hrunning : w.running = true) (hroom : w.queue.length < w.depth)
    (call : Call) : w.enqueue call = some { w with queue := w.queue ++ [call] } := by
  rw [enqueue, if_pos hrunning, if_pos hroom]

theorem enqueue_of_full (hrunning : w.running = true) (hfull : ¬ w.queue.length < w.depth)
    (call : Call) : w.enqueue call = none := by
  rw [enqueue, if_pos hrunning, if_neg hfull]

theorem enqueue_of_stopped (hstopped : w.running = false) (call : Call) :
    w.enqueue call = some { w with replies := w.replies ++ [call.refused] } := by
  rw [enqueue, hstopped, if_neg Bool.false_ne_true]

/-- The call that is sent by a move, if there is room for it. A closed worker
has room for everything. -/
def sends (w : Worker ρ lg) : Move → List Call
  | .send call => if (w.enqueue call).isSome then [call] else []
  | .work => []

variable [Roller ρ] [EventLog lg]

theorem step_of_call {call : Call} {rest : List Call} (hrunning : w.running = true)
    (hqueue : w.queue = call :: rest) (hne : call ≠ .shutdown) :
    w.step = { w with
      session := (w.session.answer call).2
      queue := rest
      replies := w.replies ++ [(w.session.answer call).1]
      published := w.published ++ (w.session.answer call).1.events } := by
  simp only [step, hrunning, hqueue, if_neg hne]

theorem step_of_shutdown {rest : List Call} (hrunning : w.running = true)
    (hqueue : w.queue = .shutdown :: rest) :
    w.step = { w with
      session := (w.session.answer .shutdown).2
      queue := []
      replies := w.replies ++ [(w.session.answer .shutdown).1] ++ rest.map Call.refused
      published := w.published ++ (w.session.answer .shutdown).1.events
      running := false } := by
  simp only [step, hrunning, hqueue, if_pos trivial]

/-- The first call of the queue is answered alike before and after another call
is put at its end. -/
theorem work_send_comm (hroom : w.queue.length < w.depth) (hwaiting : w.queue ≠ [])
    (call : Call) :
    (w.move .work).move (.send call) = (w.move (.send call)).move .work := by
  obtain ⟨first, rest, hqueue⟩ := List.exists_cons_of_ne_nil hwaiting
  have hrest : rest.length < w.depth := by
    rw [hqueue, List.length_cons] at hroom
    omega
  have hlonger : w.queue ++ [call] = first :: (rest ++ [call]) := by
    rw [hqueue]
    rfl
  change (w.step.enqueue call).getD w.step = ((w.enqueue call).getD w).step
  cases hrunning : w.running with
  | false =>
      rw [step_of_stopped hrunning, enqueue_of_stopped hrunning]
      refine (step_of_stopped ?_).symm
      exact hrunning
  | true =>
      rw [enqueue_of_room hrunning hroom, Option.getD_some]
      by_cases hfirst : first = .shutdown
      · -- The call is refused, at the end of the queue or at the closed worker.
        subst hfirst
        rw [step_of_shutdown hrunning hqueue, enqueue_of_stopped rfl, Option.getD_some]
        refine .trans ?_ (step_of_shutdown ?_ hlonger).symm
        · rw [List.map_append, ← List.append_assoc]
          rfl
        · exact hrunning
      · rw [step_of_call hrunning hqueue hfirst]
        refine .trans ?_ (step_of_call ?_ hlonger hfirst).symm
        · rw [enqueue_of_room ?_ ?_]
          · rfl
          · exact hrunning
          · exact hrest
        · exact hrunning

/-! ## What a worker has done -/

/-- The calls that are sent in a run, the first one first. -/
def sent (w : Worker ρ lg) : List Move → List Call
  | [] => []
  | m :: rest => w.sends m ++ (w.move m).sent rest

/-- What a worker on the session `s` has done about the calls sent to it: those
that it has served were answered one after another, those that it refused came
after the first call to shut down, and the others are waiting. -/
structure Serves (s : Session ρ lg) (sent served refused : List Call) (w : Worker ρ lg) :
    Prop where
  order : sent = served ++ refused ++ w.queue
  replies : w.replies = (s.answerAll served).1 ++ refused.map Call.refused
  session : w.session = (s.answerAll served).2
  published : w.published = (s.answerAll served).1.flatMap Reply.events
  cut : w.running = true ∧ .shutdown ∉ served ∧ refused = []
    ∨ w.running = false ∧ w.queue = [] ∧ ∃ before, served = before ++ [.shutdown]
      ∧ .shutdown ∉ before

variable {s : Session ρ lg} {sent served refused : List Call}

theorem Serves.send (h : w.Serves s sent served refused) (call : Call) :
    ∃ refused', (w.move (.send call)).Serves s (sent ++ w.sends (.send call)) served refused' := by
  rcases h.cut with ⟨hrunning, hserved, rfl⟩ | ⟨hstopped, hqueue, hserved⟩
  · refine ⟨[], ?_⟩
    by_cases hroom : w.queue.length < w.depth
    · rw [move, sends, enqueue_of_room hrunning hroom]
      refine ⟨?_, h.replies, h.session, h.published, .inl ⟨hrunning, hserved, rfl⟩⟩
      rw [h.order, List.append_assoc]
      rfl
    · rw [move, sends, enqueue_of_full hrunning hroom]
      rw [← List.append_nil sent] at h
      exact h
  · rw [move, sends, enqueue_of_stopped hstopped]
    refine ⟨refused ++ [call], ?_, ?_, h.session, h.published, .inr ⟨hstopped, hqueue, hserved⟩⟩
    · rw [h.order, hqueue]
      simp
    · rw [h.replies]
      simp

theorem Serves.work (h : w.Serves s sent served refused) :
    ∃ served' refused', w.step.Serves s sent served' refused' := by
  rcases h.cut with ⟨hrunning, hserved, rfl⟩ | ⟨hstopped, -, -⟩
  · cases hqueue : w.queue with
    | nil =>
        rw [step_of_nil hqueue]
        exact ⟨served, [], h⟩
    | cons call rest =>
        have hreplies := h.replies
        rw [List.map_nil, List.append_nil] at hreplies
        have horder : sent = served ++ [call] ++ rest := by
          rw [h.order, hqueue, List.append_nil, List.append_assoc]
          rfl
        have hsession : (s.answerAll (served ++ [call])).2 = (w.session.answer call).2 := by
          rw [Session.answerAll_concat, h.session]
        have hanswered : (s.answerAll (served ++ [call])).1
            = w.replies ++ [(w.session.answer call).1] := by
          rw [Session.answerAll_concat, hreplies, h.session]
        have hpublished : (s.answerAll (served ++ [call])).1.flatMap Reply.events
            = w.published ++ (w.session.answer call).1.events := by
          rw [hanswered, hreplies, List.flatMap_append, List.flatMap_singleton, h.published]
        by_cases hcall : call = .shutdown
        · subst hcall
          rw [step_of_shutdown hrunning hqueue]
          refine ⟨served ++ [.shutdown], rest, ?_, ?_, hsession.symm, hpublished.symm,
            .inr ⟨rfl, rfl, served, rfl, hserved⟩⟩
          · rw [horder, List.append_nil]
          · rw [hanswered]
        · rw [step_of_call hrunning hqueue hcall]
          refine ⟨served ++ [call], [], ?_, ?_, hsession.symm, hpublished.symm,
            .inl ⟨hrunning, ?_, rfl⟩⟩
          · rw [horder, List.append_nil]
          · rw [hanswered]
            exact (List.append_nil _).symm
          · rw [List.mem_append, List.mem_singleton]
            exact not_or.mpr ⟨hserved, Ne.symm hcall⟩
  · rw [step_of_stopped hstopped]
    exact ⟨served, refused, h⟩

theorem Serves.move (h : w.Serves s sent served refused) (m : Move) :
    ∃ served' refused', (w.move m).Serves s (sent ++ w.sends m) served' refused' := by
  cases m with
  | send call => exact ⟨served, h.send call⟩
  | work =>
      rw [sends, List.append_nil]
      exact h.work

/-! ## Any number of moves -/

theorem Serves.run (h : w.Serves s sent served refused) (moves : List Move) :
    ∃ served' refused', (w.run moves).Serves s (sent ++ w.sent moves) served' refused' := by
  induction moves generalizing w sent served refused with
  | nil => exact ⟨served, refused, by simpa [Worker.sent, Worker.run] using h⟩
  | cons m rest ih =>
      obtain ⟨served₁, refused₁, hmove⟩ := h.move m
      rw [Worker.sent, ← List.append_assoc]
      exact ih hmove

end Worker

end GameTable
