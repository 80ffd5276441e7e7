import GameTable.Session.Basic
import GameTable.State.Digest

/-!
# The worker of a session

Several clients may use a session. All of them put their calls into one queue of a worker, which
answers them one at a time in the order of the queue; the queue takes only so many calls at once.
The events of every submission that succeeds are published, in the order in which they were
committed. The call to shut down is the last one that is answered: whatever stands in the queue
after it, or comes later, finds the worker closed.
-/

namespace GameTable

/-- What a client asks of a worker. -/
inductive Call where
  | submit (line : String)
  | snapshot
  | verify
  | shutdown
deriving DecidableEq, Repr

inductive Reply where
  | submitted (result : Except SessionError (List Event))
  | state (result : Except SessionError State)
  | verified (result : Except SessionError Bool)
  | ended (result : Except SessionError Unit)

/-- The reply to a call that finds the worker closed. -/
def Call.refused : Call → Reply
  | .submit _ => .submitted (.error .workerClosed)
  | .snapshot => .state (.error .workerClosed)
  | .verify => .verified (.error .workerClosed)
  | .shutdown => .ended (.error .workerClosed)

/-- The events that a reply makes public. -/
def Reply.events : Reply → List Event
  | .submitted (.ok events) => events
  | _ => []

/-- Answers one call on a session. -/
def Session.answer {ρ lg : Type} [Roller ρ] [EventLog lg] (s : Session ρ lg) :
    Call → Reply × Session ρ lg
  | .submit line =>
    let (result, s) := s.submit line
    (.submitted result, s)
  | .snapshot => (.state (.ok s.state), s)
  | .verify => (.verified s.verify, s)
  | .shutdown =>
    let (result, log) := s.close
    (.ended result, { s with log })

structure Worker (ρ lg : Type) where
  session : Session ρ lg
  /-- How many calls the queue takes. -/
  depth : Nat
  /-- The calls that wait, the oldest first. -/
  queue : List Call
  /-- The replies so far, in the order of the calls. -/
  replies : List Reply
  published : List Event
  running : Bool

namespace Worker

variable {ρ lg : Type}

/-- A worker on a session. Its queue takes at least one call. -/
def spawn (session : Session ρ lg) (depth : Nat) : Worker ρ lg :=
  ⟨session, max depth 1, [], [], [], true⟩

/-- Puts a call into the queue, if there is room. A client of a full queue waits. -/
def enqueue (w : Worker ρ lg) (call : Call) : Option (Worker ρ lg) :=
  if w.running then
    if w.queue.length < w.depth then some { w with queue := w.queue ++ [call] } else none
  else some { w with replies := w.replies ++ [call.refused] }

/-- Answers the oldest call in the queue. -/
def step [Roller ρ] [EventLog lg] (w : Worker ρ lg) : Worker ρ lg :=
  match w.running, w.queue with
  | true, call :: rest =>
    let (reply, session) := w.session.answer call
    let w := { w with
      session
      queue := rest
      replies := w.replies ++ [reply]
      published := w.published ++ reply.events }
    if call = .shutdown then
      { w with running := false, queue := [], replies := w.replies ++ rest.map Call.refused }
    else w
  | _, _ => w

/-- Makes a call when nothing waits in the queue, and waits for the reply. -/
def call [Roller ρ] [EventLog lg] (w : Worker ρ lg) (call : Call) : Reply × Worker ρ lg :=
  match w.enqueue call with
  | some w =>
    let w := w.step
    (w.replies.getLastD call.refused, w)
  | none => (call.refused, w)

end Worker

end GameTable
