import GameTable.Session.Basic

/-!
# Submissions

What may be given to a session: a line, or input that was not typed. A run of
a session is any list of submissions, taken one after the other
(`Session.receiveAll`). A session that has diverged answers and does nothing
else (`receiveAll_of_diverged`).
-/

namespace GameTable

inductive Submission where
  | line (text : String)
  | input (input : Input)

namespace Session

variable {ρ lg : Type}

/-- The request that a submission makes, if it can be read. -/
def request (s : Session ρ lg) : Submission → Except LineError Request
  | .line text =>
    (s.parse (Text.trim text)).map fun input => ⟨input, some (Text.trim text), false⟩
  | .input input => .ok (.ofInput input)

variable [Roller ρ] [EventLog lg]

def receive (s : Session ρ lg) : Submission → Except SessionError (List Event) × Session ρ lg
  | .line text => s.submit text
  | .input input => s.submitInput input

/-- The session after a list of submissions, whatever came of each. -/
def receiveAll (s : Session ρ lg) : List Submission → Session ρ lg
  | [] => s
  | sub :: rest => (s.receive sub).2.receiveAll rest

/-- What a session answers to each of a list of submissions. -/
def answers (s : Session ρ lg) : List Submission → List (Except SessionError (List Event))
  | [] => []
  | sub :: rest => (s.receive sub).1 :: (s.receive sub).2.answers rest

theorem receive_of_unreadable {s : Session ρ lg} {sub : Submission} {e : LineError}
    (h : s.request sub = .error e) : s.receive sub = (.error (.line e), s) := by
  cases sub with
  | line text =>
      rw [request] at h
      cases hp : s.parse (Text.trim text) with
      | error e' =>
          rw [hp] at h
          obtain rfl := Except.error.inj h
          rw [receive, submit, hp]
      | ok input =>
          rw [hp] at h
          cases h
  | input input => cases h

theorem receive_of_request {s : Session ρ lg} {sub : Submission} {request : Request}
    (h : s.request sub = .ok request) : s.receive sub = s.run request := by
  cases sub with
  | line text =>
      rw [Session.request] at h
      cases hp : s.parse (Text.trim text) with
      | error e =>
          rw [hp] at h
          cases h
      | ok input =>
          rw [hp] at h
          obtain rfl := Except.ok.inj h
          rw [receive, submit, hp]
  | input input =>
      obtain rfl := Except.ok.inj h
      rfl

/-! ## Running a request -/

section Resume

variable {resume : Session ρ lg → String → Except SessionError (List Event) × Session ρ lg}
  {s t : Session ρ lg} {request : Request}

theorem runThen_of_error {e : SessionError} (hd : s.diverged = false)
    (hp : s.perform request = (.error e, t)) :
    s.runThen resume request = (if e = .command .ignored then .ok [] else .error e, t) := by
  by_cases he : e = .command .ignored
  · subst he
    simp only [runThen, hd, hp, Bool.false_eq_true, if_false, if_true]
  · simp only [runThen, hd, hp, he, Bool.false_eq_true, if_false]

theorem runThen_of_unapproving {events : List Event} (hd : s.diverged = false)
    (hp : s.perform request = (.ok events, t)) (ha : s.approved? request = none) :
    s.runThen resume request = (.ok events, t) := by
  simp only [runThen, hd, hp, ha, Bool.false_eq_true, if_false]

theorem runThen_of_approving {events : List Event} {asked : String} (hd : s.diverged = false)
    (hp : s.perform request = (.ok events, t)) (ha : s.approved? request = some asked) :
    s.runThen resume request = ((resume t asked).1.map (events ++ ·), (resume t asked).2) := by
  rcases hr : resume t asked with ⟨e | more, u⟩
  · simp only [runThen, hd, hp, ha, hr, Bool.false_eq_true, if_false, Except.map]
  · simp only [runThen, hd, hp, ha, hr, Bool.false_eq_true, if_false, Except.map]

end Resume

/-! ## Diverged sessions -/

theorem runThen_of_diverged {s : Session ρ lg} (h : s.diverged = true)
    (resume : Session ρ lg → String → Except SessionError (List Event) × Session ρ lg)
    (request : Request) : s.runThen resume request = (.error .diverged, s) := by
  rw [runThen, if_pos h]

end Session

end GameTable
