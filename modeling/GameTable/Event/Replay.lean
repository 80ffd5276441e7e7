import GameTable.Event.Apply

/-!
# Replaying a log

The state of a session is its genesis with the events of the log applied one after the other. A
log that cannot be replayed names the first event that does not fit.
-/

namespace GameTable

/-- An event of a log that does not fit, by its position. -/
structure ReplayError where
  index : Nat
  cause : ApplyError
deriving DecidableEq

namespace ReplayError

def message (e : ReplayError) : String :=
  "event #" ++ toString e.index ++ " failed to apply: " ++ e.cause.message

instance : Coded ReplayError := ⟨fun _ => "ReplayError", fun _ => .fatal, message⟩

end ReplayError

/-- Replays events of which the first has the position `index`. -/
def replayFrom (index : Nat) (s : State) : List Event → Except ReplayError State
  | [] => .ok s
  | e :: rest =>
    match e.apply s with
    | .ok s => replayFrom (index + 1) s rest
    | .error cause => .error ⟨index, cause⟩

/-- Applies the events of a log in order. -/
def replay (genesis : State) (events : List Event) : Except ReplayError State :=
  replayFrom 0 genesis events

theorem replayFrom_append (index : Nat) (s : State) (xs ys : List Event) :
    replayFrom index s (xs ++ ys)
      = match replayFrom index s xs with
        | .ok t => replayFrom (index + xs.length) t ys
        | .error e => .error e := by
  induction xs generalizing index s with
  | nil => rfl
  | cons x xs ih =>
    simp only [List.cons_append, replayFrom]
    cases x.apply s with
    | error cause => rfl
    | ok t =>
      simp only [ih, List.length_cons]
      rw [show index + 1 + xs.length = index + (xs.length + 1) by omega]

end GameTable
