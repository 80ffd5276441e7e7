import GameTable.Command.Line
import GameTable.Log.Memory
import GameTable.Proofs.Command.Gate
import GameTable.Proofs.Session.Submission

/-!
# A frozen game

The freeze is the first of the gates, before anything that rolls dice or makes
an event. A request of a player that stops there is not even answered with an
error, and it leaves the whole session as it was (`receive_of_frozen`). So the
session that takes the next submission is the same frozen session, and nothing
that players submit one after the other ends the freeze
(`frozen_game_ignores_players`).
-/

namespace GameTable

variable {ρ lg : Type}

theorem State.isFrozen_eq_true_iff {s : State} :
    s.isFrozen = true ↔ s.metadata.get? frozen = some (.bool true) := by
  rw [isFrozen]
  cases s.metadata.get? frozen with
  | none => simp
  | some j =>
      cases j with
      | bool b => simp
      | _ => simp

namespace Session

/-- What is submitted is not by the game master, as far as it can be read. -/
def ByPlayer (s : Session ρ lg) (sub : Submission) : Prop :=
  ∀ request, s.request sub = .ok request → request.input.isByGM = false

variable [Roller ρ] [EventLog lg]

theorem runThen_of_frozen {s : Session ρ lg} {request : Request} (hfrozen : s.state.isFrozen = true)
    (hplayer : request.input.isByGM = false) (hd : s.diverged = false)
    (resume : Session ρ lg → String → Except SessionError (List Event) × Session ρ lg) :
    s.runThen resume request = (.ok [], s) := by
  have hperform : s.perform request = (.error (.command .ignored), s) := by
    rw [perform, Rules.execute_of_frozen hfrozen hplayer]
  rw [runThen_of_error hd hperform, if_pos rfl]

theorem receive_of_frozen {s : Session ρ lg} {sub : Submission} (hfrozen : s.state.isFrozen = true)
    (hplayer : s.ByPlayer sub) :
    ∃ answer, s.receive sub = (answer, s)
      ∧ (answer = .ok [] ∨ (∃ e, answer = .error (.line e)) ∨ answer = .error .diverged) := by
  cases hread : s.request sub with
  | error e => exact ⟨_, receive_of_unreadable hread, .inr (.inl ⟨e, rfl⟩)⟩
  | ok request =>
      rw [receive_of_request hread, run, runWith]
      cases hd : s.diverged with
      | true =>
          rw [runThen_of_diverged hd]
          exact ⟨_, rfl, .inr (.inr rfl)⟩
      | false =>
          rw [runThen_of_frozen hfrozen (hplayer request hread) hd]
          exact ⟨_, rfl, .inl rfl⟩

/-- While the game is frozen nothing that players submit changes the session,
and they are answered with nothing unless what they typed cannot be read or the
session has diverged. -/
theorem frozen_game_ignores_players (s : Session ρ lg) (subs : List Submission)
    (hfrozen : s.state.metadata.get? State.frozen = some (.bool true))
    (hplayers : ∀ sub ∈ subs, s.ByPlayer sub) :
    s.receiveAll subs = s
      ∧ ∀ answer ∈ s.answers subs,
        answer = .ok [] ∨ (∃ e, answer = .error (.line e)) ∨ answer = .error .diverged := by
  induction subs with
  | nil =>
      rw [receiveAll, answers]
      exact ⟨rfl, List.forall_mem_nil _⟩
  | cons sub rest ih =>
      rw [List.forall_mem_cons] at hplayers
      obtain ⟨answer, hreceive, hanswer⟩ :=
        receive_of_frozen (State.isFrozen_eq_true_iff.mpr hfrozen) hplayers.1
      -- The rest is submitted to the very same session.
      obtain ⟨hsame, hrest⟩ := ih hplayers.2
      rw [receiveAll, answers, hreceive, List.forall_mem_cons]
      exact ⟨hsame, hanswer, hrest⟩

/-- A frozen table with a command that lifts the freeze. -/
def frozenTable : Session DiceCup MemoryLog :=
  ⟨⟨⟨[], [], .ofList [("unfreeze", {
      name := "unfreeze", params := [], prereqs := [], targets := [], actor := [], hint := "",
      help := "", usage := "", turn := none,
      game := [⟨"lift", "\x7b'key': 'frozen', 'value': null\x7d", "MetadataChangedEvent", none⟩]
      })]⟩, .empty, false⟩, Line.parse, .new (.scripted [15]) 100, .ofEvents [],
    State.empty.setMetadata State.frozen (.bool true), none, false⟩

/-- A player rolls dice, types nothing, and would lift the freeze. -/
theorem frozen_game_ignores_fighter :
    let subs : List Submission := [.line "roll dice: 1d20 by: fighter", .line " ",
      .input ⟨"unfreeze", "fighter", [], ∅⟩]
    frozenTable.receiveAll subs = frozenTable
      ∧ (frozenTable.receiveAll subs).state.isFrozen = true := by
  intro subs
  have htyped : frozenTable.request (.line "roll dice: 1d20 by: fighter")
      = .ok ⟨⟨"roll", "fighter", [], .ofList [("dice", .str "1d20")]⟩,
        some "roll dice: 1d20 by: fighter", false⟩ := by decide +kernel
  have hblank : (frozenTable.request (.line " ")).toOption = none := by decide +kernel
  have hplayers : ∀ sub ∈ subs, frozenTable.ByPlayer sub := by
    rw [List.forall_mem_cons, List.forall_mem_cons, List.forall_mem_singleton]
    refine ⟨?_, ?_, ?_⟩
    · intro request hread
      cases htyped.symm.trans hread
      decide +kernel
    · intro request hread
      rw [hread] at hblank
      cases hblank
    · intro request hread
      cases hread
      decide +kernel
  have hfrozen : frozenTable.state.metadata.get? State.frozen = some (.bool true) := by
    decide +kernel
  have hsame := (frozen_game_ignores_players frozenTable subs hfrozen hplayers).1
  refine ⟨hsame, ?_⟩
  rw [hsame]
  exact State.isFrozen_eq_true_iff.mpr hfrozen

end Session
end GameTable
