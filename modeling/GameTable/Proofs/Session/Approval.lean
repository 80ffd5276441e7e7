import Mathlib.Control.Monad.Basic
import GameTable.Proofs.Session.Run

/-!
# Approvals, and what a refusal leaves behind

An approval is two commands in one submission: the question that waits is
taken away and the decision kept, and then the command in the question is run.
That command finds no question any more, so it approves nothing in turn, and
the bound on approvals within approvals is never met (`runWith_succ`).

The first part is committed before the second is even read, so if the second
fails, the answer is an error and the first part stays.

That is the only case in which an error other than one of the log leaves a
trace. `refused_unchanged_iff` says so: log and state are as before exactly if
the submission does not grant a question (`grants`), and if it does, they have
taken just the events of the approval.
-/

namespace GameTable

/-! ## Executing an approval -/

/-- The events by which a question that waits is granted. -/
def approvalEvents : List Event :=
  [.metadataChanged State.pendingAsk .null,
    .metadataChanged State.lastAdjudication (Builtin.decision true)]

/-- Both commands that approve settle the question in the same way. -/
theorem run_of_isApproval {ρ : Type} [Roller ρ] {command : String} (h : isApproval command = true) :
    ∃ b, Builtin.named? command = some b
      ∧ ∀ (input : Input) (s : State) (last : Option String) (manifest : Manifest)
        (ev : Evaluator ρ),
        b.run input s last manifest ev = (Builtin.settle b.name input s true, ev) := by
  simp only [isApproval, List.mem_cons, List.not_mem_nil, or_false, decide_eq_true_eq] at h
  rcases h with rfl | rfl
  · exact ⟨.allow, rfl, fun _ _ _ _ _ => rfl⟩
  · exact ⟨.adjudicate, rfl, fun _ _ _ _ _ => rfl⟩

theorem settle_eq_ok_iff {command : String} {input : Input} {s : State} {events : List Event}
    (h : s.metadata.contains State.pendingAsk = true) :
    Builtin.settle command input s true = .ok events
      ↔ input.isByGM = true ∧ events = approvalEvents := by
  unfold Builtin.settle
  cases input.isByGM with
  | false => simp
  | true => simp [h, approvalEvents, eq_comm]

/-- While a question waits, an approval succeeds just for the game master. -/
theorem execute_approval_eq_ok_iff {ρ : Type} [Roller ρ] {rules : Rules} {request : Request}
    {s : State} {last : Option String} {ev : Evaluator ρ} {events : List Event}
    (ha : isApproval (canonicalName request.input.command) = true)
    (hp : s.metadata.contains State.pendingAsk = true) :
    (rules.execute request s last ev).1 = .ok events
      ↔ request.input.isByGM = true ∧ events = approvalEvents := by
  obtain ⟨b, hn, hrun⟩ := run_of_isApproval (ρ := ρ) ha
  rw [Rules.execute]
  split
  · rename_i hsilent
    cases hgm : request.input.isByGM with
    | false => simp
    | true => simp [hgm] at hsilent
  · simp only [hn, hrun, settle_eq_ok_iff hp]

namespace State

theorem contains_of_pendingCommand? {s : State} {asked : String}
    (h : s.pendingCommand? = some asked) : s.metadata.contains pendingAsk = true := by
  unfold pendingCommand? at h
  cases ha : s.metadata.get? pendingAsk with
  | none =>
      rw [ha] at h
      cases h
  | some ask => rw [Dict.contains, ha, Option.isSome_some]

theorem pendingCommand?_of_none {s : State} (h : s.metadata.get? pendingAsk = none) :
    s.pendingCommand? = none := by
  rw [pendingCommand?, h]
  rfl

/-- An approval fits every state, and leaves no question behind. -/
theorem after?_approvalEvents (s : State) :
    ∃ t, s.after? approvalEvents = some t ∧ t.metadata.get? pendingAsk = none := by
  refine ⟨_, rfl, ?_⟩
  change ((s.metadata.erase pendingAsk).insert lastAdjudication _).get? pendingAsk = none
  rw [Dict.get?_insert_of_ne _ _ (by decide), Dict.get?_erase_self]

end State

namespace Session

variable {ρ lg : Type}

theorem approved?_eq_some_iff {s : Session ρ lg} {request : Request} {asked : String} :
    s.approved? request = some asked
      ↔ isApproval (canonicalName request.input.command) = true
        ∧ s.state.pendingCommand? = some asked := by
  rw [approved?]
  split
  · simp [*]
  · simp [*]

/-- Whether a session in working order takes a request for the game master's
approval of a question that waits. -/
def approves (s : Session ρ lg) (request : Request) : Bool :=
  !s.diverged && request.input.isByGM && (s.approved? request).isSome

theorem approves_eq_true_iff {s : Session ρ lg} {request : Request} :
    s.approves request = true ↔ s.diverged = false ∧ request.input.isByGM = true
      ∧ ∃ asked, s.approved? request = some asked := by
  simp only [approves, Bool.and_eq_true, Bool.not_eq_true', Option.isSome_iff_exists, and_assoc]

/-- Whether a submission is read as such an approval. -/
def grants (s : Session ρ lg) (sub : Submission) : Bool :=
  match s.request sub with
  | .ok request => s.approves request
  | .error _ => false

/-- What is granted is a question that waits. -/
theorem pendingCommand?_of_grants {s : Session ρ lg} {sub : Submission}
    (h : s.grants sub = true) : ∃ asked, s.state.pendingCommand? = some asked := by
  rw [grants] at h
  split at h
  · obtain ⟨-, -, asked, ha⟩ := approves_eq_true_iff.mp h
    exact ⟨asked, (approved?_eq_some_iff.mp ha).2⟩
  · cases h

variable [EventLog lg]

/-- What has taken an approval of a question is not what it was. -/
theorem Takes.state_ne {s t : Session ρ lg} (h : s.Takes approvalEvents t) {asked : String}
    (hp : s.state.pendingCommand? = some asked) : t.state ≠ s.state := by
  intro heq
  obtain ⟨u, hu, hnone⟩ := s.state.after?_approvalEvents
  obtain rfl : t.state = u := Option.some.inj (h.state.symm.trans hu)
  have hsome := State.contains_of_pendingCommand? hp
  rw [Dict.contains, ← heq, hnone] at hsome
  cases hsome

/-- No question waits any more after an approval. -/
theorem approved?_of_takes {s t : Session ρ lg} (h : s.Takes approvalEvents t)
    (request : Request) : t.approved? request = none := by
  obtain ⟨u, hu, hnone⟩ := s.state.after?_approvalEvents
  obtain rfl : t.state = u := Option.some.inj (h.state.symm.trans hu)
  rw [approved?, State.pendingCommand?_of_none hnone, ite_self]

variable [Roller ρ]

/-- If a request that approves a question is executed, the game master has made
it, and the approval is all that is committed. -/
theorem perform_approval {s t : Session ρ lg} {request : Request} {asked : String}
    {events : List Event} (ha : s.approved? request = some asked)
    (hp : s.perform request = (.ok events, t)) :
    request.input.isByGM = true ∧ s.Takes approvalEvents t := by
  obtain ⟨happ, hpend⟩ := approved?_eq_some_iff.mp ha
  have h := s.perform_outcome request
  rw [hp] at h
  cases h with
  | done hx ht =>
      obtain ⟨hgm, rfl⟩ :=
        (execute_approval_eq_ok_iff happ (State.contains_of_pendingCommand? hpend)).mp hx
      exact ⟨hgm, ht⟩

/-- The game master's approval of a question is executed, unless the log fails. -/
theorem perform_of_granted {s t : Session ρ lg} {request : Request} {asked : String}
    {e : SessionError} (hgm : request.input.isByGM = true)
    (ha : s.approved? request = some asked) (hp : s.perform request = (.error e, t)) :
    ∃ err, e = .storage err := by
  obtain ⟨happ, hpend⟩ := approved?_eq_some_iff.mp ha
  have hx : (s.rules.execute request s.state s.last s.evaluator).1 = .ok approvalEvents :=
    (execute_approval_eq_ok_iff happ (State.contains_of_pendingCommand? hpend)).mpr ⟨hgm, rfl⟩
  have h := s.perform_outcome request
  rw [hp] at h
  cases h with
  | refused hx' =>
      rw [hx] at hx'
      cases hx'
  | misfit hx' hnone =>
      rw [hx] at hx'
      obtain rfl := Except.ok.inj hx'
      obtain ⟨u, hu, -⟩ := s.state.after?_approvalEvents
      rw [hu] at hnone
      cases hnone
  | broken => exact ⟨_, rfl⟩

/-! ## One approval at a time -/

theorem runThen_congr {s : Session ρ lg} {request : Request}
    {resume resume' : Session ρ lg → String → Except SessionError (List Event) × Session ρ lg}
    (h : ∀ events t asked, s.perform request = (.ok events, t) →
      s.approved? request = some asked → resume t asked = resume' t asked) :
    s.runThen resume request = s.runThen resume' request := by
  cases hd : s.diverged with
  | true => rw [runThen_of_diverged hd, runThen_of_diverged hd]
  | false =>
      rcases hp : s.perform request with ⟨e | events, t⟩
      · rw [runThen_of_error hd hp, runThen_of_error hd hp]
      · cases ha : s.approved? request with
        | none => rw [runThen_of_unapproving hd hp ha, runThen_of_unapproving hd hp ha]
        | some asked =>
            rw [runThen_of_approving hd hp ha, runThen_of_approving hd hp ha,
              h events t asked hp ha]

theorem runWith_of_approved?_none {s : Session ρ lg} {request : Request}
    (h : s.approved? request = none) : ∀ n : Nat, s.runWith n request = s.runWith 0 request
  | 0 => rfl
  | _ + 1 => runThen_congr fun _ _ _ _ ha => by
      rw [h] at ha
      cases ha

/-- A command that is run because it was asked for finds no question that it
could approve, so it makes no difference how deep approvals may go. -/
theorem runWith_succ (n : Nat) (s : Session ρ lg) (request : Request) :
    s.runWith (n + 1) request = s.run request := by
  change s.runThen (runAsked (runWith n)) request = s.runThen (runAsked (runWith 0)) request
  refine runThen_congr fun events t asked hp ha => ?_
  have hquiet := approved?_of_takes (perform_approval ha hp).2
  rw [runAsked, runAsked]
  cases t.parse asked with
  | error e => rfl
  | ok input => exact runWith_of_approved?_none (hquiet _) n

/-! ## Refusals -/

/-- A command that approves nothing changes nothing if it fails. -/
theorem takes_of_runWith_zero_error {s t : Session ρ lg} {request : Request} {e : SessionError}
    (h : s.runWith 0 request = (.error e, t)) (hs : ∀ err, e ≠ .storage err) : s.Takes [] t := by
  have hx := s.runThen_outcome (fun s _ => (.ok [], s)) request
  change s.RunOutcome _ request (s.runWith 0 request) at hx
  rw [h] at hx
  cases hx with
  | halted => exact .refl s
  | failed _ _ hp => exact takes_of_perform_error hp hs
  | stranded _ _ _ hr => cases hr

theorem takes_of_runAsked_error {s t : Session ρ lg} {asked : String} {e : SessionError}
    (h : s.runAsked (runWith 0) asked = (.error e, t)) (hs : ∀ err, e ≠ .storage err) :
    s.Takes [] t := by
  rw [runAsked] at h
  cases hp : s.parse asked with
  | error e' =>
      rw [hp] at h
      cases h
      exact .refl s
  | ok input =>
      rw [hp] at h
      exact takes_of_runWith_zero_error h hs

/-- What a request has changed when it fails, but not because of the log: the
approval of a question stays, and nothing else does. -/
theorem takes_of_run_error {s t : Session ρ lg} {request : Request} {e : SessionError}
    (h : s.run request = (.error e, t)) (hs : ∀ err, e ≠ .storage err) :
    (s.approves request = false → s.Takes [] t)
      ∧ (s.approves request = true → s.Takes approvalEvents t) := by
  have hx := s.runThen_outcome (runAsked (runWith 0)) request
  change s.RunOutcome _ request (s.run request) at hx
  rw [h] at hx
  cases hx with
  | halted hd =>
      refine ⟨fun _ => .refl s, fun hg => ?_⟩
      rw [(approves_eq_true_iff.mp hg).1] at hd
      cases hd
  | failed _ _ hp =>
      refine ⟨fun _ => takes_of_perform_error hp hs, fun hg => ?_⟩
      obtain ⟨-, hgm, asked, ha⟩ := approves_eq_true_iff.mp hg
      obtain ⟨err, rfl⟩ := perform_of_granted hgm ha hp
      exact absurd rfl (hs err)
  | stranded hdiv hp ha hr =>
      obtain ⟨hgm, ht⟩ := perform_approval ha hp
      have hg : s.approves request = true := approves_eq_true_iff.mpr ⟨hdiv, hgm, _, ha⟩
      refine ⟨fun hng => ?_, fun _ => ht.trans (takes_of_runAsked_error hr hs)⟩
      rw [hg] at hng
      cases hng

theorem takes_of_receive_error {s t : Session ρ lg} {sub : Submission} {e : SessionError}
    (h : s.receive sub = (.error e, t)) (hs : ∀ err, e ≠ .storage err) :
    (s.grants sub = false → s.Takes [] t) ∧ (s.grants sub = true → s.Takes approvalEvents t) := by
  rw [grants]
  cases hr : s.request sub with
  | error e' =>
      rw [receive_of_unreadable hr] at h
      cases h
      exact ⟨fun _ => .refl s, fun hg => by cases hg⟩
  | ok request =>
      rw [receive_of_request hr] at h
      exact takes_of_run_error h hs

/-- Unless the log fails, an error leaves log and state as they were just if
what was submitted did not grant a question; if it did, they have taken the
approval and nothing else. -/
theorem refused_unchanged_iff {s t : Session ρ lg} {sub : Submission} {e : SessionError}
    (h : s.receive sub = (.error e, t)) (hs : ∀ err, e ≠ .storage err) :
    (t.log = s.log ∧ t.state = s.state ↔ s.grants sub = false)
      ∧ (s.grants sub = true → s.Takes approvalEvents t) := by
  obtain ⟨hkeep, htake⟩ := takes_of_receive_error h hs
  refine ⟨⟨fun hsame => ?_, fun hng => ⟨(hkeep hng).log_eq, (hkeep hng).state_eq⟩⟩, htake⟩
  -- A session that has taken an approval is not in the same state any more.
  cases hg : s.grants sub with
  | false => rfl
  | true =>
      obtain ⟨asked, hp⟩ := pendingCommand?_of_grants hg
      exact absurd hsame.2 ((htake hg).state_ne hp)

/-- A session with a question that waits and cannot be run. -/
theorem refused_allow_takes_approval :
    let s : Session DiceCup MemoryLog :=
      ⟨⟨.empty, .empty, false⟩, Line.parse, .new (.fixed 10) 100, .ofEvents [],
        State.empty.setMetadata State.pendingAsk (askDocument "GM" ["dance"]), none, false⟩
    (s.receive (.line "allow")).1 = .error (.command (.unknownCommand "dance"))
      ∧ s.grants (.line "allow") = true
      ∧ s.Takes approvalEvents (s.receive (.line "allow")).2 := by
  intro s
  have he : (s.receive (.line "allow")).1 = .error (.command (.unknownCommand "dance")) := by
    decide +kernel
  have hg : s.grants (.line "allow") = true := by decide +kernel
  exact ⟨he, hg, (refused_unchanged_iff (Prod.ext he rfl) fun _ h => by cases h).2 hg⟩

/-- The question is granted, the command in it is unknown, and the answer is an
error; but the approval is in the log. -/
theorem refused_allow_is_logged :
    ∃ s : Session DiceCup MemoryLog,
      start ⟨.empty, .empty, false⟩ Line.parse (.new (.fixed 10) 100)
          (.ofEvents [.askIssued "GM" ["nonsense"]]) = .ok s
        ∧ (s.receive (.line "allow")).1 = .error (.command (.unknownCommand "nonsense"))
        ∧ (s.receive (.line "allow")).2.log ≠ s.log
        ∧ (s.receive (.line "allow")).2.state ≠ s.state :=
  ⟨_, rfl, by decide +kernel, by decide +kernel, by decide +kernel⟩

end Session

end GameTable
