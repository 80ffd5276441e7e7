import GameTable.Proofs.Event.Paths
import GameTable.Proofs.Session.Approval

/-!
# How often a stored command is run

A command that waits for approval is stored as text in the metadata and may be
anything, an approval too. Running it is a recursion that nothing in the text
bounds. `Executes` is this recursion as it stands, with the stored commands
that it reads on the way; it always ends, in one way only, and reads at most
one (`approval_is_used_once`).

What ends it is that whoever decides on a question takes the question away with
the same events (`State.settled`), while the command is looked up before. From
then on there is no question until some event writes one (`Event.writesAsk`,
`State.after?_keeps_settled`), so neither the command that is run nor a second
approval finds anything to run.
-/

namespace GameTable

/-! ## Events that write a question -/

/-- Whether the event may put a question where there is none. A path below the
question makes the objects that lead to it; null only takes away. -/
def Event.writesAsk : Event → Bool
  | .askIssued .. => true
  | .metadataChanged key value =>
    !value.isNull && (Metadata.path? key).bind List.head? == some State.pendingAsk
  | _ => false

namespace Metadata

/-- Taking away makes no entry. -/
theorem get?_setAt_null {path : List String} {k : String} {members : List (String × Json)}
    (h : Entries.get? members k = none) : Entries.get? (setAt .null path members) k = none := by
  by_cases hhead : path.head? = some k
  · cases path with
    | nil => cases hhead
    | cons q rest =>
        obtain rfl := Option.some.inj hhead
        cases rest with
        | nil => exact Entries.get?_erase_self members q
        | cons q' rest =>
            rw [setAt, h]
            · exact h
            · exact List.cons_ne_nil q' rest
  · rw [get?_setAt_of_ne hhead, h]

end Metadata

namespace State

/-- No question waits. -/
def Settled (s : State) : Prop := s.metadata.get? pendingAsk = none

instance (s : State) : Decidable s.Settled := inferInstanceAs (Decidable (_ = _))

/-- The question that waits is one to the game master, about this command. -/
def AsksFor (s : State) (asked : String) : Prop :=
  ∃ ask target options, s.metadata.get? pendingAsk = some ask
    ∧ ask.member? "target" = some (.str target) ∧ isGM target = true
    ∧ ask.member? "options" = some (.arr (.str asked :: options))

theorem asksFor_of_pendingCommand? {s : State} {asked : String}
    (h : s.pendingCommand? = some asked) : s.AsksFor asked := by
  simp only [pendingCommand?, Option.bind_eq_bind, Option.bind_eq_some_iff] at h
  obtain ⟨ask, hask, name, hname, target, htarget, h⟩ := h
  obtain rfl : name = .str target := by
    cases name with
    | str text => rw [Option.some.inj htarget]
    | _ => cases htarget
  split at h
  · cases h
  · rename_i hgm
    obtain ⟨options, hoptions, h⟩ := Option.bind_eq_some_iff.mp h
    split at h
    · obtain rfl := Option.some.inj h
      exact ⟨ask, target, _, hask, hname, by simpa using hgm, hoptions⟩
    · cases h

theorem Settled.of_metadata_eq {s t : State} (h : s.Settled) (heq : t.metadata = s.metadata) :
    t.Settled := by
  rw [Settled, heq]
  exact h

theorem updateLoop_metadata {s t : State} {name : String} {f : Loop → Loop}
    (h : s.updateLoop name f = .ok t) : t.metadata = s.metadata := by
  obtain ⟨l, -, heq⟩ := bind_eq_ok_iff.mp h
  obtain rfl := Except.ok.inj heq
  rfl

theorem updateEntity_metadata {s t : State} {id : String} {f : Entity → Except ApplyError Entity}
    (h : s.updateEntity id f = .ok t) : t.metadata = s.metadata := by
  obtain ⟨x, y, -, -, rfl⟩ := updateEntity_eq_ok_iff.mp h
  rfl

/-- An event that writes no question leaves none where there was none. -/
theorem Settled.apply {s t : State} {e : Event} (h : s.Settled) (he : e.writesAsk = false)
    (happly : e.apply s = .ok t) : t.Settled := by
  cases e with
  | loopSwitched loop active =>
      obtain rfl := Except.ok.inj happly
      refine h.of_metadata_eq ?_
      rw [switchLoop]
      split
      · rfl
      · split <;> rfl
  | loopDirection => exact h.of_metadata_eq (updateLoop_metadata happly)
  | loopOrder => exact h.of_metadata_eq (updateLoop_metadata happly)
  | actorAdded => exact h.of_metadata_eq (updateLoop_metadata happly)
  | loopAdvanced => exact h.of_metadata_eq (updateLoop_metadata happly)
  | entityAdded =>
      obtain ⟨-, -, -, rfl⟩ := addEntity_eq_ok_iff.mp happly
      exact h
  | attributeChanged actor name key value =>
      rw [Event.apply] at happly
      split at happly
      · cases happly
      · exact h.of_metadata_eq (updateEntity_metadata happly)
  | spentAdded => exact h.of_metadata_eq (updateEntity_metadata happly)
  | conditionChanged => exact h.of_metadata_eq (updateEntity_metadata happly)
  | askIssued => cases he
  | hinted =>
      obtain rfl := Except.ok.inj happly
      exact h
  | diceRolled =>
      obtain rfl := Except.ok.inj happly
      exact h
  | metadataChanged key value =>
      rw [Event.apply] at happly
      split at happly
      · cases happly
      · rename_i path hpath
        obtain rfl := Except.ok.inj happly
        rw [Event.writesAsk, hpath, Option.bind_some, Bool.and_eq_false_iff,
          Bool.not_eq_false', beq_eq_false_iff_ne] at he
        rcases he with hnull | hhead
        · cases value with
          | null => exact Metadata.get?_setAt_null h
          | _ => cases hnull
        · exact (Metadata.get?_setAt_of_ne hhead _ _).trans h
  | checked =>
      obtain rfl := Except.ok.inj happly
      exact (Dict.get?_insert_of_ne _ _ (by decide)).trans h

/-- And so do any number of them. -/
theorem Settled.after? {s t : State} {events : List Event} (h : s.Settled)
    (hevents : ∀ e ∈ events, e.writesAsk = false) (hafter : s.after? events = some t) :
    t.Settled := by
  induction events generalizing s with
  | nil =>
      obtain rfl := Option.some.inj hafter
      exact h
  | cons e rest ih =>
      rw [List.forall_mem_cons] at hevents
      obtain ⟨u, hu, hrest⟩ := after?_next hafter
      exact ih (h.apply hevents.1 hu) hevents.2 hrest

end State

/-! ## Decisions -/

/-- Whether a command is one of those that decide on a question. -/
def isDecision (command : String) : Bool := command ∈ ["allow", "adjudicate", "deny"]

theorem isDecision_of_isApproval {command : String} (h : isApproval command = true) :
    isDecision command = true := by
  simp only [isApproval, List.mem_cons, List.not_mem_nil, or_false, decide_eq_true_eq] at h
  rcases h with rfl | rfl <;> decide

/-- The commands that decide differ in what is decided, and in nothing else. -/
theorem run_of_isDecision {ρ : Type} [Roller ρ] {command : String}
    (h : isDecision command = true) :
    ∃ b approved, Builtin.named? command = some b
      ∧ ∀ (input : Input) (s : State) (last : Option String) (manifest : Manifest)
        (ev : Evaluator ρ),
        b.run input s last manifest ev = (Builtin.settle b.name input s approved, ev) := by
  simp only [isDecision, List.mem_cons, List.not_mem_nil, or_false, decide_eq_true_eq] at h
  rcases h with rfl | rfl | rfl
  · exact ⟨.allow, true, rfl, fun _ _ _ _ _ => rfl⟩
  · exact ⟨.adjudicate, true, rfl, fun _ _ _ _ _ => rfl⟩
  · exact ⟨.deny, false, rfl, fun _ _ _ _ _ => rfl⟩

/-- The events of a decision take the question away, if there is one. -/
theorem State.settled_of_settle {command : String} {input : Input} {s t : State} {approved : Bool}
    {events : List Event} (h : Builtin.settle command input s approved = .ok events)
    (hafter : s.after? events = some t) : input.isByGM = true ∧ t.Settled := by
  rw [Builtin.settle] at h
  split at h
  · rename_i hgm
    refine ⟨hgm, ?_⟩
    obtain rfl := Except.ok.inj h
    split at hafter
    · obtain rfl := Option.some.inj hafter
      change ((s.metadata.erase pendingAsk).insert lastAdjudication _).get? pendingAsk = none
      rw [Dict.get?_insert_of_ne _ _ (by decide), Dict.get?_erase_self]
    · rename_i hnone
      obtain rfl := Option.some.inj hafter
      change (s.metadata.insert lastAdjudication _).get? pendingAsk = none
      rw [Dict.get?_insert_of_ne _ _ (by decide)]
      simpa [Dict.contains] using hnone
  · cases h

namespace Session

variable {ρ lg : Type}

theorem approved?_of_settled {s : Session ρ lg} (h : s.state.Settled) (request : Request) :
    s.approved? request = none := by
  rw [approved?, State.pendingCommand?_of_none h, ite_self]

variable [Roller ρ] [EventLog lg]

/-- Once a decision is committed, no question waits any more. -/
theorem settled_of_perform {s t : Session ρ lg} {request : Request} {events : List Event}
    (hd : isDecision (canonicalName request.input.command) = true)
    (hp : s.perform request = (.ok events, t)) :
    request.input.isByGM = true ∧ t.state.Settled := by
  have h := s.perform_outcome request
  rw [hp] at h
  cases h with
  | done hx ht =>
      obtain ⟨b, approved, hn, hrun⟩ := run_of_isDecision (ρ := ρ) hd
      rw [Rules.execute] at hx
      split at hx
      · cases hx
      · simp only [hn, hrun] at hx
        exact State.settled_of_settle hx ht.state

/-! ## Running a request, without a bound -/

/-- How a request runs: it is executed, and if it approves a command, that
command is read and run in the same way. The list has the stored commands that
are run, each with the session in which it is read. -/
inductive Executes : Session ρ lg → Request → List (Session ρ lg × String) →
    Except SessionError (List Event) × Session ρ lg → Prop
  | halted {s : Session ρ lg} {request : Request} : s.diverged = true →
      Executes s request [] (.error .diverged, s)
  | ignored {s t : Session ρ lg} {request : Request} : s.diverged = false →
      s.perform request = (.error (.command .ignored), t) → Executes s request [] (.ok [], t)
  | failed {s t : Session ρ lg} {request : Request} {e : SessionError} : s.diverged = false →
      e ≠ .command .ignored → s.perform request = (.error e, t) →
      Executes s request [] (.error e, t)
  | done {s t : Session ρ lg} {request : Request} {events : List Event} : s.diverged = false →
      s.perform request = (.ok events, t) → s.approved? request = none →
      Executes s request [] (.ok events, t)
  | unreadable {s t : Session ρ lg} {request : Request} {events : List Event} {asked : String}
      {e : LineError} : s.diverged = false → s.perform request = (.ok events, t) →
      s.approved? request = some asked → t.parse asked = .error e →
      Executes s request [(t, asked)] (.error (.line e), t)
  | reexecuted {s t u : Session ρ lg} {request : Request} {events : List Event} {asked : String}
      {input : Input} {stored : List (Session ρ lg × String)}
      {result : Except SessionError (List Event)} : s.diverged = false →
      s.perform request = (.ok events, t) → s.approved? request = some asked →
      t.parse asked = .ok input → Executes t ⟨input, some asked, true⟩ stored (result, u) →
      Executes s request ((t, asked) :: stored) (result.map (events ++ ·), u)

/-- A request that approves nothing runs nothing else. -/
theorem executes_runWith_zero {s : Session ρ lg} {request : Request}
    (h : s.approved? request = none) : s.Executes request [] (s.runWith 0 request) := by
  have hx := s.runThen_outcome (fun s _ => (.ok [], s)) request
  change s.RunOutcome _ request (s.runWith 0 request) at hx
  generalize s.runWith 0 request = outcome at hx
  cases hx with
  | halted hd => exact .halted hd
  | ignored hd hp => exact .ignored hd hp
  | failed hd he hp => exact .failed hd he hp
  | done hd hp ha => exact .done hd hp ha
  | resumed _ _ ha =>
      rw [h] at ha
      cases ha
  | stranded _ _ ha =>
      rw [h] at ha
      cases ha

/-- A stored command finds no question that it could approve. -/
theorem executes_runAsked {s t u : Session ρ lg} {request : Request} {events : List Event}
    {asked : String} {result : Except SessionError (List Event)} (hd : s.diverged = false)
    (hp : s.perform request = (.ok events, t)) (ha : s.approved? request = some asked)
    (hr : t.runAsked (runWith 0) asked = (result, u)) :
    ∃ stored, s.Executes request stored (result.map (events ++ ·), u) := by
  have hdecision := isDecision_of_isApproval (approved?_eq_some_iff.mp ha).1
  have hsettled := (settled_of_perform hdecision hp).2
  rw [runAsked] at hr
  cases hparse : t.parse asked with
  | error e =>
      rw [hparse] at hr
      obtain ⟨rfl, rfl⟩ := Prod.mk.inj hr
      exact ⟨_, .unreadable hd hp ha hparse⟩
  | ok input =>
      have hquiet := approved?_of_settled hsettled ⟨input, some asked, true⟩
      have hnested := executes_runWith_zero hquiet
      rw [hparse] at hr
      simp only [hr] at hnested
      exact ⟨_, .reexecuted hd hp ha hparse hnested⟩

/-- The recursion ends, and the engine does the same. -/
theorem executes_run (s : Session ρ lg) (request : Request) :
    ∃ stored, s.Executes request stored (s.run request) := by
  have hx := s.runThen_outcome (runAsked (runWith 0)) request
  change s.RunOutcome _ request (s.run request) at hx
  generalize s.run request = outcome at hx
  cases hx with
  | halted hd => exact ⟨[], .halted hd⟩
  | ignored hd hp => exact ⟨[], .ignored hd hp⟩
  | failed hd he hp => exact ⟨[], .failed hd he hp⟩
  | done hd hp ha => exact ⟨[], .done hd hp ha⟩
  | resumed hd hp ha hr => exact executes_runAsked hd hp ha hr
  | stranded hd hp ha hr => exact executes_runAsked hd hp ha hr

/-- There is one way to run a request. -/
theorem Executes.unique {s : Session ρ lg} {request : Request}
    {stored stored' : List (Session ρ lg × String)}
    {outcome outcome' : Except SessionError (List Event) × Session ρ lg}
    (h : s.Executes request stored outcome) (h' : s.Executes request stored' outcome') :
    stored' = stored ∧ outcome' = outcome := by
  induction h generalizing stored' outcome' with
  | halted hd => cases h' <;> simp_all
  | ignored hd hp => cases h' <;> simp_all
  | failed hd he hp => cases h' <;> simp_all
  | done hd hp ha => cases h' <;> simp_all
  | unreadable hd hp ha hparse => cases h' <;> simp_all
  | reexecuted hd hp ha hparse _ ih =>
      cases h' with
      | reexecuted hd' hp' ha' hparse' hnested =>
          obtain ⟨hevents, rfl⟩ := Prod.mk.inj (hp.symm.trans hp')
          obtain rfl := Except.ok.inj hevents
          obtain rfl := Option.some.inj (ha.symm.trans ha')
          obtain rfl := Except.ok.inj (hparse.symm.trans hparse')
          obtain ⟨rfl, heq⟩ := ih hnested
          obtain ⟨rfl, rfl⟩ := Prod.mk.inj heq
          exact ⟨rfl, rfl⟩
      | _ => simp_all

/-- Where no question waits, nothing stored is run. -/
theorem Executes.eq_nil {s : Session ρ lg} {request : Request}
    {stored : List (Session ρ lg × String)}
    {outcome : Except SessionError (List Event) × Session ρ lg}
    (h : s.Executes request stored outcome) (hsettled : s.state.Settled) : stored = [] := by
  have hquiet := approved?_of_settled hsettled request
  cases h with
  | unreadable _ _ ha =>
      rw [hquiet] at ha
      cases ha
  | reexecuted _ _ ha =>
      rw [hquiet] at ha
      cases ha
  | _ => rfl

/-- A stored command that is run is the only one, and it is what an approval
has taken from the question to the game master that waited. -/
theorem Executes.eq_nil_or {s : Session ρ lg} {request : Request}
    {stored : List (Session ρ lg × String)}
    {outcome : Except SessionError (List Event) × Session ρ lg}
    (h : s.Executes request stored outcome) :
    stored = [] ∨ ∃ t asked, stored = [(t, asked)] ∧ s.diverged = false
      ∧ s.approved? request = some asked ∧ ∃ events, s.perform request = (.ok events, t) := by
  cases h with
  | unreadable hd hp ha => exact .inr ⟨_, _, rfl, hd, ha, _, hp⟩
  | reexecuted hd hp ha _ hnested =>
      have hdecision := isDecision_of_isApproval (approved?_eq_some_iff.mp ha).1
      obtain rfl := hnested.eq_nil (settled_of_perform hdecision hp).2
      exact .inr ⟨_, _, rfl, hd, ha, _, hp⟩
  | _ => exact .inl rfl

/-! ## Submissions -/

/-- How a submission runs. One that cannot be read runs nothing. -/
inductive Receives (s : Session ρ lg) (sub : Submission) : List (Session ρ lg × String) →
    Except SessionError (List Event) × Session ρ lg → Prop
  | unreadable {e : LineError} : s.request sub = .error e → Receives s sub [] (.error (.line e), s)
  | read {request : Request} {stored : List (Session ρ lg × String)}
      {outcome : Except SessionError (List Event) × Session ρ lg} :
      s.request sub = .ok request → s.Executes request stored outcome →
      Receives s sub stored outcome

/-- The submission is accepted as the command, and `t` is the session right
after the events of the command itself. -/
def Accepts (s : Session ρ lg) (sub : Submission) (command : String) (t : Session ρ lg) : Prop :=
  s.diverged = false ∧ ∃ request events, s.request sub = .ok request
    ∧ canonicalName request.input.command = command ∧ s.perform request = (.ok events, t)

theorem receives_receive (s : Session ρ lg) (sub : Submission) :
    ∃ stored, s.Receives sub stored (s.receive sub) := by
  cases hr : s.request sub with
  | error e =>
      rw [receive_of_unreadable hr]
      exact ⟨[], .unreadable hr⟩
  | ok request =>
      rw [receive_of_request hr]
      obtain ⟨stored, h⟩ := s.executes_run request
      exact ⟨stored, .read hr h⟩

theorem Receives.unique {s : Session ρ lg} {sub : Submission}
    {stored stored' : List (Session ρ lg × String)}
    {outcome outcome' : Except SessionError (List Event) × Session ρ lg}
    (h : s.Receives sub stored outcome) (h' : s.Receives sub stored' outcome') :
    stored' = stored ∧ outcome' = outcome := by
  cases h with
  | unreadable hr =>
      cases h' with
      | unreadable hr' =>
          obtain rfl := Except.error.inj (hr.symm.trans hr')
          exact ⟨rfl, rfl⟩
      | read hr' => cases hr.symm.trans hr'
  | read hr hx =>
      cases h' with
      | unreadable hr' => cases hr.symm.trans hr'
      | read hr' hx' =>
          obtain rfl := Except.ok.inj (hr.symm.trans hr')
          exact hx.unique hx'

theorem Receives.eq_nil {s : Session ρ lg} {sub : Submission}
    {stored : List (Session ρ lg × String)}
    {outcome : Except SessionError (List Event) × Session ρ lg}
    (h : s.Receives sub stored outcome) (hsettled : s.state.Settled) : stored = [] := by
  cases h with
  | unreadable => rfl
  | read _ hx => exact hx.eq_nil hsettled

/-- A stored command that is run is the only one, and the submission is an
approval of the question in which it stood. -/
theorem Receives.eq_nil_or {s : Session ρ lg} {sub : Submission}
    {stored : List (Session ρ lg × String)}
    {outcome : Except SessionError (List Event) × Session ρ lg}
    (h : s.Receives sub stored outcome) :
    stored = [] ∨ ∃ t asked command, stored = [(t, asked)] ∧ isApproval command = true
      ∧ s.Accepts sub command t ∧ s.state.AsksFor asked := by
  cases h with
  | unreadable => exact .inl rfl
  | @read request _ _ hr hx =>
      rcases hx.eq_nil_or with hnil | ⟨t, asked, hstored, hworking, ha, events, hp⟩
      · exact .inl hnil
      · obtain ⟨happroval, hpending⟩ := approved?_eq_some_iff.mp ha
        exact .inr ⟨t, asked, _, hstored, happroval, ⟨hworking, request, events, hr, rfl, hp⟩,
          State.asksFor_of_pendingCommand? hpending⟩

/-! ## States along the way -/

omit [Roller ρ] in
theorem Accounts.after? {s : Session ρ lg}
    {outcome : Except SessionError (List Event) × Session ρ lg} (h : s.Accounts outcome) :
    ∃ events, s.state.after? events = some outcome.2.state := by
  cases h with
  | ok ht => exact ⟨_, ht.state⟩
  | broken hb => exact ⟨_, hb.state⟩
  | error _ ht => exact ⟨_, ht.state⟩

theorem after?_receiveAll (s : Session ρ lg) :
    ∀ subs : List Submission, ∃ events, s.state.after? events = some (s.receiveAll subs).state
  | [] => ⟨[], rfl⟩
  | sub :: rest => by
      obtain ⟨events, h⟩ := (s.accounts_receive sub).after?
      obtain ⟨more, h'⟩ := after?_receiveAll (s.receive sub).2 rest
      exact ⟨events ++ more, (State.after?_append_of_some h more).trans h'⟩

/-- What follows the events of an accepted command is the run of a stored one,
if the command approves. -/
theorem Accepts.after? {s t : Session ρ lg} {sub : Submission} {command : String}
    (h : s.Accepts sub command t) :
    (∃ events, t.state.after? events = some (s.receive sub).2.state)
      ∧ (isApproval command = false → (s.receive sub).2 = t) := by
  obtain ⟨hd, request, events, hr, rfl, hp⟩ := h
  rw [receive_of_request hr]
  have hx := s.runThen_outcome (runAsked (runWith 0)) request
  change s.RunOutcome _ request (s.run request) at hx
  have hasked : ∀ {asked u result}, s.approved? request = some asked →
      t.runAsked (runWith 0) asked = (result, u) →
      (∃ events, t.state.after? events = some u.state)
        ∧ (isApproval (canonicalName request.input.command) = false → u = t) := by
    intro asked u result ha hu
    have haccounts := accounts_runAsked (accounts_runWith 0) t asked
    rw [hu] at haccounts
    refine ⟨haccounts.after?, fun hno => ?_⟩
    rw [(approved?_eq_some_iff.mp ha).1] at hno
    cases hno
  generalize s.run request = outcome at hx
  cases hx with
  | halted hd' =>
      rw [hd] at hd'
      cases hd'
  | ignored _ hp' => cases hp.symm.trans hp'
  | failed _ _ hp' => cases hp.symm.trans hp'
  | done _ hp' _ =>
      obtain ⟨-, rfl⟩ := Prod.mk.inj (hp.symm.trans hp')
      exact ⟨⟨[], rfl⟩, fun _ => rfl⟩
  | resumed _ hp' ha hu =>
      obtain ⟨-, rfl⟩ := Prod.mk.inj (hp.symm.trans hp')
      exact hasked ha hu
  | stranded _ hp' ha hu =>
      obtain ⟨-, rfl⟩ := Prod.mk.inj (hp.symm.trans hp')
      exact hasked ha hu

/-- A question to the game master is used once. Whatever the stored command is,
running a submission ends, and in one way. It runs at most one stored command:
the first option of the question to the game master that waited before, and
only for an approval that was accepted. After the events of any decision no
question waits, and as long as no event writes one, nothing stored is run. -/
theorem approval_is_used_once (s : Session ρ lg) (sub : Submission) :
    (∃ stored, s.Receives sub stored (s.receive sub)
      ∧ (∀ stored' outcome, s.Receives sub stored' outcome →
        stored' = stored ∧ outcome = s.receive sub)
      ∧ (stored = [] ∨ ∃ t asked command, stored = [(t, asked)] ∧ isApproval command = true
        ∧ s.Accepts sub command t ∧ s.state.AsksFor asked))
    ∧ ∀ command t, isDecision command = true → s.Accepts sub command t →
      t.state.Settled ∧ (command = "deny" → (s.receive sub).2 = t)
        ∧ ∀ subs, (∃ events,
            t.state.after? events = some ((s.receive sub).2.receiveAll subs).state)
          ∧ ∀ events, t.state.after? events = some ((s.receive sub).2.receiveAll subs).state →
            (∀ e ∈ events, e.writesAsk = false) → ∀ sub' stored outcome,
              ((s.receive sub).2.receiveAll subs).Receives sub' stored outcome → stored = [] := by
  refine ⟨?_, fun command t hd haccepts => ?_⟩
  · obtain ⟨stored, h⟩ := s.receives_receive sub
    exact ⟨stored, h, fun stored' outcome h' => h.unique h', h.eq_nil_or⟩
  · obtain ⟨⟨more, hmore⟩, hsame⟩ := haccepts.after?
    obtain ⟨-, request, events, -, rfl, hp⟩ := haccepts
    have hsettled := (settled_of_perform hd hp).2
    refine ⟨hsettled, fun hdeny => hsame (by rw [hdeny]; rfl), fun subs => ⟨?_, ?_⟩⟩
    · obtain ⟨later, hlater⟩ := (s.receive sub).2.after?_receiveAll subs
      exact ⟨more ++ later, (State.after?_append_of_some hmore later).trans hlater⟩
    · intro between hbetween hwrites sub' stored outcome h
      exact h.eq_nil (hsettled.after? hwrites hbetween)

/-- An approval after a denial finds nothing to run. -/
theorem denied_command_is_not_run :
    let s : Session DiceCup MemoryLog :=
      ⟨⟨.empty, .empty, false⟩, Line.parse, .new (.fixed 10) 100, .ofEvents [],
        State.empty.setMetadata State.pendingAsk (askDocument "GM" ["roll dice: 1d6"]), none, false⟩
    s.state.AsksFor "roll dice: 1d6" ∧ (s.receive (.line "deny")).2.state.Settled
      ∧ ∀ stored outcome, (s.receive (.line "deny")).2.Receives (.line "allow") stored outcome →
        stored = [] := by
  intro s
  have haccepts : s.Accepts (.line "deny") "deny"
      (s.perform ⟨.ofCommand "deny", some "deny", false⟩).2 :=
    ⟨rfl, ⟨.ofCommand "deny", some "deny", false⟩,
      [.metadataChanged State.pendingAsk .null,
        .metadataChanged State.lastAdjudication (Builtin.decision false)],
      by decide +kernel, by decide +kernel, Prod.ext (by decide +kernel) rfl⟩
  obtain ⟨hsettled, hsame, hlater⟩ :=
    (s.approval_is_used_once (.line "deny")).2 "deny" _ (by decide) haccepts
  have hnow := (hlater []).2 []
  rw [hsame rfl] at hnow ⊢
  simp only [receiveAll, State.after?_nil, true_imp_iff] at hnow
  have hasks : s.state.AsksFor "roll dice: 1d6" :=
    ⟨_, "GM", [], Dict.get?_insert_self .., by decide +kernel, by decide +kernel, by decide +kernel⟩
  exact ⟨hasks, hsettled, hnow (List.forall_mem_nil _) (.line "allow")⟩

end Session

end GameTable
