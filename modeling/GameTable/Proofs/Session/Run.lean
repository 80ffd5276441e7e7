import GameTable.Proofs.Session.Commit

/-!
# What a request does to a session

Everything a session does comes down to committing, and the evaluator and the
last command are all that changes besides. This file says so once, for each of
the layers above `commit`: `perform_outcome` lists the ends of executing one
request, `runThen_outcome` those of a request with what follows an approval.
Both leave the session related to the one before in one of two ways:

- `Takes events`: log and state have both taken just these events;
- `Breaks kept err`: they have taken those in `kept`, and then the log has
  refused one with `err`.

Which of them it is shows in the answer (`Accounts`): a request that succeeds
answers with what has been taken, and a failure of the log is what a broken
command answers with. Under a lawful log both amount to the same for whoever
loads the log again, which is `Advances`.
-/

namespace GameTable

namespace Session

variable {ρ lg : Type} [EventLog lg]

/-! ## Sessions before and after -/

/-- `t` is `s` after its log and its state have taken the same events. -/
structure Takes (s : Session ρ lg) (events : List Event) (t : Session ρ lg) : Prop where
  rules : t.rules = s.rules
  parse : t.parse = s.parse
  diverged : t.diverged = s.diverged
  state : s.state.after? events = some t.state
  log : EventLog.after? s.log events = some t.log

/-- `t` is `s` after the log has refused an event that came after those in
`kept`. -/
structure Breaks (s : Session ρ lg) (kept : List Event) (err : LogError) (t : Session ρ lg) :
    Prop where
  rules : t.rules = s.rules
  parse : t.parse = s.parse
  state : s.state.after? kept = some t.state
  log : ∃ m e, EventLog.after? s.log kept = some m ∧ EventLog.append m e = (.error err, t.log)

/-- `t` is `s` with events in the state and at the end of what the log holds. -/
structure Advances (s : Session ρ lg) (events : List Event) (t : Session ρ lg) : Prop where
  rules : t.rules = s.rules
  state : s.state.after? events = some t.state
  log : ∀ before, EventLog.load s.log = .ok before → EventLog.load t.log = .ok (before ++ events)

theorem Takes.refl (s : Session ρ lg) : s.Takes [] s := ⟨rfl, rfl, rfl, rfl, rfl⟩

theorem Takes.trans {s t u : Session ρ lg} {xs ys : List Event} (h : s.Takes xs t)
    (h' : t.Takes ys u) : s.Takes (xs ++ ys) u where
  rules := h'.rules.trans h.rules
  parse := h'.parse.trans h.parse
  diverged := h'.diverged.trans h.diverged
  state := (State.after?_append_of_some h.state ys).trans h'.state
  log := by rw [EventLog.after?_append, h.log, Option.bind_some, h'.log]

theorem Takes.state_eq {s t : Session ρ lg} (h : s.Takes [] t) : t.state = s.state :=
  (Option.some.inj h.state).symm

theorem Takes.log_eq {s t : Session ρ lg} (h : s.Takes [] t) : t.log = s.log :=
  (Option.some.inj h.log).symm

theorem Takes.breaks {s t u : Session ρ lg} {xs kept : List Event} {err : LogError}
    (h : s.Takes xs t) (h' : t.Breaks kept err u) : s.Breaks (xs ++ kept) err u where
  rules := h'.rules.trans h.rules
  parse := h'.parse.trans h.parse
  state := (State.after?_append_of_some h.state kept).trans h'.state
  log := by
    obtain ⟨m, e, hm, he⟩ := h'.log
    exact ⟨m, e, by rw [EventLog.after?_append, h.log, Option.bind_some, hm], he⟩

theorem Advances.refl (s : Session ρ lg) : s.Advances [] s :=
  ⟨rfl, rfl, fun before hb => by rw [List.append_nil, hb]⟩

theorem Advances.trans {s t u : Session ρ lg} {xs ys : List Event} (h : s.Advances xs t)
    (h' : t.Advances ys u) : s.Advances (xs ++ ys) u where
  rules := h'.rules.trans h.rules
  state := (State.after?_append_of_some h.state ys).trans h'.state
  log := fun before hb => by
    rw [← List.append_assoc]
    exact h'.log _ (h.log before hb)

theorem Takes.advances [LawfulLog lg] {s t : Session ρ lg} {events : List Event}
    (h : s.Takes events t) : s.Advances events t :=
  ⟨h.rules, h.state, fun _ hb => EventLog.load_after? hb h.log⟩

theorem Breaks.advances [LawfulLog lg] {s t : Session ρ lg} {kept : List Event} {err : LogError}
    (h : s.Breaks kept err t) : s.Advances kept t := by
  obtain ⟨m, e, hm, he⟩ := h.log
  exact ⟨h.rules, h.state, fun _ hb => LawfulLog.load_refused (EventLog.load_after? hb hm) he⟩

/-- A log that never fails breaks nothing. -/
theorem not_breaks_of_steady {s t : Session ρ lg} {kept : List Event} {err : LogError}
    (hl : EventLog.Steady s.log) : ¬ s.Breaks kept err t := by
  intro h
  obtain ⟨m, e, hm, he⟩ := h.log
  exact hl.takes hm he

/-- How the answer of a session shows what has become of it. -/
inductive Accounts (s : Session ρ lg) : Except SessionError (List Event) × Session ρ lg → Prop
  | ok {events : List Event} {t : Session ρ lg} : s.Takes events t → Accounts s (.ok events, t)
  | broken {kept : List Event} {err : LogError} {t : Session ρ lg} :
      s.Breaks kept err t → Accounts s (.error (.storage err), t)
  | error {events : List Event} {e : SessionError} {t : Session ρ lg} :
      (∀ err, e ≠ .storage err) → s.Takes events t → Accounts s (.error e, t)

/-- What happens after events have been taken is accounted for with them. -/
theorem Takes.accounts_error {s t u : Session ρ lg} {events : List Event} {e : SessionError}
    (h : s.Takes events t) (h' : t.Accounts (.error e, u)) : s.Accounts (.error e, u) := by
  cases h' with
  | broken hb => exact .broken (h.breaks hb)
  | error hs ht => exact .error hs (h.trans ht)

theorem Accounts.advances [LawfulLog lg] {s : Session ρ lg}
    {outcome : Except SessionError (List Event) × Session ρ lg} (h : s.Accounts outcome) :
    ∃ events, s.Advances events outcome.2 := by
  cases h with
  | ok ht => exact ⟨_, ht.advances⟩
  | broken hb => exact ⟨_, hb.advances⟩
  | error _ ht => exact ⟨_, ht.advances⟩

/-- On a log that never fails, log and state take the same events. -/
theorem Accounts.takes {s : Session ρ lg} (hl : EventLog.Steady s.log)
    {outcome : Except SessionError (List Event) × Session ρ lg} (h : s.Accounts outcome) :
    ∃ events, s.Takes events outcome.2 := by
  cases h with
  | ok ht => exact ⟨_, ht⟩
  | broken hb => exact absurd hb (not_breaks_of_steady hl)
  | error _ ht => exact ⟨_, ht⟩

theorem accounts_runAsked
    {run : Session ρ lg → Request → Except SessionError (List Event) × Session ρ lg}
    (hrun : ∀ (s : Session ρ lg) request, s.Accounts (run s request)) (s : Session ρ lg)
    (asked : String) : s.Accounts (s.runAsked run asked) := by
  rw [runAsked]
  cases hp : s.parse asked with
  | error e => exact .error (fun _ he => by cases he) (.refl s)
  | ok input => exact hrun s ⟨input, some asked, true⟩

/-! ## One request -/

variable [Roller ρ]

/-- The ways in which executing one request may end. -/
inductive PerformOutcome (s : Session ρ lg) (request : Request) :
    Except SessionError (List Event) × Session ρ lg → Prop
  | refused {e : CommandError} {t : Session ρ lg} :
      (s.rules.execute request s.state s.last s.evaluator).1 = .error e → s.Takes [] t →
      PerformOutcome s request (.error (.command e), t)
  | misfit {events : List Event} {index : Nat} {tag : String} {cause : ApplyError}
      {t : Session ρ lg} :
      (s.rules.execute request s.state s.last s.evaluator).1 = .ok events →
      s.state.after? events = none → s.Takes [] t →
      PerformOutcome s request (.error (.invalidEvent index tag cause), t)
  | broken {kept : List Event} {err : LogError} {t : Session ρ lg} :
      s.Breaks kept err t → t.diverged = (s.diverged || !kept.isEmpty || EventLog.isTorn t.log) →
      PerformOutcome s request (.error (.storage err), t)
  | done {events : List Event} {t : Session ρ lg} :
      (s.rules.execute request s.state s.last s.evaluator).1 = .ok events → s.Takes events t →
      PerformOutcome s request (.ok events, t)

theorem perform_outcome (s : Session ρ lg) (request : Request) :
    s.PerformOutcome request (s.perform request) := by
  rcases hx : s.rules.execute request s.state s.last s.evaluator with ⟨result, evaluator⟩
  cases result with
  | error e =>
      simp only [perform, hx]
      exact .refused (by rw [hx]) ⟨rfl, rfl, rfl, rfl, rfl⟩
  | ok events =>
      have hc := commit_outcome { s with evaluator } events
      rcases ho : commit { s with evaluator } events with ⟨result, t⟩
      simp only [perform, hx, ho]
      rw [ho] at hc
      cases hc with
      | misfit hs he =>
          exact .misfit (by rw [hx]) (State.after?_eq_none_iff.mpr ⟨_, _, _, _, _, rfl, hs, he⟩)
            ⟨rfl, rfl, rfl, rfl, rfl⟩
      | refused hs hl he => exact .broken ⟨rfl, rfl, hs, _, _, hl, he⟩ rfl
      | taken hs hl =>
          refine .done (by rw [hx]) ?_
          -- A command of the manifest is kept as the last one.
          split
          · exact ⟨rfl, rfl, rfl, hs, hl⟩
          · exact ⟨rfl, rfl, rfl, hs, hl⟩

/-- Unless it is the log that fails, a request that fails changes nothing. -/
theorem takes_of_perform_error {s t : Session ρ lg} {request : Request} {e : SessionError}
    (h : s.perform request = (.error e, t)) (hs : ∀ err, e ≠ .storage err) : s.Takes [] t := by
  have hx := s.perform_outcome request
  rw [h] at hx
  cases hx with
  | refused _ ht => exact ht
  | misfit _ _ ht => exact ht
  | broken => exact absurd rfl (hs _)

/-! ## A request and what it approves -/

section Resume

variable (resume : Session ρ lg → String → Except SessionError (List Event) × Session ρ lg)

/-- The ways in which running a request may end. -/
inductive RunOutcome (s : Session ρ lg) (request : Request) :
    Except SessionError (List Event) × Session ρ lg → Prop
  | halted : s.diverged = true → RunOutcome s request (.error .diverged, s)
  | ignored {t : Session ρ lg} : s.diverged = false →
      s.perform request = (.error (.command .ignored), t) → RunOutcome s request (.ok [], t)
  | failed {e : SessionError} {t : Session ρ lg} : s.diverged = false →
      e ≠ .command .ignored → s.perform request = (.error e, t) →
      RunOutcome s request (.error e, t)
  | done {events : List Event} {t : Session ρ lg} : s.diverged = false →
      s.perform request = (.ok events, t) → s.approved? request = none →
      RunOutcome s request (.ok events, t)
  | resumed {events more : List Event} {t u : Session ρ lg} {asked : String} :
      s.diverged = false → s.perform request = (.ok events, t) →
      s.approved? request = some asked → resume t asked = (.ok more, u) →
      RunOutcome s request (.ok (events ++ more), u)
  /-- The approval stands, but what it approves fails. -/
  | stranded {events : List Event} {t u : Session ρ lg} {asked : String} {e : SessionError} :
      s.diverged = false → s.perform request = (.ok events, t) →
      s.approved? request = some asked → resume t asked = (.error e, u) →
      RunOutcome s request (.error e, u)

theorem runThen_outcome (s : Session ρ lg) (request : Request) :
    s.RunOutcome resume request (s.runThen resume request) := by
  cases hd : s.diverged with
  | true =>
      rw [runThen_of_diverged hd]
      exact .halted hd
  | false =>
      rcases hp : s.perform request with ⟨result, t⟩
      cases result with
      | error e =>
          rw [runThen_of_error hd hp]
          by_cases he : e = .command .ignored
          · subst he
            exact .ignored hd hp
          · rw [if_neg he]
            exact .failed hd he hp
      | ok events =>
          cases ha : s.approved? request with
          | none =>
              rw [runThen_of_unapproving hd hp ha]
              exact .done hd hp ha
          | some asked =>
              rw [runThen_of_approving hd hp ha]
              rcases hr : resume t asked with ⟨e | more, u⟩
              · exact .stranded hd hp ha hr
              · exact .resumed hd hp ha hr

end Resume

/-! ## Accounts -/

theorem accounts_perform (s : Session ρ lg) (request : Request) :
    s.Accounts (s.perform request) := by
  have h := s.perform_outcome request
  generalize s.perform request = outcome at h
  cases h with
  | refused _ ht => exact .error (fun _ he => by cases he) ht
  | misfit _ _ ht => exact .error (fun _ he => by cases he) ht
  | broken hb => exact .broken hb
  | done _ ht => exact .ok ht

theorem accounts_runThen
    {resume : Session ρ lg → String → Except SessionError (List Event) × Session ρ lg}
    (hresume : ∀ (t : Session ρ lg) asked, t.Accounts (resume t asked)) (s : Session ρ lg)
    (request : Request) : s.Accounts (s.runThen resume request) := by
  have h := s.runThen_outcome resume request
  have hp := s.accounts_perform request
  generalize s.runThen resume request = outcome at h
  cases h with
  | halted => exact .error (fun _ he => by cases he) (.refl s)
  | ignored _ ht => exact .ok (takes_of_perform_error ht fun _ he => by cases he)
  | failed _ _ ht =>
      rw [ht] at hp
      exact hp
  | done _ ht =>
      rw [ht] at hp
      exact hp
  | @resumed _ _ t _ asked _ ht _ hu =>
      have hr := hresume t asked
      rw [ht] at hp
      rw [hu] at hr
      cases hp with
      | ok htakes =>
          cases hr with
          | ok hmore => exact .ok (htakes.trans hmore)
  | @stranded _ t _ asked _ _ ht _ hu =>
      have hr := hresume t asked
      rw [ht] at hp
      rw [hu] at hr
      cases hp with
      | ok htakes => exact htakes.accounts_error hr

theorem accounts_runWith : ∀ (n : Nat) (s : Session ρ lg) (request : Request),
    s.Accounts (s.runWith n request)
  | 0 => accounts_runThen fun t _ => .ok (.refl t)
  | n + 1 => accounts_runThen (accounts_runAsked (accounts_runWith n))

theorem accounts_receive (s : Session ρ lg) (sub : Submission) : s.Accounts (s.receive sub) := by
  cases hr : s.request sub with
  | error e =>
      rw [receive_of_unreadable hr]
      exact .error (fun _ he => by cases he) (.refl s)
  | ok request =>
      rw [receive_of_request hr]
      exact accounts_runWith 1 s request

/-- A run of any submissions advances log and state by the same events. -/
theorem receiveAll_advances [LawfulLog lg] :
    ∀ (subs : List Submission) (s : Session ρ lg), ∃ events, s.Advances events (s.receiveAll subs)
  | [], s => ⟨[], .refl s⟩
  | sub :: rest, s => by
      obtain ⟨events, h⟩ := (s.accounts_receive sub).advances
      obtain ⟨more, h'⟩ := receiveAll_advances rest (s.receive sub).2
      exact ⟨events ++ more, h.trans h'⟩

/-- A run on a log that never fails gives log and state the same events. -/
theorem receiveAll_takes :
    ∀ (subs : List Submission) (s : Session ρ lg), EventLog.Steady s.log →
      ∃ events, s.Takes events (s.receiveAll subs)
  | [], s, _ => ⟨[], .refl s⟩
  | sub :: rest, s, hl => by
      obtain ⟨events, h⟩ := (s.accounts_receive sub).takes hl
      obtain ⟨more, h'⟩ := receiveAll_takes rest (s.receive sub).2 (hl.after h.log)
      exact ⟨events ++ more, h.trans h'⟩

end Session

end GameTable
