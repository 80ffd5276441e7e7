import GameTable.Command.Line
import GameTable.Log.Memory
import GameTable.Proofs.Command.Gate
import GameTable.Proofs.Command.Trace
import GameTable.Proofs.Result
import GameTable.Proofs.Session.Run

/-!
# Transcripts of rolls

Whether the rolls of a step become events is a choice of the table. A roll
event changes no state, nothing that is executed asks for the choice, and the
log is never read while a session runs. So two sessions that differ in it stay
twins: they differ in what their logs hold and in nothing else (`Lockstep`).

What their logs hold differs by the transcripts alone. `Session.deeds` is what
the commands of a run did; one session has written it down with the transcripts
and the other without (`transcription_changes_log_alone`).
-/

namespace GameTable

/-! ## Rolls and the state -/

theorem Event.apply_of_isRoll {e : Event} (h : e.isRoll = true) (s : State) : e.apply s = .ok s := by
  cases e with
  | diceRolled actor dice result => rfl
  | _ => cases h

theorem State.after?_filter_isRoll (s : State) (events : List Event) :
    s.after? (events.filter fun e => !e.isRoll) = s.after? events := by
  induction events generalizing s with
  | nil => rfl
  | cons e rest ih =>
      cases hroll : e.isRoll with
      | true =>
          rw [List.filter_cons_of_neg (by simp [hroll]), ih,
            after?_cons_of_ok (e.apply_of_isRoll hroll s)]
      | false =>
          rw [List.filter_cons_of_pos (by simp [hroll])]
          cases he : e.apply s with
          | error cause => rw [after?_cons_of_error he, after?_cons_of_error he]
          | ok t => rw [after?_cons_of_ok he, after?_cons_of_ok he, ih]

theorem State.after?_events (s : State) (deed : Deed) (transcribe : Bool) :
    s.after? (deed.events transcribe) = s.after? (deed.events false) := by
  cases transcribe with
  | false => rfl
  | true =>
      rw [← deed.eventsLessTranscript_eq]
      cases deed with
      | direct events => rfl
      | steps runs => rw [Deed.eventsLessTranscript, Deed.events, after?_filter_isRoll]

namespace Session

variable {ρ lg : Type}

/-- The session with the choice to transcribe rolls or not. -/
def transcribing (s : Session ρ lg) (transcribe : Bool) : Session ρ lg :=
  { s with rules := { s.rules with transcribe } }

/-- Sessions that may differ in their logs and in whether they transcribe rolls,
but in nothing else. -/
structure Twin (s q : Session ρ lg) : Prop where
  rules : { q.rules with transcribe := s.rules.transcribe } = s.rules
  parse : q.parse = s.parse
  evaluator : q.evaluator = s.evaluator
  state : q.state = s.state
  last : q.last = s.last
  diverged : q.diverged = s.diverged

theorem Twin.request {s q : Session ρ lg} (h : s.Twin q) (sub : Submission) :
    q.request sub = s.request sub := by
  cases sub with
  | line text => rw [Session.request, Session.request, h.parse]
  | input input => rfl

theorem Twin.approved? {s q : Session ρ lg} (h : s.Twin q) (request : Request) :
    q.approved? request = s.approved? request := by
  rw [Session.approved?, Session.approved?, h.state]

variable [Roller ρ]

theorem Twin.trace {s q : Session ρ lg} (h : s.Twin q) (request : Request) :
    q.rules.trace request q.state q.last q.evaluator
      = s.rules.trace request s.state s.last s.evaluator := by
  rw [h.state, h.last, h.evaluator, ← q.rules.trace_transcribing s.rules.transcribe, h.rules]

variable [EventLog lg]

/-! ## What the requests of a run do -/

/-- What a request does if it is accepted, and then what it resumes. -/
def deedsThen (resume : Session ρ lg → String → List Deed) (s : Session ρ lg)
    (request : Request) : List Deed :=
  if s.diverged then []
  else
    match (s.rules.trace request s.state s.last s.evaluator).1, s.perform request with
    | .ok deed, (.ok _, t) =>
      match s.approved? request with
      | none => [deed]
      | some asked => deed :: resume t asked
    | _, _ => []

def deedsAsked (deeds : Session ρ lg → Request → List Deed) (s : Session ρ lg) (asked : String) :
    List Deed :=
  match s.parse asked with
  | .error _ => []
  | .ok input => deeds s ⟨input, some asked, true⟩

def deedsWith (reruns : Nat) : Session ρ lg → Request → List Deed :=
  match reruns with
  | 0 => deedsThen fun _ _ => []
  | n + 1 => deedsThen (deedsAsked (deedsWith n))

def deedsOf (s : Session ρ lg) (sub : Submission) : List Deed :=
  match s.request sub with
  | .error _ => []
  | .ok request => s.deedsWith 1 request

/-- What the commands of a run did that were accepted, in order. -/
def deeds (s : Session ρ lg) : List Submission → List Deed
  | [] => []
  | sub :: rest => s.deedsOf sub ++ (s.receive sub).2.deeds rest

/-! ## One request -/

section Perform

variable {s : Session ρ lg} {request : Request} {ev : Evaluator ρ}

theorem perform_of_trace_error {e : CommandError}
    (h : s.rules.trace request s.state s.last s.evaluator = (.error e, ev)) :
    s.perform request = (.error (.command e), { s with evaluator := ev }) := by
  rw [perform, Rules.execute_eq_trace, h]
  rfl

theorem perform_of_misfit {deed : Deed}
    (h : s.rules.trace request s.state s.last s.evaluator = (.ok deed, ev))
    (hs : s.state.after? (deed.events s.rules.transcribe) = none) :
    ∃ index tag cause, s.perform request
      = (.error (.invalidEvent index tag cause), { s with evaluator := ev }) := by
  obtain ⟨fit, e, rest, t, cause, hevents, hfit, he⟩ := State.after?_eq_none_iff.mp hs
  refine ⟨fit.length, e.tag, cause, ?_⟩
  rw [perform, Rules.execute_eq_trace, h]
  simp only [Except.map, hevents]
  rw [commit_of_misfit (s := { s with evaluator := ev }) hfit he]

theorem perform_of_fit {deed : Deed} {state : State} {log : lg}
    (h : s.rules.trace request s.state s.last s.evaluator = (.ok deed, ev))
    (hs : s.state.after? (deed.events s.rules.transcribe) = some state)
    (hl : EventLog.after? s.log (deed.events s.rules.transcribe) = some log) :
    s.perform request = (.ok (deed.events s.rules.transcribe),
      { s with
        evaluator := ev
        state := state
        log := log
        last := if isBuiltin (canonicalName request.input.command) then s.last
          else some (canonicalName request.input.command) }) := by
  rw [perform, Rules.execute_eq_trace, h]
  simp only [Except.map]
  rw [commit_of_taken (s := { s with evaluator := ev }) hs hl]
  cases isBuiltin (canonicalName request.input.command) with
  | true => simp only [if_true]
  | false => simp only [Bool.false_eq_true, if_false]

end Perform

/-- How the same request ends in two twins. -/
inductive PerformPair (s q : Session ρ lg) (request : Request) :
    Except SessionError (List Event) × Session ρ lg →
    Except SessionError (List Event) × Session ρ lg → Prop where
  | failed {e e' : SessionError} {t u : Session ρ lg} :
      (e = .command .ignored ↔ e' = .command .ignored) → t.Twin u → s.Takes [] t → q.Takes [] u →
      PerformPair s q request (.error e, t) (.error e', u)
  | done {deed : Deed} {t u : Session ρ lg} :
      (s.rules.trace request s.state s.last s.evaluator).1 = .ok deed → t.Twin u →
      s.Takes (deed.events s.rules.transcribe) t → q.Takes (deed.events q.rules.transcribe) u →
      PerformPair s q request (.ok (deed.events s.rules.transcribe), t)
        (.ok (deed.events q.rules.transcribe), u)

theorem Twin.perform {s q : Session ρ lg} (h : s.Twin q) (hs : EventLog.Steady s.log)
    (hq : EventLog.Steady q.log) (request : Request) :
    s.PerformPair q request (s.perform request) (q.perform request) := by
  rcases htrace : s.rules.trace request s.state s.last s.evaluator with ⟨e | deed, ev⟩
  · rw [perform_of_trace_error htrace, perform_of_trace_error ((h.trace request).trans htrace)]
    exact .failed .rfl ⟨h.rules, h.parse, rfl, h.state, h.last, h.diverged⟩
      ⟨rfl, rfl, rfl, rfl, rfl⟩ ⟨rfl, rfl, rfl, rfl, rfl⟩
  · have htrace' := (h.trace request).trans htrace
    -- The events fit both states or neither: they differ by rolls.
    have hsame : q.state.after? (deed.events q.rules.transcribe)
        = s.state.after? (deed.events s.rules.transcribe) := by
      rw [h.state, State.after?_events, ← State.after?_events s.state deed s.rules.transcribe]
    cases hfit : s.state.after? (deed.events s.rules.transcribe) with
    | none =>
        obtain ⟨_, _, _, hp⟩ := perform_of_misfit htrace hfit
        obtain ⟨_, _, _, hp'⟩ := perform_of_misfit htrace' (hsame.trans hfit)
        rw [hp, hp']
        exact .failed ⟨nofun, nofun⟩ ⟨h.rules, h.parse, rfl, h.state, h.last, h.diverged⟩
          ⟨rfl, rfl, rfl, rfl, rfl⟩ ⟨rfl, rfl, rfl, rfl, rfl⟩
    | some state =>
        obtain ⟨log, hlog⟩ := Option.isSome_iff_exists.mp (hs (deed.events s.rules.transcribe))
        obtain ⟨log', hlog'⟩ := Option.isSome_iff_exists.mp (hq (deed.events q.rules.transcribe))
        rw [perform_of_fit htrace hfit hlog, perform_of_fit htrace' (hsame.trans hfit) hlog']
        refine .done (by rw [htrace]) ⟨h.rules, h.parse, rfl, rfl, ?_, h.diverged⟩
          ⟨rfl, rfl, rfl, hfit, hlog⟩ ⟨rfl, rfl, rfl, hsame.trans hfit, hlog'⟩
        dsimp only
        rw [h.last]

/-! ## Twins in lockstep -/

/-- Two sessions have each done the same deeds and are twins after it, and both
have succeeded or both have failed. -/
structure Lockstep (s q : Session ρ lg) (deeds : List Deed)
    (x y : Except SessionError (List Event) × Session ρ lg) : Prop where
  twin : x.2.Twin y.2
  agree : x.1.isOk = y.1.isOk
  takes : s.Takes (deeds.flatMap (Deed.events s.rules.transcribe)) x.2
  twinTakes : q.Takes (deeds.flatMap (Deed.events q.rules.transcribe)) y.2
  ran : ∀ runs, .steps runs ∈ deeds → ∃ ev ev' : Evaluator ρ, Ran ev runs ev'

theorem Twin.lockstep {s q : Session ρ lg} (h : s.Twin q)
    {a b : Except SessionError (List Event)} (hagree : a.isOk = b.isOk) :
    s.Lockstep q [] (a, s) (b, q) :=
  ⟨h, hagree, .refl s, .refl q, nofun⟩

theorem lockstep_deed {s q t u : Session ρ lg} {request : Request} {deed : Deed}
    (htrace : (s.rules.trace request s.state s.last s.evaluator).1 = .ok deed) (htwin : t.Twin u)
    (ht : s.Takes (deed.events s.rules.transcribe) t)
    (hu : q.Takes (deed.events q.rules.transcribe) u) :
    s.Lockstep q [deed] (.ok (deed.events s.rules.transcribe), t)
      (.ok (deed.events q.rules.transcribe), u) := by
  refine ⟨htwin, rfl, ?_, ?_, ?_⟩
  · rw [List.flatMap_singleton]
    exact ht
  · rw [List.flatMap_singleton]
    exact hu
  · intro runs hruns
    obtain rfl := List.mem_singleton.mp hruns
    obtain ⟨ev, hran⟩ := Rules.ran_of_trace (Prod.ext htrace rfl)
    exact ⟨ev, _, hran⟩

theorem Lockstep.trans {s q t u : Session ρ lg} {deeds more : List Deed}
    {a b a' b' : Except SessionError (List Event)}
    {x y : Except SessionError (List Event) × Session ρ lg}
    (h : s.Lockstep q deeds (a, t) (b, u)) (h' : t.Lockstep u more (a', x.2) (b', y.2))
    (hagree : x.1.isOk = y.1.isOk) : s.Lockstep q (deeds ++ more) x y where
  twin := h'.twin
  agree := hagree
  takes := by
    have hmore := h'.takes
    rw [h.takes.rules] at hmore
    rw [List.flatMap_append]
    exact h.takes.trans hmore
  twinTakes := by
    have hmore := h'.twinTakes
    rw [h.twinTakes.rules] at hmore
    rw [List.flatMap_append]
    exact h.twinTakes.trans hmore
  ran runs hruns := (List.mem_append.mp hruns).elim (h.ran runs) (h'.ran runs)

section Resume

variable {resume : Session ρ lg → String → Except SessionError (List Event) × Session ρ lg}
  {deeds : Session ρ lg → String → List Deed} {s q : Session ρ lg} {request : Request}

theorem deedsThen_of_error {e : SessionError} {t : Session ρ lg}
    (hp : s.perform request = (.error e, t)) : s.deedsThen deeds request = [] := by
  rw [deedsThen, hp]
  split
  · rfl
  · cases (s.rules.trace request s.state s.last s.evaluator).1 with
    | error => rfl
    | ok => rfl

theorem lockstep_runThen
    (hresume : ∀ (t u : Session ρ lg) asked, t.Twin u → EventLog.Steady t.log →
      EventLog.Steady u.log → t.Lockstep u (deeds t asked) (resume t asked) (resume u asked))
    (h : s.Twin q) (hs : EventLog.Steady s.log) (hq : EventLog.Steady q.log) :
    s.Lockstep q (s.deedsThen deeds request) (s.runThen resume request)
      (q.runThen resume request) := by
  cases hd : s.diverged with
  | true =>
      rw [deedsThen, if_pos hd, runThen_of_diverged hd,
        runThen_of_diverged (h.diverged.trans hd)]
      exact h.lockstep rfl
  | false =>
      have hd' := h.diverged.trans hd
      have hpair := h.perform hs hq request
      rcases hp : s.perform request with ⟨a, t⟩
      rcases hp' : q.perform request with ⟨b, u⟩
      rw [hp, hp'] at hpair
      cases hpair with
      | @failed e e' _ _ hignored htwin ht hu =>
          rw [deedsThen_of_error hp, runThen_of_error hd hp, runThen_of_error hd' hp']
          refine ⟨htwin, ?_, ht, hu, nofun⟩
          by_cases he : e = .command .ignored
          · rw [if_pos he, if_pos (hignored.mp he)]
          · rw [if_neg he, if_neg fun he' => he (hignored.mpr he')]
            rfl
      | @done deed _ _ htrace htwin ht hu =>
          have hone := lockstep_deed htrace htwin ht hu
          cases ha : s.approved? request with
          | none =>
              have ha' := (h.approved? request).trans ha
              rw [runThen_of_unapproving hd hp ha, runThen_of_unapproving hd' hp' ha']
              simp only [deedsThen, hd, hp, htrace, ha, Bool.false_eq_true, if_false]
              exact hone
          | some asked =>
              have ha' := (h.approved? request).trans ha
              have hrest := hresume t u asked htwin (hs.after ht.log) (hq.after hu.log)
              rw [runThen_of_approving hd hp ha, runThen_of_approving hd' hp' ha']
              simp only [deedsThen, hd, hp, htrace, ha, Bool.false_eq_true, if_false]
              refine hone.trans hrest ?_
              rw [isOk_map, isOk_map, hrest.agree]

end Resume

theorem lockstep_runAsked
    {run : Session ρ lg → Request → Except SessionError (List Event) × Session ρ lg}
    {deeds : Session ρ lg → Request → List Deed}
    (hrun : ∀ (t u : Session ρ lg) request, t.Twin u → EventLog.Steady t.log →
      EventLog.Steady u.log → t.Lockstep u (deeds t request) (run t request) (run u request))
    {s q : Session ρ lg} (h : s.Twin q) (hs : EventLog.Steady s.log) (hq : EventLog.Steady q.log)
    (asked : String) :
    s.Lockstep q (s.deedsAsked deeds asked) (s.runAsked run asked) (q.runAsked run asked) := by
  rw [deedsAsked, runAsked, runAsked, h.parse]
  cases s.parse asked with
  | error e => exact h.lockstep rfl
  | ok input => exact hrun s q _ h hs hq

theorem lockstep_runWith (reruns : Nat) {s q : Session ρ lg} (h : s.Twin q)
    (hs : EventLog.Steady s.log) (hq : EventLog.Steady q.log) (request : Request) :
    s.Lockstep q (s.deedsWith reruns request) (s.runWith reruns request)
      (q.runWith reruns request) := by
  induction reruns generalizing s q request with
  | zero => exact lockstep_runThen (fun _ _ _ ht _ _ => ht.lockstep rfl) h hs hq
  | succ n ih =>
      refine lockstep_runThen (fun t u asked ht hlt hlu => ?_) h hs hq
      exact lockstep_runAsked (fun _ _ request ht hlt hlu => ih ht hlt hlu request) ht hlt hlu asked

theorem lockstep_receive {s q : Session ρ lg} (h : s.Twin q) (hs : EventLog.Steady s.log)
    (hq : EventLog.Steady q.log) (sub : Submission) :
    s.Lockstep q (s.deedsOf sub) (s.receive sub) (q.receive sub) := by
  have hread := h.request sub
  rw [deedsOf]
  cases hr : s.request sub with
  | error e =>
      rw [receive_of_unreadable hr, receive_of_unreadable (hread.trans hr)]
      exact h.lockstep rfl
  | ok request =>
      rw [receive_of_request hr, receive_of_request (hread.trans hr)]
      exact lockstep_runWith 1 h hs hq request

/-- Over a whole run the answers are left to `answers`. -/
theorem lockstep_receiveAll (subs : List Submission) {s q : Session ρ lg} (h : s.Twin q)
    (hs : EventLog.Steady s.log) (hq : EventLog.Steady q.log) :
    s.Lockstep q (s.deeds subs) (.ok [], s.receiveAll subs) (.ok [], q.receiveAll subs)
      ∧ (q.answers subs).map Except.isOk = (s.answers subs).map Except.isOk := by
  induction subs generalizing s q with
  | nil => exact ⟨h.lockstep rfl, rfl⟩
  | cons sub rest ih =>
      have hone := lockstep_receive h hs hq sub
      obtain ⟨hrest, hanswers⟩ :=
        ih hone.twin (hs.after hone.takes.log) (hq.after hone.twinTakes.log)
      refine ⟨hone.trans hrest rfl, ?_⟩
      rw [answers, answers, List.map_cons, List.map_cons, hone.agree, hanswers]

/-- Whether rolls are transcribed makes no difference to a run but in the log,
and there none but the transcripts. The rolls of a step stand right before the
events of its effect, and they are the rolls that evaluating its formula made. -/
theorem transcription_changes_log_alone (s : Session ρ lg) (hsteady : EventLog.Steady s.log)
    (subs : List Submission) :
    let loud := s.transcribing true
    let quiet := s.transcribing false
    ((loud.receiveAll subs).state = (quiet.receiveAll subs).state
        ∧ (loud.receiveAll subs).last = (quiet.receiveAll subs).last
        ∧ (loud.receiveAll subs).evaluator = (quiet.receiveAll subs).evaluator)
      ∧ (loud.answers subs).map Except.isOk = (quiet.answers subs).map Except.isOk
      ∧ EventLog.after? s.log ((loud.deeds subs).flatMap (Deed.events true))
        = some (loud.receiveAll subs).log
      ∧ EventLog.after? s.log ((loud.deeds subs).flatMap Deed.eventsLessTranscript)
        = some (quiet.receiveAll subs).log
      ∧ (∀ before, LawfulLog lg → EventLog.load s.log = .ok before →
        EventLog.load (loud.receiveAll subs).log
            = .ok (before ++ (loud.deeds subs).flatMap (Deed.events true))
          ∧ EventLog.load (quiet.receiveAll subs).log
            = .ok (before ++ (loud.deeds subs).flatMap Deed.eventsLessTranscript))
      ∧ ∀ runs, .steps runs ∈ loud.deeds subs →
        (Deed.steps runs).events true = runs.flatMap (fun run => run.transcript ++ run.mapped)
          ∧ ∃ ev ev' : Evaluator ρ, Ran ev runs ev' := by
  intro loud quiet
  have htwin : loud.Twin quiet := ⟨rfl, rfl, rfl, rfl, rfl, rfl⟩
  obtain ⟨hlockstep, hanswers⟩ := lockstep_receiveAll subs htwin hsteady hsteady
  have hloud := hlockstep.takes.log
  have hquiet := hlockstep.twinTakes.log
  have hless : Deed.eventsLessTranscript = Deed.events false := funext Deed.eventsLessTranscript_eq
  have hend := hlockstep.twin
  rw [hless]
  refine ⟨⟨hend.state.symm, hend.last.symm, hend.evaluator.symm⟩, hanswers.symm, hloud, hquiet,
    ?_, fun runs hruns => ⟨rfl, hlockstep.ran runs hruns⟩⟩
  intro before hlawful hload
  exact ⟨EventLog.load_after? hload hloud, EventLog.load_after? hload hquiet⟩

/-- An attack, whose roll is transcribed or not, and then a roll that always is
an event. -/
theorem transcription_changes_log_alone_skirmish :
    let s : Session DiceCup MemoryLog :=
      ⟨Rules.skirmish, Line.parse, .new (.scripted [15, 16]) 100, .ofEvents [], .empty, none, false⟩
    let subs : List Submission := [.line "attack by: fighter", .line "roll dice: 1d6 by: fighter"]
    EventLog.load ((s.transcribing true).receiveAll subs).log
        = .ok [.diceRolled "fighter" "1d20" 15, .hinted "hit", .diceRolled "fighter" "1d6" 16]
      ∧ EventLog.load ((s.transcribing false).receiveAll subs).log
        = .ok [.hinted "hit", .diceRolled "fighter" "1d6" 16] := by
  intro s subs
  have hsteady : EventLog.Steady s.log := steady_ofEvents []
  obtain ⟨hloud, hquiet⟩ :=
    (s.transcription_changes_log_alone hsteady subs).2.2.2.2.1 [] inferInstance rfl
  have hevents : ((s.transcribing true).deeds subs).flatMap (Deed.events true)
      = [.diceRolled "fighter" "1d20" 15, .hinted "hit", .diceRolled "fighter" "1d6" 16] := by
    decide +kernel
  have hless : ((s.transcribing true).deeds subs).flatMap Deed.eventsLessTranscript
      = [.hinted "hit", .diceRolled "fighter" "1d6" 16] := by
    decide +kernel
  rw [hloud, hquiet, hevents, hless]
  exact ⟨rfl, rfl⟩

end Session

end GameTable
