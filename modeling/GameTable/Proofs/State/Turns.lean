import Mathlib.Data.List.Nodup
import GameTable.Proofs.Event.Course

/-!
# Turns of a loop

The turn of a loop is a number, and it means an actor only as long as it is
below the number of actors (`Loop.Orderly`). Five kinds of events write to a
loop, each in its own way. What they may do is said once, in
`Event.ActsOnLoops`: an event leaves all loops alone, or starts one afresh, or
changes one that is there, in one of the ways of `Loop.Becomes`. Each of these
keeps a loop orderly, so every loop of a game that began without any is
(`State.course_keeps_turns`).

In an orderly loop the remainder that looking up the turn takes is idle, and
somebody's turn it is just if the loop is active and has an actor.
-/

namespace GameTable

namespace Loop

/-- No actor takes part twice, sort keys are those of actors, and the turn is
the position of an actor; without actors it is the first position. -/
structure Orderly (l : Loop) : Prop where
  nodup : l.actors.Nodup
  mem_of_order {actor : String} {value : Int} :
    l.order.get? actor = some value → actor ∈ l.actors
  current_lt : l.current < max l.actors.length 1

/-! ## What events make of a loop -/

/-- What an event may make of a loop that it changes. -/
inductive Becomes : Event → Loop → Loop → Prop
  | stopped {name : String} {l : Loop} :
      Becomes (.loopSwitched name false) l { l with active := false }
  | directed {name : String} {ascending : Bool} {l : Loop} :
      Becomes (.loopDirection name ascending) l { l with ascending }
  | ordered {name actor : String} {value : Int} {l : Loop} :
      Becomes (.loopOrder name actor value) l
        ({ l with order := l.order.insert actor value }.enroll actor)
  | enrolled {name actor : String} {l : Loop} :
      Becomes (.actorAdded name actor) l (l.enroll actor)
  | advanced {name : String} {l : Loop} : Becomes (.loopAdvanced name) l l.advance

end Loop

/-- The loop that an event is about, for an event about a loop. -/
def Event.loop? : Event → Option String
  | .loopSwitched name _ | .loopDirection name _ | .loopOrder name _ _ | .actorAdded name _
  | .loopAdvanced name => some name
  | _ => none

/-- What an event may do to the loops of a state. -/
inductive Event.ActsOnLoops (s : State) : Event → State → Prop
  | apart {e : Event} {t : State} : t.loops = s.loops → ActsOnLoops s e t
  | starts {name : String} : ActsOnLoops s (.loopSwitched name true) (s.setLoop name .started)
  | changes {e : Event} {name : String} {l l' : Loop} :
      e.loop? = some name → s.loops.get? name = some l → Loop.Becomes e l l' →
        ActsOnLoops s e (s.setLoop name l')

namespace State

theorem updateLoop_eq_ok_iff {s t : State} {name : String} {f : Loop → Loop} :
    s.updateLoop name f = .ok t
      ↔ ∃ l, s.loops.get? name = some l ∧ t = s.setLoop name (f l) := by
  rw [updateLoop, loop]
  cases s.loops.get? name with
  | none => simp
  | some l => simp [eq_comm]

theorem loops_of_updateEntity {s t : State} {id : String}
    {f : Entity → Except ApplyError Entity} (h : s.updateEntity id f = .ok t) :
    t.loops = s.loops := by
  obtain ⟨x, y, -, -, rfl⟩ := updateEntity_eq_ok_iff.mp h
  rfl

end State

namespace Event

theorem actsOnLoops_of_updateLoop {e : Event} {s t : State} {name : String} {f : Loop → Loop}
    (hname : e.loop? = some name) (hf : ∀ l, Loop.Becomes e l (f l))
    (h : s.updateLoop name f = .ok t) : e.ActsOnLoops s t := by
  obtain ⟨l, hl, rfl⟩ := State.updateLoop_eq_ok_iff.mp h
  exact .changes hname hl (hf l)

theorem actsOnLoops_of_apply {e : Event} {s t : State} (h : e.apply s = .ok t) :
    e.ActsOnLoops s t := by
  cases e with
  | loopSwitched name active =>
      obtain rfl := Except.ok.inj h
      cases active with
      | true => exact .starts
      | false =>
          rw [State.switchLoop, if_neg Bool.false_ne_true]
          split
          · rename_i l hl
            exact .changes rfl hl .stopped
          · exact .apart rfl
  | loopDirection name ascending => exact actsOnLoops_of_updateLoop rfl (fun _ => .directed) h
  | loopOrder name actor value => exact actsOnLoops_of_updateLoop rfl (fun _ => .ordered) h
  | actorAdded name actor => exact actsOnLoops_of_updateLoop rfl (fun _ => .enrolled) h
  | loopAdvanced name => exact actsOnLoops_of_updateLoop rfl (fun _ => .advanced) h
  | entityAdded x =>
      obtain ⟨-, -, -, rfl⟩ := State.addEntity_eq_ok_iff.mp h
      exact .apart rfl
  | attributeChanged actor name key value =>
      rw [apply] at h
      split at h
      · cases h
      · exact .apart (State.loops_of_updateEntity h)
  | spentAdded actor key => exact .apart (State.loops_of_updateEntity h)
  | conditionChanged actor condition add => exact .apart (State.loops_of_updateEntity h)
  | askIssued target options =>
      obtain rfl := Except.ok.inj h
      exact .apart rfl
  | hinted message =>
      obtain rfl := Except.ok.inj h
      exact .apart rfl
  | diceRolled actor dice result =>
      obtain rfl := Except.ok.inj h
      exact .apart rfl
  | metadataChanged key value =>
      rw [apply] at h
      split at h
      · cases h
      · obtain rfl := Except.ok.inj h
        exact .apart rfl
  | checked actor check passed =>
      obtain rfl := Except.ok.inj h
      exact .apart rfl

end Event

/-! ## Keeping order -/

namespace Loop

theorem orderly_started : started.Orderly where
  nodup := List.nodup_nil
  mem_of_order h := by cases h
  current_lt := by decide

theorem enroll_of_mem {l : Loop} {actor : String} (h : actor ∈ l.actors) : l.enroll actor = l := by
  rw [enroll, contains, if_pos (decide_eq_true h)]

theorem enroll_of_not_mem {l : Loop} {actor : String} (h : actor ∉ l.actors) :
    l.enroll actor = { l with actors := l.actors ++ [actor] } := by
  rw [enroll, contains, if_neg (by simpa using h)]

theorem mem_actors_enroll {l : Loop} {actor other : String} :
    other ∈ (l.enroll actor).actors ↔ other ∈ l.actors ∨ other = actor := by
  by_cases hmem : actor ∈ l.actors
  · rw [enroll_of_mem hmem]
    constructor
    · exact Or.inl
    · rintro (h | rfl)
      · exact h
      · exact hmem
  · rw [enroll_of_not_mem hmem]
    simp

/-- An actor that joins comes behind all others, so the turn is where it was. -/
theorem current_enroll (l : Loop) (actor : String) : (l.enroll actor).current = l.current := by
  rw [enroll]
  split <;> rfl

theorem length_actors_le_enroll (l : Loop) (actor : String) :
    l.actors.length ≤ (l.enroll actor).actors.length := by
  rw [enroll]
  split
  · exact Nat.le_refl _
  · simp

theorem nodup_enroll {l : Loop} (h : l.actors.Nodup) (actor : String) :
    (l.enroll actor).actors.Nodup := by
  by_cases hmem : actor ∈ l.actors
  · rw [enroll_of_mem hmem]
    exact h
  · rw [enroll_of_not_mem hmem]
    simpa using h.concat hmem

theorem order_enroll (l : Loop) (actor : String) : (l.enroll actor).order = l.order := by
  rw [enroll]
  split <;> rfl

/-- Enrolling restores order where only the actor was missing. -/
theorem orderly_enroll {l : Loop} {actor : String} (hnodup : l.actors.Nodup)
    (horder : ∀ other value, l.order.get? other = some value → other ∈ l.actors ∨ other = actor)
    (hcurrent : l.current < max l.actors.length 1) : (l.enroll actor).Orderly where
  nodup := nodup_enroll hnodup actor
  mem_of_order {other value} h := by
    rw [order_enroll] at h
    exact mem_actors_enroll.mpr (horder other value h)
  current_lt := by
    have hlength := l.length_actors_le_enroll actor
    rw [current_enroll]
    omega

theorem Orderly.advance {l : Loop} (h : l.Orderly) : l.advance.Orderly := by
  rw [Loop.advance]
  split
  · rename_i hturn
    have hne : l.actors ≠ [] := by
      simp only [Bool.and_eq_true, Bool.not_eq_true', List.isEmpty_eq_false_iff] at hturn
      exact hturn.2
    have hlt : (l.current + 1) % l.actors.length < l.actors.length :=
      Nat.mod_lt _ (List.length_pos_iff.mpr hne)
    exact ⟨h.nodup, h.mem_of_order, Nat.lt_of_lt_of_le hlt (Nat.le_max_left ..)⟩
  · exact h

theorem Becomes.orderly {e : Event} {l l' : Loop} (h : Becomes e l l') (hl : l.Orderly) :
    l'.Orderly := by
  cases h with
  | stopped => exact ⟨hl.nodup, hl.mem_of_order, hl.current_lt⟩
  | directed => exact ⟨hl.nodup, hl.mem_of_order, hl.current_lt⟩
  | @ordered _ actor value _ =>
      refine orderly_enroll hl.nodup (fun other value' hother => ?_) hl.current_lt
      rw [Dict.get?_insert] at hother
      split at hother
      · rename_i heq
        exact .inr heq.symm
      · exact .inl (hl.mem_of_order hother)
  | enrolled => exact orderly_enroll hl.nodup (fun _ _ h => .inl (hl.mem_of_order h)) hl.current_lt
  | advanced => exact hl.advance

/-! ## Whose turn it is -/

theorem length_orderedActors (l : Loop) : l.orderedActors.length = l.actors.length :=
  List.length_mergeSort l.actors

/-- In an orderly loop the turn is looked up as it stands. -/
theorem Orderly.mod_current {l : Loop} (h : l.Orderly) :
    l.current % max l.orderedActors.length 1 = l.current := by
  rw [length_orderedActors]
  exact Nat.mod_eq_of_lt h.current_lt

theorem Orderly.isSome_currentActor? {l : Loop} (h : l.Orderly) :
    l.currentActor?.isSome = true ↔ l.active = true ∧ l.actors ≠ [] := by
  rw [currentActor?, h.mod_current]
  cases l.active with
  | false => simp
  | true =>
      have hlt := h.current_lt
      have hlength := List.length_pos_iff (l := l.actors)
      simp only [if_true, isSome_getElem?, length_orderedActors, true_and, ← hlength]
      omega

end Loop

/-! ## The course of a game -/

namespace State

/-- Every loop is orderly. -/
def Orderly (s : State) : Prop := ∀ name l, s.loops.get? name = some l → l.Orderly

theorem Orderly.setLoop {s : State} (hs : s.Orderly) {l : Loop} (hl : l.Orderly)
    (name : String) : (s.setLoop name l).Orderly := by
  intro other l' h
  rw [State.setLoop, Dict.get?_insert] at h
  split at h
  · obtain rfl := Option.some.inj h
    exact hl
  · exact hs other l' h

theorem Orderly.of_actsOnLoops {e : Event} {s t : State} (hs : s.Orderly)
    (h : e.ActsOnLoops s t) : t.Orderly := by
  cases h with
  | apart hloops =>
      intro name l hl
      exact hs name l (hloops ▸ hl)
  | starts => exact hs.setLoop Loop.orderly_started _
  | changes _ hl hbecomes => exact hs.setLoop (hbecomes.orderly (hs _ _ hl)) _

theorem orderly_courseBy {s : State} (hs : s.loops = ∅) (events : List Event) :
    (s.courseBy Event.apply events).Orderly := by
  have hstart : s.Orderly := by
    intro name l h
    rw [hs] at h
    cases h
  exact courseBy_induction
    (fun _ _ _ _ hs ht => hs.of_actsOnLoops (Event.actsOnLoops_of_apply ht)) hstart

/-- Whatever events follow a state without loops, in every loop the actors are
distinct, those with a sort key take part, and the turn is below their number,
or the first one as long as there are none. So it is somebody's turn just if
the loop is active and has an actor, and the actor is found where the turn
stands. -/
theorem course_keeps_turns (s : State) (hs : s.loops = ∅) (events : List Event) (name : String)
    (l : Loop) (hl : (s.courseBy Event.apply events).loops.get? name = some l) :
    l.actors.Nodup
      ∧ (∀ actor value, l.order.get? actor = some value → actor ∈ l.actors)
      ∧ (l.current < l.actors.length ∨ l.actors = [] ∧ l.current = 0)
      ∧ (l.currentActor?.isSome = true ↔ l.active = true ∧ l.actors ≠ [])
      ∧ l.current % max l.orderedActors.length 1 = l.current := by
  have h := orderly_courseBy hs events name l hl
  refine ⟨h.nodup, fun _ _ => h.mem_of_order, ?_, h.isSome_currentActor?, h.mod_current⟩
  have hlt := h.current_lt
  rw [← List.length_eq_zero_iff]
  omega

/-- A goblin is named twice, a fighter has a sort key and comes first, and one
event is for a loop that is not there. After one turn it is the goblin's. -/
theorem course_keeps_turns_skirmish :
    let events := [.loopSwitched "encounter" true, .actorAdded "encounter" "goblin",
      .loopOrder "encounter" "fighter" 15, .actorAdded "chase" "fighter",
      .actorAdded "encounter" "goblin", .loopAdvanced "encounter"]
    ∃ l, (State.empty.courseBy Event.apply events).loops.get? "encounter" = some l
      ∧ l.actors = ["goblin", "fighter"] ∧ l.actors.Nodup ∧ l.currentActor? = some "goblin"
      ∧ l.currentActor?.isSome = true := by
  intro events
  let l : Loop := ⟨true, ["goblin", "fighter"], .ofList [("fighter", 15)], false, 1⟩
  have hl : (State.empty.courseBy Event.apply events).loops.get? "encounter" = some l := by
    decide +kernel
  have hprecedes : l.precedes "goblin" "fighter" = false := by decide +kernel
  have hcurrent : l.currentActor? = some "goblin" := by
    simp only [l] at hprecedes ⊢
    simp [Loop.currentActor?, Loop.orderedActors, List.mergeSort, hprecedes]
  have hkept := course_keeps_turns State.empty rfl events _ _ hl
  exact ⟨l, hl, rfl, hkept.1, hcurrent, hkept.2.2.2.1.mpr (by simp [l])⟩

end State

end GameTable
