import Mathlib.Data.List.Rotate
import GameTable.Proofs.State.TurnOrder

/-!
# The turn goes round

The turn is passed on by one event, and nothing else that happens outside a loop
has to do with it. So after a number of these events the turn is that many places
further in the order of turns, counted round (`State.courseBy_advances`), and as
many of them as there are actors end the turn of each actor once.

An actor that joins has no key as long as none but actors have one, so it comes
last in the order of turns, and what stands in front of it is left in place.
-/

namespace GameTable

namespace Loop

variable {l : Loop}

theorem orderedActors_current (l : Loop) (current : Nat) :
    { l with current }.orderedActors = l.orderedActors := rfl

theorem Orderly.lt_length (h : l.Orderly) (hne : l.actors ≠ []) : l.current < l.actors.length := by
  have hlt := h.current_lt
  have hpos := List.length_pos_iff.mpr hne
  omega

/-- Passing the turn on moves it by so many places. -/
theorem iterate_advance (hactive : l.active = true) (hcurrent : l.current < l.actors.length)
    (k : Nat) : advance^[k] l = { l with current := (l.current + k) % l.actors.length } := by
  have hne : l.actors.isEmpty = false := by
    rw [List.isEmpty_eq_false_iff]
    rintro heq
    rw [heq] at hcurrent
    exact Nat.not_lt_zero _ hcurrent
  induction k with
  | zero => rw [Function.iterate_zero_apply, Nat.add_zero, Nat.mod_eq_of_lt hcurrent]
  | succ k ih =>
      rw [Function.iterate_succ_apply', ih, advance]
      simp [hactive, hne, Nat.add_assoc]

theorem currentActor?_iterate (hactive : l.active = true)
    (hcurrent : l.current < l.actors.length) (k : Nat) :
    (advance^[k] l).currentActor? = l.orderedActors[(l.current + k) % l.actors.length]? := by
  have hlength : max l.orderedActors.length 1 = l.actors.length := by
    rw [length_orderedActors]
    omega
  rw [iterate_advance hactive hcurrent, currentActor?, if_pos hactive, orderedActors_current,
    hlength, Nat.mod_mod]

/-- Going round once. -/
theorem map_range_eq_rotate (xs : List String) (start : Nat) :
    (List.range xs.length).map (fun k => xs[(start + k) % xs.length]?)
      = (xs.rotate start).map some := by
  refine List.ext_getElem (by simp) fun k hk _ => ?_
  have hlt : (start + k) % xs.length < xs.length :=
    Nat.mod_lt _ (by simp at hk; omega)
  simp [List.getElem_rotate, List.getElem?_eq_getElem hlt, Nat.add_comm k]

/-! ## Joining -/

/-- An actor that joins without a key comes last. -/
theorem orderedActors_enroll {actor : String} (h : l.Orderly) (hnew : actor ∉ l.actors) :
    (l.enroll actor).orderedActors = l.orderedActors ++ [actor] := by
  have hkey : l.order.get? actor = none := by
    rw [Option.eq_none_iff_forall_not_mem]
    exact fun value hvalue => hnew (h.mem_of_order hvalue)
  rw [enroll_of_not_mem hnew]
  refine (eq_orderedActors (by simpa using h.nodup.concat hnew) ?_ ?_).symm
  · exact (List.mergeSort_perm ..).append_right _
  · rw [List.pairwise_append]
    refine ⟨(pairwise_ahead h.nodup).imp fun {a b} hab => ?_, List.pairwise_singleton .., ?_⟩
    · refine ⟨List.mem_append_left _ hab.mem_left, List.mem_append_left _ hab.mem_right,
        hab.precedes, fun hback => ?_⟩
      rw [List.idxOf_append_of_mem hab.mem_left, List.idxOf_append_of_mem hab.mem_right]
      exact hab.joined hback
    · intro a ha b hb
      obtain rfl := List.mem_singleton.mp hb
      rw [mem_orderedActors] at ha
      refine ⟨List.mem_append_left _ ha, List.mem_append_right _ hb, ?_, fun _ => ?_⟩
      · exact precedes_iff.mpr fun value hvalue => absurd (hkey.symm.trans hvalue) nofun
      · rw [List.idxOf_append_of_mem ha, List.idxOf_append_of_notMem hnew]
        exact Nat.lt_add_right _ (List.idxOf_lt_length_of_mem ha)

theorem currentActor?_enroll {actor : String} (h : l.Orderly) (hnew : actor ∉ l.actors)
    (hne : l.actors ≠ []) : (l.enroll actor).currentActor? = l.currentActor? := by
  have hactive : (l.enroll actor).active = l.active := by rw [enroll_of_not_mem hnew]
  have hcurrent : l.current < l.orderedActors.length := by
    rw [length_orderedActors]
    exact h.lt_length hne
  have hjoined : (l.enroll actor).Orderly :=
    orderly_enroll h.nodup (fun _ _ hvalue => .inl (h.mem_of_order hvalue)) h.current_lt
  rw [currentActor?, currentActor?, hjoined.mod_current, h.mod_current, hactive,
    orderedActors_enroll h hnew, current_enroll, List.getElem?_append_left hcurrent]

end Loop

namespace Event

/-- What is about something else leaves a loop alone. -/
theorem ActsOnLoops.get?_of_ne {e : Event} {s t : State} (h : e.ActsOnLoops s t) {name : String}
    (hname : e.loop? ≠ some name) : t.loops.get? name = s.loops.get? name := by
  cases h with
  | apart hloops => rw [hloops]
  | starts => exact Dict.get?_insert_of_ne _ _ fun heq => hname (congrArg some heq)
  | changes hloop _ _ =>
      exact Dict.get?_insert_of_ne _ _ fun heq => hname (hloop.trans (congrArg some heq))

/-- The event passes on the turn of the loop, or is not about this loop. -/
def PassesOrLeaves (name : String) (e : Event) : Prop :=
  e = .loopAdvanced name ∨ e.loop? ≠ some name

end Event

namespace State

/-- Whose turn it is in a loop. -/
def turn? (s : State) (name : String) : Option String :=
  (s.loops.get? name).bind Loop.currentActor?

/-- Whose turns are ended, one after the other, when the events pass on the turn
of a loop. -/
def turnsEnded (name : String) (s : State) : List Event → List (Option String)
  | [] => []
  | e :: rest =>
    let later := (s.courseBy Event.apply [e]).turnsEnded name rest
    if e = .loopAdvanced name then s.turn? name :: later else later

variable {s : State} {name : String} {l : Loop} {e : Event} {events : List Event}

theorem turn?_of_get? (hl : s.loops.get? name = some l) : s.turn? name = l.currentActor? := by
  rw [turn?, hl, Option.bind_some]

theorem get?_courseBy_of_ne (hname : e.loop? ≠ some name) :
    (s.courseBy Event.apply [e]).loops.get? name = s.loops.get? name := by
  rw [courseBy]
  split
  · rename_i t ht
    exact (Event.actsOnLoops_of_apply ht).get?_of_ne hname
  · rfl

theorem get?_courseBy_of_updateLoop {f : Loop → Loop} (hl : s.loops.get? name = some l)
    (happly : e.apply s = s.updateLoop name f) :
    (s.courseBy Event.apply [e]).loops.get? name = some (f l) := by
  have ht : e.apply s = .ok (s.setLoop name (f l)) :=
    happly.trans (updateLoop_eq_ok_iff.mpr ⟨l, hl, rfl⟩)
  rw [courseBy, ht]
  exact Dict.get?_insert_self ..

theorem courseBy_cons (s : State) (e : Event) (rest : List Event) :
    s.courseBy Event.apply (e :: rest)
      = (s.courseBy Event.apply [e]).courseBy Event.apply rest :=
  courseBy_append Event.apply s [e] rest

/-- What is left of the events, as far as the loop is concerned, is how often
they pass on its turn. -/
theorem courseBy_advances (hevents : ∀ e ∈ events, e.PassesOrLeaves name)
    (hl : s.loops.get? name = some l) :
    (s.courseBy Event.apply events).loops.get? name
      = some (Loop.advance^[events.count (.loopAdvanced name)] l) := by
  induction events generalizing s l with
  | nil => exact hl
  | cons e rest ih =>
      rw [List.forall_mem_cons] at hevents
      rw [courseBy_cons]
      rcases hevents.1 with rfl | hname
      · rw [ih hevents.2 (get?_courseBy_of_updateLoop hl rfl), List.count_cons_self,
          Function.iterate_succ_apply]
      · have hne : e ≠ .loopAdvanced name := fun heq => hname (heq ▸ rfl)
        rw [ih hevents.2 ((get?_courseBy_of_ne hname).trans hl), List.count_cons_of_ne hne]

theorem turnsEnded_advances (hevents : ∀ e ∈ events, e.PassesOrLeaves name)
    (hl : s.loops.get? name = some l) :
    s.turnsEnded name events
      = (List.range (events.count (.loopAdvanced name))).map fun k =>
        (Loop.advance^[k] l).currentActor? := by
  induction events generalizing s l with
  | nil => rfl
  | cons e rest ih =>
      rw [List.forall_mem_cons] at hevents
      rw [turnsEnded]
      rcases hevents.1 with rfl | hname
      · rw [if_pos rfl, ih hevents.2 (get?_courseBy_of_updateLoop hl rfl), turn?_of_get? hl,
          List.count_cons_self, List.range_succ_eq_map, List.map_cons, List.map_map]
        rfl
      · have hne : e ≠ .loopAdvanced name := fun heq => hname (heq ▸ rfl)
        rw [if_neg hne, ih hevents.2 ((get?_courseBy_of_ne hname).trans hl),
          List.count_cons_of_ne hne]

/-- Take any state that events have led to from one without loops, and a loop of
it in which somebody has the turn. Events that pass on its turn `k` times, and
else are about other things, leave the turn `k` places further in the order of
turns, counted round. If that is once for each actor, the turns that they end are
those of the actors, each once, and the turn is where it was. An actor that is
new to a loop is added behind all others, and whose turn it is stays. -/
theorem turns_go_round (s : State) (hs : s.loops = ∅) (before : List Event) (name : String)
    (l : Loop) (hl : (s.courseBy Event.apply before).loops.get? name = some l) :
    let t := s.courseBy Event.apply before
    (l.active = true → l.actors ≠ [] → ∀ events, (∀ e ∈ events, e.PassesOrLeaves name) →
      let k := events.count (.loopAdvanced name)
      ∃ l', (t.courseBy Event.apply events).loops.get? name = some l'
        ∧ l'.orderedActors = l.orderedActors
        ∧ l'.currentActor? = l.orderedActors[(l.current + k) % l.actors.length]?
        ∧ (k = l.actors.length →
          (t.turnsEnded name events).Perm (l.actors.map some) ∧ (t.turnsEnded name events).Nodup
            ∧ l'.currentActor? = l.currentActor?))
    ∧ ∀ actor, actor ∉ l.actors →
      ∃ l', (t.courseBy Event.apply [.actorAdded name actor]).loops.get? name = some l'
        ∧ l'.orderedActors = l.orderedActors ++ [actor]
        ∧ (l.actors ≠ [] → l'.currentActor? = l.currentActor?) := by
  intro t
  have horderly : l.Orderly := orderly_courseBy hs before name l hl
  constructor
  · intro hactive hne events hevents k
    have hcurrent := horderly.lt_length hne
    have hturn := Loop.currentActor?_iterate hactive hcurrent
    refine ⟨_, courseBy_advances hevents hl, ?_, hturn k, fun hk => ?_⟩
    · rw [Loop.iterate_advance hactive hcurrent, Loop.orderedActors_current]
    · have hended : t.turnsEnded name events = (l.orderedActors.rotate l.current).map some := by
        rw [turnsEnded_advances hevents hl, ← Loop.map_range_eq_rotate,
          Loop.length_orderedActors, ← hk]
        exact List.map_congr_left fun i _ => hk ▸ hturn i
      have hperm : (l.orderedActors.rotate l.current).Perm l.actors :=
        (List.rotate_perm ..).trans (List.mergeSort_perm ..)
      rw [hended]
      refine ⟨hperm.map some,
        (hperm.nodup_iff.mpr horderly.nodup).map fun _ _ heq => Option.some.inj heq, ?_⟩
      have hstart := hturn 0
      rw [Function.iterate_zero_apply, Nat.add_zero] at hstart
      rw [hturn, hstart]
      change l.orderedActors[(l.current + k) % l.actors.length]? = _
      rw [hk, Nat.add_mod_right]
  · intro actor hnew
    exact ⟨_, get?_courseBy_of_updateLoop hl rfl, Loop.orderedActors_enroll horderly hnew,
      Loop.currentActor?_enroll horderly hnew⟩

/-- Three actors and four events, one of them for another loop and one that is
not about loops. -/
theorem turns_go_round_skirmish :
    let t := State.empty.courseBy Event.apply [.loopSwitched "encounter" true,
      .loopOrder "encounter" "fighter" 15, .actorAdded "encounter" "wizard",
      .loopOrder "encounter" "goblin" 8, .loopAdvanced "encounter"]
    let events : List Event := [.loopAdvanced "encounter", .hinted "Next.", .loopAdvanced "chase",
      .loopAdvanced "encounter", .loopAdvanced "encounter"]
    t.turn? "encounter" = some "goblin"
      ∧ (t.turnsEnded "encounter" events).Perm [some "fighter", some "wizard", some "goblin"]
      ∧ (t.courseBy Event.apply events).turn? "encounter" = some "goblin"
      ∧ (t.courseBy Event.apply [.actorAdded "encounter" "rogue"]).turn? "encounter"
        = some "goblin" := by
  intro t events
  let l : Loop :=
    ⟨true, ["fighter", "wizard", "goblin"], .ofList [("fighter", 15), ("goblin", 8)], false, 1⟩
  have hl : t.loops.get? "encounter" = some l := by decide +kernel
  have horder : ["fighter", "goblin", "wizard"] = l.orderedActors :=
    Loop.eq_orderedActors (by decide) (by decide) (by decide +kernel)
  have hcurrent : l.currentActor? = some "goblin" := by
    rw [Loop.currentActor?, ← horder]
    rfl
  have hevents : ∀ e ∈ events, e.PassesOrLeaves "encounter" := by
    simp [events, Event.PassesOrLeaves, Event.loop?]
  obtain ⟨hround, hjoin⟩ := turns_go_round State.empty rfl _ "encounter" l hl
  obtain ⟨l', hl', -, -, honce⟩ := hround rfl (by simp [l]) events hevents
  obtain ⟨hperm, -, hsame⟩ := honce (by decide +kernel)
  obtain ⟨l'', hl'', -, hstays⟩ := hjoin "rogue" (by decide)
  refine ⟨(turn?_of_get? hl).trans hcurrent, hperm, ?_, ?_⟩
  · exact (turn?_of_get? hl').trans (hsame.trans hcurrent)
  · exact (turn?_of_get? hl'').trans ((hstays (by simp [l])).trans hcurrent)

end State

end GameTable
