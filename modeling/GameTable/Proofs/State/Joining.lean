import GameTable.Proofs.State.Rotation

/-!
# Keys given while the turn goes round

The turn is a place in the order of turns, and the event that gives an actor a key
leaves the place alone. It may move the actor past the place, to the front or to
the back. Nobody else moves: who of the others is ahead of whom stays
(`ahead_giveKey_iff`), so there is one actor more or less in front of another, or
as many as before (`Orderly.countP_ahead_giveKey`). Hence whoever has the turn
keeps it just if the actor stays on its side, ahead of the one with the turn or
not (`Orderly.currentActor?_giveKey_iff`).

For one that joins with the key this means that the turn is kept just if the key
is no better than that of the one who has it. With a better key the turn falls to
whoever is now right in front of that one: the one that has just joined, or
somebody whose turn has ended already.
-/

namespace GameTable

namespace Loop

variable {l : Loop} {a b actor current : String} {value : Int}

/-- The loop with the key of an actor, who takes part from now on. -/
def giveKey (l : Loop) (actor : String) (value : Int) : Loop :=
  { l with order := l.order.insert actor value }.enroll actor

theorem Orderly.giveKey (h : l.Orderly) (actor : String) (value : Int) :
    (l.giveKey actor value).Orderly :=
  Becomes.orderly (e := .loopOrder "" actor value) .ordered h

theorem active_giveKey : (l.giveKey actor value).active = l.active := by
  rw [giveKey, enroll]
  split <;> rfl

theorem current_giveKey : (l.giveKey actor value).current = l.current := current_enroll ..

theorem actors_giveKey :
    (l.giveKey actor value).actors
      = if actor ∈ l.actors then l.actors else l.actors ++ [actor] := by
  split_ifs with hmem
  · rw [giveKey, enroll_of_mem (by exact hmem)]
  · rw [giveKey, enroll_of_not_mem (by exact hmem)]

theorem mem_actors_giveKey : a ∈ (l.giveKey actor value).actors ↔ a ∈ l.actors ∨ a = actor :=
  mem_actors_enroll

theorem idxOf_actors_giveKey (ha : a ∈ l.actors) :
    (l.giveKey actor value).actors.idxOf a = l.actors.idxOf a := by
  rw [actors_giveKey]
  split_ifs
  · rfl
  · exact List.idxOf_append_of_mem ha

theorem get?_order_giveKey (a : String) :
    (l.giveKey actor value).order.get? a = if actor = a then some value else l.order.get? a := by
  rw [giveKey, order_enroll, Dict.get?_insert]

theorem ascending_giveKey : (l.giveKey actor value).ascending = l.ascending := by
  rw [giveKey, enroll]
  split <;> rfl

/-- Those who are not given a key precede one another as before. -/
theorem precedes_giveKey (ha : a ≠ actor) (hb : b ≠ actor) :
    (l.giveKey actor value).precedes a b = l.precedes a b := by
  rw [precedes, precedes, get?_order_giveKey, get?_order_giveKey, if_neg ha.symm, if_neg hb.symm,
    ascending_giveKey]

theorem ahead_giveKey_iff (ha : a ≠ actor) (hb : b ≠ actor) :
    (l.giveKey actor value).Ahead a b ↔ l.Ahead a b := by
  rw [ahead_iff, ahead_iff, mem_actors_giveKey, mem_actors_giveKey, or_iff_left ha,
    or_iff_left hb, precedes_giveKey ha hb, precedes_giveKey hb ha]
  refine and_congr_right fun hamem => and_congr_right fun hbmem => and_congr_right fun _ => ?_
  rw [idxOf_actors_giveKey hamem, idxOf_actors_giveKey hbmem]

theorem erase_actors_giveKey :
    (l.giveKey actor value).actors.erase actor = l.actors.erase actor := by
  rw [actors_giveKey]
  split_ifs with hmem
  · rfl
  · rw [List.erase_append_right _ hmem, List.erase_of_not_mem hmem]
    simp

/-- Those ahead of an actor, one of them counted apart. -/
theorem countP_ahead (l : Loop) (actor b : String) :
    l.actors.countP (l.Ahead · b)
      = (l.actors.erase actor).countP (l.Ahead · b) + if l.Ahead actor b then 1 else 0 := by
  by_cases hmem : actor ∈ l.actors
  · rw [(List.perm_cons_erase hmem).countP_eq, List.countP_cons]
    simp
  · have hnot : ¬ l.Ahead actor b := fun h => hmem h.mem_left
    rw [List.erase_of_not_mem hmem, if_neg hnot, Nat.add_zero]

/-- Whose turn it is: as many actors are ahead as the turn says. -/
theorem Orderly.currentActor?_eq_some_iff (h : l.Orderly) :
    l.currentActor? = some a
      ↔ l.active = true ∧ a ∈ l.actors ∧ l.actors.countP (l.Ahead · a) = l.current := by
  rw [currentActor?, h.mod_current]
  cases l.active with
  | false => simp
  | true =>
      rw [if_pos rfl, and_iff_right rfl]
      constructor
      · intro hturn
        obtain ⟨hlt, rfl⟩ := List.getElem?_eq_some_iff.mp hturn
        have hmem := mem_orderedActors.mp (List.getElem_mem hlt)
        refine ⟨hmem, ?_⟩
        rw [← idxOf_orderedActors h.nodup hmem]
        exact (nodup_orderedActors h.nodup).idxOf_getElem _ hlt
      · rintro ⟨hmem, hcount⟩
        rw [← hcount, ← idxOf_orderedActors h.nodup hmem]
        exact List.getElem?_idxOf (mem_orderedActors.mpr hmem)

/-- Whoever is given a key is in front of another actor, or not, and that is all
the difference the key makes to the place of the other. -/
theorem Orderly.countP_ahead_giveKey (h : l.Orderly) (value : Int) (hne : b ≠ actor) :
    (l.giveKey actor value).actors.countP ((l.giveKey actor value).Ahead · b)
        + (if l.Ahead actor b then 1 else 0)
      = l.actors.countP (l.Ahead · b)
        + if (l.giveKey actor value).Ahead actor b then 1 else 0 := by
  have hothers : (l.actors.erase actor).countP ((l.giveKey actor value).Ahead · b)
      = (l.actors.erase actor).countP (l.Ahead · b) := by
    refine List.countP_congr fun a ha => ?_
    have hother : a ≠ actor := fun heq => by
      subst heq
      exact h.nodup.not_mem_erase ha
    simpa using ahead_giveKey_iff hother hne
  rw [countP_ahead _ actor, countP_ahead l actor, erase_actors_giveKey, hothers]
  omega

theorem Orderly.currentActor?_giveKey_iff (h : l.Orderly) (value : Int)
    (hcurrent : l.currentActor? = some current) (hne : current ≠ actor) :
    (l.giveKey actor value).currentActor? = some current
      ↔ ((l.giveKey actor value).Ahead actor current ↔ l.Ahead actor current) := by
  obtain ⟨hactive, hmem, hcount⟩ := h.currentActor?_eq_some_iff.mp hcurrent
  have hplace := h.countP_ahead_giveKey value hne
  rw [(h.giveKey actor value).currentActor?_eq_some_iff, active_giveKey, and_iff_right hactive,
    mem_actors_giveKey, and_iff_right (.inl hmem), current_giveKey, ← hcount]
  by_cases hbefore : l.Ahead actor current <;>
    by_cases hafter : (l.giveKey actor value).Ahead actor current <;>
      simp only [hbefore, hafter, if_true, if_false, iff_true, iff_false, not_true_eq_false]
        at hplace ⊢ <;>
      omega

/-- One that joins with a key is behind another actor just if that one has a key
that is as good. -/
theorem not_ahead_giveKey_iff (hnew : actor ∉ l.actors) (hb : b ∈ l.actors) :
    ¬ (l.giveKey actor value).Ahead actor b
      ↔ ∃ key, l.order.get? b = some key ∧ if l.ascending then key ≤ value else value ≤ key := by
  have hne : actor ≠ b := fun heq => hnew (heq ▸ hb)
  have hlast : ¬ (l.giveKey actor value).actors.idxOf actor
      < (l.giveKey actor value).actors.idxOf b := by
    have hlt := List.idxOf_lt_length_of_mem hb
    rw [idxOf_actors_giveKey hb, actors_giveKey, if_neg hnew,
      List.idxOf_append_of_notMem hnew]
    omega
  have hback : (l.giveKey actor value).precedes b actor = true
      ↔ ∃ key, l.order.get? b = some key ∧ if l.ascending then key ≤ value else value ≤ key := by
    rw [precedes_iff]
    simp only [get?_order_giveKey, if_pos, if_neg hne, ascending_giveKey, Option.some.injEq,
      forall_eq']
  rw [← hback, ahead_iff]
  constructor
  · intro hnot
    by_contra hprecedes
    refine hnot ⟨mem_actors_giveKey.mpr (.inr rfl), mem_actors_giveKey.mpr (.inl hb), ?_,
      fun h => absurd h hprecedes⟩
    exact (Bool.or_eq_true_iff.mp (precedes_total _ actor b)).resolve_right hprecedes
  · rintro hprecedes ⟨-, -, -, hjoined⟩
    exact hlast (hjoined hprecedes)

end Loop

namespace State

/-- Take any state that events have led to from one without loops, an active loop
of it and an actor that does not have the turn. When the actor is given a key, the
turn stays where it was just if somebody has it and the actor is ahead of that one
afterwards as much as before. If the actor joins by that, then it stays just if
whoever has the turn has a key at least as good. -/
theorem turn_survives_key_iff (s : State) (hs : s.loops = ∅) (before : List Event)
    (name : String) (l : Loop)
    (hl : (s.courseBy Event.apply before).loops.get? name = some l) (hactive : l.active = true)
    (actor : String) (value : Int) (hother : l.currentActor? ≠ some actor) :
    let t := s.courseBy Event.apply before
    ∃ l', (t.courseBy Event.apply [.loopOrder name actor value]).loops.get? name = some l'
      ∧ (l'.currentActor? = l.currentActor?
        ↔ ∃ current, l.currentActor? = some current
          ∧ (l'.Ahead actor current ↔ l.Ahead actor current))
      ∧ (actor ∉ l.actors → (l'.currentActor? = l.currentActor?
        ↔ ∃ current key, l.currentActor? = some current ∧ l.order.get? current = some key
          ∧ if l.ascending then key ≤ value else value ≤ key)) := by
  intro t
  have horderly : l.Orderly := orderly_courseBy hs before name l hl
  have happly : (Event.loopOrder name actor value).apply t
      = t.updateLoop name (·.giveKey actor value) := rfl
  refine ⟨_, get?_courseBy_of_updateLoop hl happly, ?_⟩
  cases hcurrent : l.currentActor? with
  | none =>
      -- Nobody has had the turn, and now somebody has.
      have hsome : (l.giveKey actor value).currentActor?.isSome = true :=
        (horderly.giveKey actor value).isSome_currentActor?.mpr
          ⟨Loop.active_giveKey.trans hactive,
            List.ne_nil_of_mem (Loop.mem_actors_giveKey.mpr (.inr rfl))⟩
      rw [Option.isSome_iff_ne_none] at hsome
      simp [hsome]
  | some current =>
      have hne : current ≠ actor := fun heq => hother (heq ▸ hcurrent)
      have hkept := horderly.currentActor?_giveKey_iff value hcurrent hne
      refine ⟨by simpa using hkept, fun hnew => ?_⟩
      have hmem := (horderly.currentActor?_eq_some_iff.mp hcurrent).2.1
      have hnot : ¬ l.Ahead actor current := fun h => hnew h.mem_left
      rw [hkept, iff_false_right hnot, Loop.not_ahead_giveKey_iff hnew hmem]
      simp

/-- The wizard joins with the key of the goblin, which has the turn, and comes
behind it. -/
theorem turn_survives_key_of_straggler :
    let t := State.empty.courseBy Event.apply [.loopSwitched "encounter" true,
      .loopOrder "encounter" "fighter" 15, .loopOrder "encounter" "goblin" 8,
      .loopAdvanced "encounter"]
    t.turn? "encounter" = some "goblin"
      ∧ (t.courseBy Event.apply [.loopOrder "encounter" "wizard" 8]).turn? "encounter"
        = some "goblin" := by
  intro t
  let l : Loop := ⟨true, ["fighter", "goblin"], .ofList [("fighter", 15), ("goblin", 8)], false, 1⟩
  have hl : t.loops.get? "encounter" = some l := by decide +kernel
  have horder : ["fighter", "goblin"] = l.orderedActors :=
    Loop.eq_orderedActors (by decide) (by decide) (by decide +kernel)
  have hcurrent : l.currentActor? = some "goblin" := by
    rw [Loop.currentActor?, ← horder]
    rfl
  obtain ⟨l', hl', -, hjoins⟩ := turn_survives_key_iff State.empty rfl _ "encounter" l hl rfl
    "wizard" 8 (by rw [hcurrent]; decide)
  have hstays := (hjoins (by decide)).mpr ⟨"goblin", 8, hcurrent, by decide +kernel, by decide⟩
  exact ⟨(turn?_of_get? hl).trans hcurrent, (turn?_of_get? hl').trans (hstays.trans hcurrent)⟩

/-- The round is over and it is the fighter's turn again. The wizard joins with a
better key, and it is the wizard's turn, though no event has passed the turn on. -/
theorem late_joiner_takes_turn :
    let t := State.empty.courseBy Event.apply [.loopSwitched "encounter" true,
      .loopOrder "encounter" "fighter" 15, .loopOrder "encounter" "goblin" 8,
      .loopAdvanced "encounter", .loopAdvanced "encounter"]
    t.turn? "encounter" = some "fighter"
      ∧ (t.courseBy Event.apply [.loopOrder "encounter" "wizard" 20]).turn? "encounter"
        = some "wizard" := by
  intro t
  let l : Loop := ⟨true, ["fighter", "goblin"], .ofList [("fighter", 15), ("goblin", 8)], false, 0⟩
  have hl : t.loops.get? "encounter" = some l := by decide +kernel
  let joined : Loop := ⟨true, ["fighter", "goblin", "wizard"],
    .ofList [("fighter", 15), ("goblin", 8), ("wizard", 20)], false, 0⟩
  have hjoined : (t.courseBy Event.apply [.loopOrder "encounter" "wizard" 20]).loops.get?
      "encounter" = some joined := by decide +kernel
  have horder : ["fighter", "goblin"] = l.orderedActors :=
    Loop.eq_orderedActors (by decide) (by decide) (by decide +kernel)
  have hnew : ["wizard", "fighter", "goblin"] = joined.orderedActors :=
    Loop.eq_orderedActors (by decide) (by decide) (by decide +kernel)
  rw [turn?_of_get? hl, turn?_of_get? hjoined, Loop.currentActor?, Loop.currentActor?, ← horder,
    ← hnew]
  exact ⟨rfl, rfl⟩

end State

end GameTable
