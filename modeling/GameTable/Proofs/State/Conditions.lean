import Mathlib.Data.List.Induction
import Mathlib.Data.List.Nodup
import GameTable.Proofs.Event.Course

/-!
# No condition twice

Adding a condition that is there already does nothing, and removing one
removes it wherever it stands. So an event that changes an entity keeps its
conditions pairwise distinct (`Becomes.nodup_conditions`).

An entity that enters comes with conditions of its own, and these are not
looked at. `course_keeps_conditions_distinct_iff` says that this is the only
way in which a condition can come to be listed twice: in a game that began
with distinct conditions they stay distinct throughout just if those of every
entity that enters are.
-/

namespace GameTable

namespace Entity

theorem nodup_addCondition {x : Entity} (h : x.conditions.Nodup) (condition : String) :
    (x.addCondition condition).conditions.Nodup := by
  rw [addCondition, hasCondition]
  by_cases hmem : condition ∈ x.conditions
  · rw [if_pos (decide_eq_true hmem)]
    exact h
  · rw [if_neg (by simpa using hmem)]
    simpa using h.concat hmem

theorem nodup_removeCondition {x : Entity} (h : x.conditions.Nodup) (condition : String) :
    (x.removeCondition condition).conditions.Nodup :=
  h.filter _

/-- Setting an entry of a section leaves the conditions alone. -/
theorem conditions_of_changeEntry {x y : Entity} {sec : Section} {key : String} {value : Json}
    (h : x.changeEntry sec key value = .ok y) : y.conditions = x.conditions := by
  cases sec with
  | numbers sec =>
      obtain ⟨number, -, -, rfl⟩ := changeEntry_numbers.mp h
      cases sec <;> rfl
  | texts sec =>
      obtain ⟨text, -, rfl⟩ := changeEntry_texts.mp h
      cases sec <;> rfl

theorem Becomes.nodup_conditions {e : Event} {x y : Entity} (h : Becomes e x y)
    (hx : x.conditions.Nodup) : y.conditions.Nodup := by
  cases h with
  | entry _ hy =>
      rw [conditions_of_changeEntry hy]
      exact hx
  | spending hy =>
      obtain ⟨-, rfl⟩ := spendOne_eq_ok_iff.mp hy
      exact hx
  | @condition _ condition add _ =>
      cases add with
      | true => exact nodup_addCondition hx condition
      | false => exact nodup_removeCondition hx condition

end Entity

namespace State

/-- No entity has a condition twice. -/
def Distinct (s : State) : Prop := ∀ id x, s.entities.get? id = some x → x.conditions.Nodup

theorem distinct_genesis {entities : List Entity} (h : ∀ x ∈ entities, x.conditions.Nodup) :
    (genesis entities).Distinct :=
  every_genesis h

theorem Distinct.setEntity {s : State} (hs : s.Distinct) {x : Entity} (hx : x.conditions.Nodup)
    (id : String) : (s.setEntity id x).Distinct :=
  Every.setEntity hs hx id

/-- An event keeps conditions distinct, and if an entity enters by it, that is
up to the entity. -/
theorem Distinct.of_apply {e : Event} {s t : State} (hs : s.Distinct)
    (henters : ∀ x, e = .entityAdded x → x.conditions.Nodup) (h : e.apply s = .ok t) :
    t.Distinct := by
  cases Event.actsOn_of_applyExact (Event.applyExact_of_apply h) with
  | apart hentities =>
      intro id x hx
      exact hs id x (hentities ▸ hx)
  | enters _ _ => exact hs.setEntity (henters _ rfl) _
  | changes hx hbecomes => exact hs.setEntity (hbecomes.nodup_conditions (hs _ _ hx)) _

theorem nodup_of_distinct_of_enters {x : Entity} {s t : State} (ht : t.Distinct)
    (h : (Event.entityAdded x).apply s = .ok t) : x.conditions.Nodup := by
  obtain ⟨-, -, -, rfl⟩ := addEntity_eq_ok_iff.mp h
  exact ht x.id x (Dict.get?_insert_self ..)

/-- Where no sheet of the genesis lists a condition twice: none of the states
that the events lead through, those that are refused passed over, has an entity
that does, just if none of the entities that enter on the way does. -/
theorem course_keeps_conditions_distinct_iff (entities : List Entity)
    (hentities : ∀ x ∈ entities, x.conditions.Nodup) (events : List Event) :
    (∀ before after, events = before ++ after →
        ∀ id x, ((genesis entities).courseBy Event.apply before).entities.get? id = some x →
          x.conditions.Nodup)
      ↔ ∀ before x after t, events = before ++ .entityAdded x :: after →
          (Event.entityAdded x).apply ((genesis entities).courseBy Event.apply before) = .ok t →
          x.conditions.Nodup := by
  constructor
  · intro hdistinct before x after t hevents ht
    have hafter : (genesis entities).courseBy Event.apply (before ++ [.entityAdded x]) = t := by
      rw [courseBy_append, courseBy, ht]
      rfl
    refine nodup_of_distinct_of_enters (t := t) ?_ ht
    rw [← hafter]
    exact hdistinct (before ++ [.entityAdded x]) after (by simpa using hevents)
  · intro henters before
    -- What is known of the events is where they stand, so the last one is taken off first.
    induction before using List.reverseRecOn with
    | nil =>
        intro _ _
        exact distinct_genesis hentities
    | append_singleton before e ih =>
        intro after hevents
        have hsplit : events = before ++ e :: after := by simpa using hevents
        have hbefore : ((genesis entities).courseBy Event.apply before).Distinct := ih _ hsplit
        rw [courseBy_append, courseBy]
        split
        · rename_i t ht
          refine hbefore.of_apply (fun x hx => ?_) ht
          subst hx
          exact henters before x after t hsplit ht
        · exact hbefore

/-- A condition is added twice and removed, and a goblin enters that has one of
its own. -/
theorem course_keeps_conditions_distinct_skirmish :
    let hero := Entity.blank "hero" "Hero"
    let goblin : Entity := { Entity.blank "goblin" "Goblin" with conditions := ["hidden"] }
    let events := [.conditionChanged "hero" "prone" true, .conditionChanged "hero" "stunned" true,
      .conditionChanged "hero" "prone" true, .entityAdded goblin,
      .conditionChanged "goblin" "hidden" true, .conditionChanged "goblin" "prone" false]
    let s := (genesis [hero]).courseBy Event.apply events
    ∃ x y, s.entities.get? "hero" = some x ∧ x.conditions = ["prone", "stunned"]
      ∧ s.entities.get? "goblin" = some y ∧ y.conditions = ["hidden"]
      ∧ x.conditions.Nodup ∧ y.conditions.Nodup := by
  intro hero goblin events s
  have hx : s.entities.get? "hero" = some { hero with conditions := ["prone", "stunned"] } := by
    decide +kernel
  have hy : s.entities.get? "goblin" = some goblin := by decide +kernel
  have hhero : ∀ x ∈ [hero], x.conditions.Nodup := by
    intro x hx
    obtain rfl := List.mem_singleton.mp hx
    exact List.nodup_nil
  have henters : ∀ before x after t, events = before ++ .entityAdded x :: after →
      (Event.entityAdded x).apply ((genesis [hero]).courseBy Event.apply before) = .ok t →
      x.conditions.Nodup := by
    intro before x after t hevents _
    have hmem : Event.entityAdded x ∈ events := by simp [hevents]
    have heq : x = goblin := by simpa [events] using hmem
    rw [heq]
    simp [goblin]
  have hkept := (course_keeps_conditions_distinct_iff [hero] hhero events).mpr henters events []
    (by simp)
  exact ⟨_, _, hx, rfl, hy, rfl, hkept _ _ hx, hkept _ _ hy⟩

/-- An entity may enter with a condition that it lists twice. By events a
condition is added only once. -/
theorem repeated_condition_is_admitted :
    let goblin := Entity.blank "goblin" "Goblin"
    let fallen : Entity := { goblin with conditions := ["prone", "prone"] }
    let fall := Event.conditionChanged "goblin" "prone" true
    (Event.entityAdded fallen).apply (genesis []) = .ok (genesis [fallen])
      ∧ ((genesis []).courseBy Event.apply [.entityAdded fallen]).entities.get? "goblin"
        = some fallen
      ∧ ¬ fallen.conditions.Nodup
      ∧ (genesis []).courseBy Event.apply [.entityAdded goblin, fall, fall]
        = genesis [{ goblin with conditions := ["prone"] }] := by
  intro goblin fallen fall
  refine ⟨rfl, rfl, by decide, by decide +kernel⟩

end State

end GameTable
