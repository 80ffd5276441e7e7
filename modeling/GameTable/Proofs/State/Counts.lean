import GameTable.Proofs.State.Budget

/-!
# Counts below zero

Resources and what is in an inventory are counts. Setting one to a negative
number is refused, and no other change of an entity touches them, so an entity
whose counts are not negative keeps them so (`Becomes.stocked`).

What an entity brings with it is another matter. When it enters, only what is
spent of it is checked (`checkSpent`), and that looks at a resource only if
something is spent of it; the inventory is not looked at. So a negative count
that could not be set may come in with an entity.
`course_keeps_counts_iff` says that there is no other way: counts are never
negative just if those of the entities that enter are not.
-/

namespace GameTable

namespace Entity

/-- No resource and nothing in the inventory is negative. -/
structure Stocked (e : Entity) : Prop where
  resources {key : String} {n : Int} : e.resources.get? key = some n → 0 ≤ n
  inventory {key : String} {n : Int} : e.inventory.get? key = some n → 0 ≤ n

variable {x y : Entity}

theorem nonneg_of_get?_putEntry {d : Dict Int} {key q : String} {number : Option Int} {n : Int}
    (hd : ∀ {n}, d.get? q = some n → 0 ≤ n) (hnumber : ∀ n, number = some n → 0 ≤ n)
    (hn : (putEntry d key number).get? q = some n) : 0 ≤ n := by
  rw [get?_putEntry] at hn
  split at hn
  · exact hnumber n hn
  · exact hd hn

theorem Stocked.setNumbers (h : x.Stocked) {sec : NumberSection} {key : String}
    {number : Option Int} (hn : ∀ n, number = some n → x.checkNumber sec key n = .ok ()) :
    (x.setNumbers (putEntry (x.numbers sec) key number) sec).Stocked := by
  have hcount : countsUp sec = true → ∀ n, number = some n → 0 ≤ n :=
    fun hsec n hn' => (checkNumber_eq_ok_iff.mp (hn n hn')).1 hsec
  cases sec with
  | resources => exact ⟨nonneg_of_get?_putEntry h.resources (hcount rfl), h.inventory⟩
  | inventory => exact ⟨h.resources, nonneg_of_get?_putEntry h.inventory (hcount rfl)⟩
  | stats => exact ⟨h.resources, h.inventory⟩
  | proficiencies => exact ⟨h.resources, h.inventory⟩
  | spent => exact ⟨h.resources, h.inventory⟩

theorem Becomes.stocked {e : Event} (h : Becomes e x y) (hx : x.Stocked) : y.Stocked := by
  cases h with
  | @entry _ _ _ _ sec _ _ _ hy =>
      cases sec with
      | numbers sec =>
          obtain ⟨number, -, hn, rfl⟩ := changeEntry_numbers.mp hy
          exact hx.setNumbers hn
      | texts sec =>
          obtain ⟨text, -, rfl⟩ := changeEntry_texts.mp hy
          cases sec <;> exact ⟨hx.resources, hx.inventory⟩
  | spending hy =>
      obtain ⟨-, rfl⟩ := spendOne_eq_ok_iff.mp hy
      exact ⟨hx.resources, hx.inventory⟩
  | @condition _ condition add _ =>
      obtain ⟨conditions, heq⟩ := x.condition_eq condition add
      rw [heq]
      exact ⟨hx.resources, hx.inventory⟩

end Entity

namespace State

/-- Where no sheet of the genesis has a negative count: none of the states that
the events lead through, those that are refused passed over, has an entity with
one, just if none of the entities that enter on the way has one. -/
theorem course_keeps_counts_iff (entities : List Entity) (hentities : ∀ x ∈ entities, x.Stocked)
    (events : List Event) :
    (∀ before, before <+: events → ∀ id x,
        ((genesis entities).courseBy Event.apply before).entities.get? id = some x → x.Stocked)
      ↔ ∀ x ∈ (genesis entities).entrants events, x.Stocked :=
  (every_genesis hentities).course_iff (fun _ _ _ h => h.stocked) events

/-- Arrows are used up and cannot be owed, wounds go down to nothing, and a
goblin enters with counts of its own. -/
theorem course_keeps_counts_skirmish :
    let hero : Entity := { Entity.blank "hero" "Hero" with
      resources := .ofList [("hp", 9)], inventory := .ofList [("arrow", 1)] }
    let goblin : Entity := { Entity.blank "goblin" "Goblin" with resources := .ofList [("hp", 7)] }
    let events := [.attributeChanged "hero" "inventory" "arrow" (.int 0),
      .attributeChanged "hero" "inventory" "arrow" (.int (-1)), .entityAdded goblin,
      .attributeChanged "goblin" "resources" "hp" (.int (-2)),
      .attributeChanged "goblin" "resources" "hp" (.int 0), .spentAdded "hero" "hp"]
    let s := (genesis [hero]).courseBy Event.apply events
    (∃ x y, s.entities.get? "hero" = some x ∧ x.inventory.get? "arrow" = some 0
        ∧ s.entities.get? "goblin" = some y ∧ y.resources.get? "hp" = some 0)
      ∧ ∀ id x, s.entities.get? id = some x → x.Stocked := by
  intro hero goblin events s
  have hcount : ∀ (key q : String) (count n : Int), 0 ≤ count →
      (Dict.ofList [(key, count)]).get? q = some n → 0 ≤ n := by
    intro key q count n hcount hn
    obtain ⟨-, rfl⟩ := Prod.mk.inj (List.mem_singleton.mp (Dict.mem_of_get?_ofList hn))
    exact hcount
  have hhero : ∀ x ∈ [hero], x.Stocked := by
    intro x hx
    obtain rfl := List.mem_singleton.mp hx
    exact ⟨hcount _ _ _ _ (by decide), hcount _ _ _ _ (by decide)⟩
  have hentrants : ∀ x ∈ (genesis [hero]).entrants events, x.Stocked := by
    have heq : (genesis [hero]).entrants events = [goblin] := by decide +kernel
    intro x hx
    obtain rfl := List.mem_singleton.mp (heq ▸ hx)
    exact ⟨hcount _ _ _ _ (by decide), fun hn => nomatch hn⟩
  have hx : s.entities.get? "hero" = some { hero with
      inventory := .ofList [("arrow", 0)], spent := .ofList [("hp", 1)] } := by decide +kernel
  have hy : s.entities.get? "goblin" = some { goblin with resources := .ofList [("hp", 0)] } := by
    decide +kernel
  refine ⟨⟨_, _, hx, rfl, hy, rfl⟩, ?_⟩
  exact (course_keeps_counts_iff [hero] hhero events).mpr hentrants events List.prefix_rfl

/-- A goblin may enter with less than nothing of a resource, or of a thing it
carries. Setting the same numbers is refused. -/
theorem negative_count_is_admitted :
    let goblin := Entity.blank "goblin" "Goblin"
    let dying : Entity := { goblin with resources := .ofList [("hp", -5)] }
    let indebted : Entity := { goblin with inventory := .ofList [("coin", -1)] }
    (∀ x ∈ [dying, indebted], (genesis []).courseBy Event.apply [.entityAdded x] = genesis [x]
        ∧ ¬ x.Stocked)
      ∧ (Event.attributeChanged "goblin" "resources" "hp" (.int (-5))).apply (genesis [goblin])
        = .error (.negativeValue "goblin" .resources "hp" (-5))
      ∧ (Event.attributeChanged "goblin" "inventory" "coin" (.int (-1))).apply (genesis [goblin])
        = .error (.negativeValue "goblin" .inventory "coin" (-1)) := by
  intro goblin dying indebted
  have hnegative : ∀ x ∈ [dying, indebted], ¬ x.Stocked := by
    intro x hx h
    rcases List.mem_cons.mp hx with rfl | hx
    · have hdying : dying.resources.get? "hp" = some (-5) := rfl
      exact absurd (h.resources hdying) (by decide)
    · obtain rfl := List.mem_singleton.mp hx
      have hindebted : indebted.inventory.get? "coin" = some (-1) := rfl
      exact absurd (h.inventory hindebted) (by decide)
  refine ⟨fun x hx => ⟨?_, hnegative x hx⟩, ?_, ?_⟩
  · rcases List.mem_cons.mp hx with rfl | hx
    · rfl
    · obtain rfl := List.mem_singleton.mp hx
      rfl
  · have hsec : Section.named? "resources" = some (.numbers .resources) := by decide +kernel
    rw [Event.apply, hsec]
    rfl
  · have hsec : Section.named? "inventory" = some (.numbers .inventory) := by decide +kernel
    rw [Event.apply, hsec]
    rfl

end State

end GameTable
