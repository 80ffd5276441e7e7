import GameTable.Campaign.Content
import GameTable.Proofs.Event.Course
import GameTable.Proofs.Result

/-!
# Nothing is overspent

What is spent is never negative, and never more than there is of a resource
(`Entity.InBudget`). Checking a sheet says just that (`checkSpent_eq_ok_iff`),
so it holds of every sheet that is admitted; and each way in which an event may
change an entity keeps it (`Becomes.inBudget`), in whatever order resources are
introduced, lowered, used up and removed. `State.Sound` adds that every entity
stands under its own id.

What remains of a resource need not be positive for that. A resource of which
nothing has been spent is not looked at when an entity enters, so it may be
negative then, though no later event could set it so. `course_keeps_budgets`
says that this is the only way: what remains is negative just if the resource
itself is.
-/

namespace GameTable

namespace Entity

/-- Nothing spent is negative, or more than the resource of that name. -/
structure InBudget (e : Entity) : Prop where
  nonneg {key : String} {spent : Int} : e.spent.get? key = some spent → 0 ≤ spent
  within {key : String} {spent limit : Int} :
    e.spent.get? key = some spent → e.resources.get? key = some limit → spent ≤ limit

/-! ## Checking a sheet -/

theorem checkSpentEntry_eq_ok_iff {e : Entity} {key : String} {spent : Int} :
    e.checkSpentEntry key spent = .ok ()
      ↔ 0 ≤ spent ∧ ∀ limit, e.resources.get? key = some limit → spent ≤ limit := by
  rw [checkSpentEntry]
  by_cases hneg : spent < 0
  · simp [hneg, Int.not_le.mpr hneg]
  · rw [if_neg hneg, and_iff_right (Int.not_lt.mp hneg)]
    cases e.resources.get? key with
    | none => simp
    | some limit =>
        by_cases h : spent ≤ limit
        · simp [h, Int.not_lt.mpr h]
        · simp [h, Int.not_le.mp h]

theorem checkSpent_eq_ok_iff {e : Entity} : e.checkSpent = .ok () ↔ e.InBudget := by
  have hentry : e.checkSpent = .ok ()
      ↔ ∀ key spent, e.spent.get? key = some spent → e.checkSpentEntry key spent = .ok () := by
    rw [checkSpent, forM_eq_ok_iff]
    constructor
    · intro h key spent hs
      exact h (key, spent) (Dict.mem_toList_iff.mpr hs)
    · rintro h ⟨key, spent⟩ hmem
      exact h key spent (Dict.mem_toList_iff.mp hmem)
  rw [hentry]
  constructor
  · intro h
    exact ⟨fun hs => (checkSpentEntry_eq_ok_iff.mp (h _ _ hs)).1,
      fun hs hr => (checkSpentEntry_eq_ok_iff.mp (h _ _ hs)).2 _ hr⟩
  · intro h key spent hs
    exact checkSpentEntry_eq_ok_iff.mpr ⟨h.nonneg hs, fun limit hr => h.within hs hr⟩

/-- Every sheet of a character file that is read is within its budget. -/
theorem checkSpent_of_sheetsOfYaml {content : String} {sheets : List Entity}
    (h : sheetsOfYaml content = .ok sheets) : ∀ e ∈ sheets, e.checkSpent = .ok () := by
  rw [sheetsOfYaml] at h
  obtain ⟨read, -, h⟩ := bind_eq_ok_iff.mp h
  obtain ⟨u, hadmit, h⟩ := bind_eq_ok_iff.mp h
  obtain rfl := Except.ok.inj h
  intro e he
  have hsheet := forM_eq_ok_iff.mp hadmit e he
  rw [admitSheet] at hsheet
  split at hsheet
  · assumption
  · cases hsheet

/-! ## Keeping a budget -/

theorem InBudget.setNumbers {x : Entity} (h : x.InBudget) {sec : NumberSection} {key : String}
    {number : Option Int} (hn : ∀ n, number = some n → x.checkNumber sec key n = .ok ()) :
    (x.setNumbers (putEntry (x.numbers sec) key number) sec).InBudget := by
  have hcheck := fun n hn' => checkNumber_eq_ok_iff.mp (hn n hn')
  cases sec with
  | stats => exact ⟨h.nonneg, h.within⟩
  | proficiencies => exact ⟨h.nonneg, h.within⟩
  | inventory => exact ⟨h.nonneg, h.within⟩
  | resources =>
      refine ⟨h.nonneg, fun {q spent limit} hs hr => ?_⟩
      rw [Entity.setNumbers, get?_putEntry] at hr
      split at hr
      · rename_i heq
        exact (hcheck limit hr).2.2 rfl spent (heq ▸ hs)
      · exact h.within hs hr
  | spent =>
      refine ⟨fun {q spent} hs => ?_, fun {q spent limit} hs hr => ?_⟩
      · rw [Entity.setNumbers, get?_putEntry] at hs
        split at hs
        · exact (hcheck spent hs).1 rfl
        · exact h.nonneg hs
      · rw [Entity.setNumbers, get?_putEntry] at hs
        split at hs
        · rename_i heq
          exact (hcheck spent hs).2.1 rfl limit (heq ▸ hr)
        · exact h.within hs hr

/-- Where nothing has been spent, zero is. -/
theorem InBudget.spent_nonneg {x : Entity} (h : x.InBudget) (key : String) :
    0 ≤ (x.spent.get? key).getD 0 := by
  cases hs : x.spent.get? key with
  | none => exact Int.le_refl 0
  | some spent => exact h.nonneg hs

theorem InBudget.spendOne {x y : Entity} (h : x.InBudget) {actor key : String}
    (hy : x.spendOne actor key = .ok y) : y.InBudget := by
  obtain ⟨hlimit, rfl⟩ := spendOne_eq_ok_iff.mp hy
  have hsum := h.spent_nonneg key
  refine ⟨fun {q spent} hs => ?_, fun {q spent limit} hs hr => ?_⟩
  · rw [Dict.get?_insert] at hs
    split at hs
    · obtain rfl := Option.some.inj hs
      omega
    · exact h.nonneg hs
  · rw [Dict.get?_insert] at hs
    split at hs
    · rename_i heq
      obtain rfl := Option.some.inj hs
      exact hlimit limit (heq ▸ hr)
    · exact h.within hs hr

/-- Conditions have nothing to do with an id, resources, or what is spent. -/
theorem condition_eq (x : Entity) (condition : String) (add : Bool) :
    ∃ conditions, (if add then x.addCondition condition else x.removeCondition condition)
      = { x with conditions } := by
  cases add with
  | false => exact ⟨_, rfl⟩
  | true =>
      rw [if_pos rfl, addCondition]
      split
      · exact ⟨_, rfl⟩
      · exact ⟨_, rfl⟩

/-- An event keeps the id of the entity that it changes. -/
theorem Becomes.id_eq {e : Event} {x y : Entity} (h : Becomes e x y) : y.id = x.id := by
  cases h with
  | @entry _ _ _ _ sec _ _ _ hy =>
      cases sec with
      | numbers sec =>
          obtain ⟨number, -, -, rfl⟩ := changeEntry_numbers.mp hy
          cases sec <;> rfl
      | texts sec =>
          obtain ⟨text, -, rfl⟩ := changeEntry_texts.mp hy
          cases sec <;> rfl
  | spending hy =>
      obtain ⟨-, rfl⟩ := spendOne_eq_ok_iff.mp hy
      rfl
  | @condition _ condition add _ =>
      obtain ⟨conditions, heq⟩ := x.condition_eq condition add
      rw [heq]

theorem Becomes.inBudget {e : Event} {x y : Entity} (h : Becomes e x y) (hx : x.InBudget) :
    y.InBudget := by
  cases h with
  | @entry _ _ _ _ sec _ _ _ hy =>
      cases sec with
      | numbers sec =>
          obtain ⟨number, -, hn, rfl⟩ := changeEntry_numbers.mp hy
          exact hx.setNumbers hn
      | texts sec =>
          obtain ⟨text, -, rfl⟩ := changeEntry_texts.mp hy
          cases sec <;> exact ⟨hx.nonneg, hx.within⟩
  | spending hy => exact hx.spendOne hy
  | @condition _ condition add _ =>
      obtain ⟨conditions, heq⟩ := x.condition_eq condition add
      rw [heq]
      exact ⟨hx.nonneg, hx.within⟩

/-- What remains of a resource within its budget is negative just if the
resource is. -/
theorem InBudget.remaining_nonneg_iff {x : Entity} (h : x.InBudget) {key : String} {limit : Int}
    (hr : x.resources.get? key = some limit) : 0 ≤ x.remaining key ↔ 0 ≤ limit := by
  rw [remaining, hr, Option.getD_some]
  cases hs : x.spent.get? key with
  | none => simp
  | some spent =>
      have hnonneg := h.nonneg hs
      have hwithin := h.within hs hr
      rw [Option.getD_some]
      omega

end Entity

/-! ## The course of a game -/

/-- Every entity stands under its own id and is within its budget. -/
def State.Sound (s : State) : Prop :=
  ∀ id e, s.entities.get? id = some e → e.id = id ∧ e.InBudget

namespace State

theorem sound_genesis {entities : List Entity} (h : ∀ e ∈ entities, e.checkSpent = .ok ()) :
    (genesis entities).Sound := by
  intro id e he
  obtain ⟨x, hx, heq⟩ := List.mem_map.mp (Dict.mem_of_get?_ofList he)
  obtain ⟨rfl, rfl⟩ := Prod.mk.inj heq
  exact ⟨rfl, Entity.checkSpent_eq_ok_iff.mp (h x hx)⟩

theorem Sound.setEntity {s : State} (hs : s.Sound) {x : Entity} (hx : x.InBudget) :
    (s.setEntity x.id x).Sound := by
  intro id e he
  rw [State.setEntity, Dict.get?_insert] at he
  split at he
  · rename_i heq
    obtain rfl := Option.some.inj he
    exact ⟨heq, hx⟩
  · exact hs id e he

/-- Whatever an event does to the entities, they stay sound. -/
theorem Sound.of_actsOn {e : Event} {s t : State} (hs : s.Sound) (h : e.ActsOn s t) : t.Sound := by
  cases h with
  | apart ht =>
      intro id x hx
      exact hs id x (ht ▸ hx)
  | enters _ hspent => exact hs.setEntity (Entity.checkSpent_eq_ok_iff.mp hspent)
  | @changes _ id x y hx hy =>
      obtain ⟨hid, hbudget⟩ := hs id x hx
      rw [← hid, ← hy.id_eq]
      exact hs.setEntity (hy.inBudget hbudget)

theorem Sound.courseBy {apply : Event → State → Except ApplyError State} {s : State}
    (hs : s.Sound) (happly : ∀ e s t, apply e s = .ok t → e.applyExact s = .ok t)
    (events : List Event) : (s.courseBy apply events).Sound :=
  courseBy_induction
    (fun e _ s t hs ht => hs.of_actsOn (Event.actsOn_of_applyExact (happly e s t ht))) hs

/-- Sheets are admitted only within their budget. Whatever events follow, with
sums of 64 bits or over all integers, every entity stands under its own id,
nothing spent is negative or more than there is; and what remains of a resource
is not negative just if the resource itself is not. -/
theorem course_keeps_budgets (entities : List Entity) (events : List Event) :
    (∀ content, Entity.sheetsOfYaml content = .ok entities →
        ∀ e ∈ entities, e.checkSpent = .ok ())
      ∧ ((∀ e ∈ entities, e.checkSpent = .ok ()) →
        ∀ apply ∈ [Event.apply, Event.applyExact], ∀ id e,
          ((genesis entities).courseBy apply events).entities.get? id = some e →
          e.id = id
            ∧ (∀ key spent, e.spent.get? key = some spent → 0 ≤ spent)
            ∧ (∀ key spent limit, e.spent.get? key = some spent →
                e.resources.get? key = some limit → spent ≤ limit)
            ∧ ∀ key limit, e.resources.get? key = some limit →
                (0 ≤ e.remaining key ↔ 0 ≤ limit)) := by
  refine ⟨fun content => Entity.checkSpent_of_sheetsOfYaml, ?_⟩
  intro hentities apply happly id e he
  have hexact : ∀ e s t, apply e s = .ok t → e.applyExact s = .ok t := by
    intro e s t ht
    rcases List.mem_cons.mp happly with rfl | happly
    · exact Event.applyExact_of_apply ht
    · rwa [List.mem_singleton.mp happly] at ht
  obtain ⟨hid, hbudget⟩ := (sound_genesis hentities).courseBy hexact events id e he
  exact ⟨hid, fun _ _ => hbudget.nonneg, fun _ _ _ => hbudget.within,
    fun _ _ => hbudget.remaining_nonneg_iff⟩

/-- A resource is used, refused to be lowered, removed, and brought back. -/
theorem course_keeps_budget_of_removed_resource :
    let hero : Entity := { Entity.blank "hero" "Hero" with resources := .ofList [("hp", 10)] }
    let set := fun sec n => Event.attributeChanged "hero" sec "hp" n
    let events := [.spentAdded "hero" "hp", set "resources" (.int 0), set "resources" .null,
      set "spent" (.int 50), set "resources" (.int 40), set "resources" (.int 60)]
    let s := (genesis [hero]).courseBy Event.apply events
    ∃ e, s.entities.get? "hero" = some e ∧ e.spent.get? "hp" = some 50
      ∧ e.resources.get? "hp" = some 60 ∧ 0 ≤ e.remaining "hp" := by
  intro hero set events s
  have hadmitted : ∀ e ∈ [hero], e.checkSpent = .ok () := by
    rintro e (_ | ⟨_, ⟨⟩⟩)
    rfl
  have hs : s.entities.get? "hero"
      = some { hero with spent := .ofList [("hp", 50)], resources := .ofList [("hp", 60)] } := by
    decide +kernel
  have hkept := (course_keeps_budgets [hero] events).2 hadmitted Event.apply
    (List.mem_cons_self ..) _ _ hs
  exact ⟨_, hs, rfl, rfl, (hkept.2.2.2 "hp" 60 rfl).mpr (by decide)⟩

/-- A sheet with a negative resource passes the check, and less than nothing
remains of it. Set by an event, the same number is refused. -/
theorem negative_resource_is_admitted :
    let hero : Entity := { Entity.blank "hero" "Hero" with resources := .ofList [("hp", -5)] }
    hero.checkSpent = .ok ()
      ∧ (Event.entityAdded hero).apply .empty = .ok (genesis [hero])
      ∧ (genesis [hero]).entities.get? "hero" = some hero
      ∧ hero.resources.get? "hp" = some (-5) ∧ hero.remaining "hp" = -5
      ∧ (Event.attributeChanged "hero" "resources" "hp" (.int (-5))).apply (genesis [hero])
        = .error (.negativeValue "hero" .resources "hp" (-5)) := by
  intro hero
  have hsec : Section.named? "resources" = some (.numbers .resources) := by decide +kernel
  refine ⟨rfl, rfl, rfl, rfl, rfl, ?_⟩
  rw [Event.apply, hsec]
  rfl

end State

end GameTable
