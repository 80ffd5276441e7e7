import GameTable.Event.Apply
import GameTable.Proofs.Dict.Lookup
import GameTable.Proofs.Result

/-!
# The course of a game

The states that a list of events leads through when events that are refused are
passed over (`State.courseBy`). A property of states that holds at the start
and is kept by every event that is taken holds at every point of the course
(`courseBy_induction`), so it is enough to know what one event may do.

For the entities that is said once, in `Event.ActsOn`: an event leaves all of
them alone, or puts a new one under its own id, or changes one that is there,
in one of the ways of `Entity.Becomes`. What is claimed of the entities of
every state is shown for these ways and for nothing else.

Sums are refused beyond 64 bits by `Event.apply`. `Event.applyExact` is the
same over all integers; whatever the former takes, the latter takes as well
(`applyExact_of_apply`).
-/

namespace GameTable

namespace State

/-- The state after a list of events under a rule for applying them. Events
that the rule refuses are passed over. -/
def courseBy (apply : Event → State → Except ApplyError State) (s : State) : List Event → State
  | [] => s
  | e :: rest =>
    match apply e s with
    | .ok t => t.courseBy apply rest
    | .error _ => s.courseBy apply rest

theorem courseBy_induction {apply : Event → State → Except ApplyError State} {P : State → Prop}
    {events : List Event} (hstep : ∀ e ∈ events, ∀ s t, P s → apply e s = .ok t → P t)
    {s : State} (h : P s) : P (s.courseBy apply events) := by
  induction events generalizing s with
  | nil => exact h
  | cons e rest ih =>
      have hrest : ∀ e' ∈ rest, ∀ s t, P s → apply e' s = .ok t → P t :=
        fun e' he' => hstep e' (List.mem_cons_of_mem _ he')
      rw [courseBy]
      split
      · rename_i t ht
        exact ih hrest (hstep e (List.mem_cons_self ..) s t h ht)
      · exact ih hrest h

theorem courseBy_append (apply : Event → State → Except ApplyError State) (s : State)
    (before after : List Event) :
    s.courseBy apply (before ++ after) = (s.courseBy apply before).courseBy apply after := by
  induction before generalizing s with
  | nil => rfl
  | cons e rest ih =>
      rw [List.cons_append, courseBy, courseBy]
      split
      · exact ih _
      · exact ih _

/-! ## Single updates -/

theorem updateLoop_entities {s t : State} {name : String} {f : Loop → Loop}
    (h : s.updateLoop name f = .ok t) : t.entities = s.entities := by
  rw [updateLoop, loop] at h
  split at h
  · obtain rfl := Except.ok.inj h
    rfl
  · cases h

theorem updateEntity_eq_ok_iff {s t : State} {id : String}
    {f : Entity → Except ApplyError Entity} :
    s.updateEntity id f = .ok t
      ↔ ∃ x y, s.entities.get? id = some x ∧ f x = .ok y ∧ t = s.setEntity id y := by
  rw [updateEntity, entity]
  cases s.entities.get? id with
  | none => simp
  | some x => cases hf : f x <;> simp [hf, eq_comm]

/-- What an entity has to be to enter: it has an id that is new, and no more is
spent on it than there is. -/
theorem addEntity_eq_ok_iff {s t : State} {x : Entity} :
    s.addEntity x = .ok t ↔ x.id ≠ "" ∧ s.entities.get? x.id = none ∧ x.checkSpent = .ok ()
      ∧ t = s.setEntity x.id x := by
  rw [addEntity, Dict.contains]
  by_cases hid : x.id = ""
  · simp [hid]
  · have hne : x.id.isEmpty = false := by simpa using hid
    cases hx : s.entities.get? x.id with
    | some y => simp [hne]
    | none =>
        cases hc : x.checkSpent with
        | error err => simp [hne]
        | ok _ => simp [hne, hid, eq_comm]

end State

/-! ## Changes of an entity -/

namespace Entity

theorem get?_putEntry {α : Type} (d : Dict α) (key q : String) (o : Option α) :
    (putEntry d key o).get? q = if key = q then o else d.get? q := by
  cases o with
  | none => exact Dict.get?_erase d key q
  | some a => exact Dict.get?_insert d key q a

theorem spendOne_eq_ok_iff {actor key : String} {x y : Entity} :
    x.spendOne actor key = .ok y
      ↔ (∀ limit, x.resources.get? key = some limit → (x.spent.get? key).getD 0 + 1 ≤ limit)
        ∧ y = { x with spent := x.spent.insert key ((x.spent.get? key).getD 0 + 1) } := by
  rw [spendOne]
  generalize (x.spent.get? key).getD 0 + 1 = sum
  cases x.resources.get? key with
  | none => simp [eq_comm]
  | some limit =>
      by_cases h : sum ≤ limit
      · simp [h, Int.not_lt.mpr h, eq_comm]
      · simp [h, Int.not_le.mp h]

/-- The numbers that may be set: counts are not negative, and no more is spent
than there is, whichever of the two is set. -/
theorem checkNumber_eq_ok_iff {x : Entity} {sec : NumberSection} {key : String} {n : Int} :
    x.checkNumber sec key n = .ok ()
      ↔ (countsUp sec = true → 0 ≤ n)
        ∧ (sec = .spent → ∀ limit, x.resources.get? key = some limit → n ≤ limit)
        ∧ (sec = .resources → ∀ spent, x.spent.get? key = some spent → spent ≤ n) := by
  by_cases hcount : countsUp sec = true ∧ n < 0
  · simp [checkNumber, hcount.1, hcount.2, Int.not_le.mpr hcount.2]
  · have hpos : countsUp sec = true → 0 ≤ n := fun hc => Int.not_lt.mp fun hn => hcount ⟨hc, hn⟩
    have hskip : (countsUp sec && decide (n < 0)) = false := by simpa using hpos
    unfold checkNumber
    rw [and_iff_right hpos, hskip, if_neg Bool.false_ne_true]
    cases sec with
    | stats => simp
    | proficiencies => simp
    | inventory => simp
    | spent =>
        cases x.resources.get? key with
        | none => simp
        | some limit =>
            by_cases h : n ≤ limit
            · simp [h, Int.not_lt.mpr h]
            · simp [h, Int.not_le.mp h]
    | resources =>
        cases x.spent.get? key with
        | none => simp
        | some spent =>
            by_cases h : spent ≤ n
            · simp [h, Int.not_lt.mpr h]
            · simp [h, Int.not_le.mp h]

/-- What setting an entry of a section does. -/
theorem changeEntry_numbers {x y : Entity} {sec : NumberSection} {key : String} {value : Json} :
    x.changeEntry (.numbers sec) key value = .ok y
      ↔ ∃ number, numberOf sec key value = .ok number
        ∧ (∀ n, number = some n → x.checkNumber sec key n = .ok ())
        ∧ y = x.setNumbers (putEntry (x.numbers sec) key number) sec := by
  rw [changeEntry]
  cases numberOf sec key value with
  | error err => simp
  | ok number =>
      cases number with
      | none => simp [eq_comm]
      | some n =>
          cases hn : x.checkNumber sec key n with
          | error err => simp [hn]
          | ok u => simp [hn, eq_comm]

theorem changeEntry_texts {x y : Entity} {sec : TextSection} {key : String} {value : Json} :
    x.changeEntry (.texts sec) key value = .ok y
      ↔ ∃ text, textOf sec key value = .ok text
        ∧ y = x.setTexts (putEntry (x.texts sec) key text) sec := by
  rw [changeEntry]
  cases textOf sec key value with
  | error err => simp
  | ok text => simp [eq_comm]

end Entity

/-- What an event may make of an entity that it changes. -/
inductive Entity.Becomes : Event → Entity → Entity → Prop
  | entry {actor name key : String} {value : Json} {sec : Section} {x y : Entity} :
      Section.named? name = some sec → x.changeEntry sec key value = .ok y →
      Becomes (.attributeChanged actor name key value) x y
  | spending {actor key : String} {x y : Entity} :
      x.spendOne actor key = .ok y → Becomes (.spentAdded actor key) x y
  | condition {actor condition : String} {add : Bool} {x : Entity} :
      Becomes (.conditionChanged actor condition add) x
        (if add then x.addCondition condition else x.removeCondition condition)

namespace Event

/-- The state after an event, or why the event is refused, where sums may be
of any size. -/
def applyExact (e : Event) (s : State) : Except ApplyError State :=
  match e with
  | .spentAdded actor key => s.updateEntity actor (Entity.spendOne actor key)
  | e => e.apply s

theorem apply_spentAdded {actor key : String} {s t : State} :
    (spentAdded actor key).apply s = .ok t
      ↔ ∃ x y, s.entities.get? actor = some x ∧ Fits ((x.spent.get? key).getD 0 + 1)
        ∧ x.spendOne actor key = .ok y ∧ t = s.setEntity actor y := by
  refine State.updateEntity_eq_ok_iff.trans (exists₂_congr fun x y => ?_)
  rw [Entity.spendFitting]
  split
  · simp [*]
  · simp [*]

/-- Sums that fit are the same over all integers. -/
theorem applyExact_of_apply {e : Event} {s t : State} (h : e.apply s = .ok t) :
    e.applyExact s = .ok t := by
  cases e with
  | spentAdded actor key =>
      obtain ⟨x, y, hx, -, hy, rfl⟩ := apply_spentAdded.mp h
      exact State.updateEntity_eq_ok_iff.mpr ⟨x, y, hx, hy, rfl⟩
  | _ => exact h

/-- What an event may do to the entities of a state. -/
inductive ActsOn (s : State) : Event → State → Prop
  | apart {e : Event} {t : State} : t.entities = s.entities → ActsOn s e t
  | enters {x : Entity} :
      s.entities.get? x.id = none → x.checkSpent = .ok () →
      ActsOn s (.entityAdded x) (s.setEntity x.id x)
  | changes {e : Event} {id : String} {x y : Entity} :
      s.entities.get? id = some x → Entity.Becomes e x y → ActsOn s e (s.setEntity id y)

theorem actsOn_of_applyExact {e : Event} {s t : State} (h : e.applyExact s = .ok t) :
    e.ActsOn s t := by
  cases e with
  | loopSwitched loop active =>
      obtain rfl := Except.ok.inj h
      refine .apart ?_
      rw [State.switchLoop]
      split
      · rfl
      · split <;> rfl
  | loopDirection loop ascending => exact .apart (State.updateLoop_entities h)
  | loopOrder loop actor value => exact .apart (State.updateLoop_entities h)
  | actorAdded loop actor => exact .apart (State.updateLoop_entities h)
  | loopAdvanced loop => exact .apart (State.updateLoop_entities h)
  | entityAdded x =>
      obtain ⟨-, hnew, hspent, rfl⟩ := State.addEntity_eq_ok_iff.mp h
      exact .enters hnew hspent
  | attributeChanged actor name key value =>
      change (attributeChanged actor name key value).apply s = .ok t at h
      rw [apply] at h
      split at h
      · cases h
      · rename_i sec hsec
        obtain ⟨x, y, hx, hy, rfl⟩ := State.updateEntity_eq_ok_iff.mp h
        exact .changes hx (.entry hsec hy)
  | spentAdded actor key =>
      obtain ⟨x, y, hx, hy, rfl⟩ := State.updateEntity_eq_ok_iff.mp h
      exact .changes hx (.spending hy)
  | conditionChanged actor condition add =>
      obtain ⟨x, y, hx, hy, rfl⟩ := State.updateEntity_eq_ok_iff.mp h
      obtain rfl := Except.ok.inj hy
      exact .changes hx .condition
  | askIssued target options =>
      obtain rfl := Except.ok.inj h
      exact .apart rfl
  | hinted message =>
      obtain rfl := Except.ok.inj h
      exact .apart rfl
  | diceRolled actor dice result =>
      obtain rfl := Except.ok.inj h
      exact .apart rfl
  | metadataChanged key value =>
      change (metadataChanged key value).apply s = .ok t at h
      rw [apply] at h
      split at h
      · cases h
      · obtain rfl := Except.ok.inj h
        exact .apart rfl
  | checked actor check passed =>
      obtain rfl := Except.ok.inj h
      exact .apart rfl

end Event

/-! ## What entities bring with them

A property of entities that no change takes away can be missing in a later
state only because an entity entered without it. -/

/-- The entity that the event lets in, if it is of that kind. -/
def Event.entrant? : Event → Option Entity
  | .entityAdded x => some x
  | _ => none

namespace State

/-- The entities that enter in the course of the events, as they are when they
enter. -/
def entrants (s : State) : List Event → List Entity
  | [] => []
  | e :: rest =>
    match e.apply s with
    | .ok t => e.entrant?.toList ++ t.entrants rest
    | .error _ => s.entrants rest

/-- Every entity of the state has the property. -/
def Every (P : Entity → Prop) (s : State) : Prop := ∀ id x, s.entities.get? id = some x → P x

variable {P : Entity → Prop} {s t : State} {e : Event}

theorem every_genesis {entities : List Entity} (h : ∀ x ∈ entities, P x) :
    (genesis entities).Every P := by
  intro id x hx
  obtain ⟨y, hy, heq⟩ := List.mem_map.mp (Dict.mem_of_get?_ofList hx)
  obtain ⟨-, rfl⟩ := Prod.mk.inj heq
  exact h y hy

theorem Every.setEntity (hs : s.Every P) {x : Entity} (hx : P x) (id : String) :
    (s.setEntity id x).Every P := by
  intro other y hy
  rw [State.setEntity, Dict.get?_insert] at hy
  split at hy
  · exact Option.some.inj hy ▸ hx
  · exact hs other y hy

/-- If changes keep the property, then after an event all entities have it just
if the one that entered does. -/
theorem Every.apply_iff (hP : ∀ e x y, Entity.Becomes e x y → P x → P y) (hs : s.Every P)
    (h : e.apply s = .ok t) : t.Every P ↔ ∀ x ∈ e.entrant?, P x := by
  constructor
  · intro ht x hx
    cases e with
    | entityAdded y =>
        obtain rfl := Option.some.inj hx
        obtain ⟨-, -, -, rfl⟩ := addEntity_eq_ok_iff.mp h
        exact ht y.id y (Dict.get?_insert_self ..)
    | _ => cases hx
  · intro hentrant
    cases Event.actsOn_of_applyExact (Event.applyExact_of_apply h) with
    | apart hentities =>
        intro id x hx
        exact hs id x (hentities ▸ hx)
    | enters _ _ => exact hs.setEntity (hentrant _ rfl) _
    | changes hx hbecomes => exact hs.setEntity (hP _ _ _ hbecomes (hs _ _ hx)) _

/-- The same for the whole course: the property holds of all entities at every
point of it just if it holds of those that enter on the way. -/
theorem Every.course_iff (hP : ∀ e x y, Entity.Becomes e x y → P x → P y) (hs : s.Every P)
    (events : List Event) :
    (∀ before, before <+: events → (s.courseBy Event.apply before).Every P)
      ↔ ∀ x ∈ s.entrants events, P x := by
  induction events generalizing s with
  | nil => simpa [entrants, courseBy] using hs
  | cons e rest ih =>
      -- Nothing has happened at the first point, and the others come after `e`.
      have hpoints : (∀ before, before <+: e :: rest → (s.courseBy Event.apply before).Every P)
          ↔ ∀ before, before <+: rest → (s.courseBy Event.apply (e :: before)).Every P := by
        constructor
        · intro h before hbefore
          exact h (e :: before) (List.cons_prefix_cons.mpr ⟨rfl, hbefore⟩)
        · intro h before hbefore
          cases before with
          | nil => exact hs
          | cons e' before =>
              obtain ⟨rfl, hrest⟩ := List.cons_prefix_cons.mp hbefore
              exact h before hrest
      rw [hpoints]
      cases ht : e.apply s with
      | error err =>
          simp only [courseBy, entrants, ht]
          exact ih hs
      | ok t =>
          simp only [courseBy, entrants, ht, List.forall_mem_append, Option.mem_toList]
          have hentrant := hs.apply_iff hP ht
          constructor
          · intro h
            have hafter : t.Every P := h [] List.nil_prefix
            exact ⟨hentrant.mp hafter, (ih hafter).mp h⟩
          · rintro ⟨hin, hlater⟩
            exact (ih (hentrant.mpr hin)).mpr hlater

end State

end GameTable
