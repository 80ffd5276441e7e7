import GameTable.Proofs.Event.Footprint
import GameTable.Proofs.Stateful

/-!
# Writing in place

Applying an event has been described so far by the state that comes out of it.
A program that holds a single state and changes it where it stands gets there
by writes, one after another, and if it stopped between two of them, what has
been written would stay. `Event.inPlace` is this program: a loop is given a
sort key and then an actor, an entry is taken out of the metadata before it is
put back with another value inside.

All that can stop it is looked up before the first write, so it either comes to
the state that `Event.apply` describes or leaves everything as it was
(`Event.performs_inPlace`). So a program that goes on after events that were
refused has at any time the state that `State.courseBy` says
(`State.writeAll_eq_courseBy`).
-/

namespace GameTable

/-- Steps on a state that is changed where it stands. If one of them fails,
what has been written before stays written. -/
abbrev Writing := ExceptT ApplyError (StateM State)

namespace Writing

variable {α : Type}

/-- A step that only looks, and fails if it does not see what it should. -/
def reading (look : State → Except ApplyError α) : Writing α := fun s => (look s, s)

/-- A step that writes. -/
def write (change : State → State) : Writing Unit := fun s => (.ok (), change s)

/-- The steps come to a state, or fail before anything has been written. -/
def Performs (steps : Writing Unit) (s : State) : Except ApplyError State → Prop
  | .ok t => steps s = (.ok (), t)
  | .error err => steps s = (.error err, s)

variable {s : State}

theorem performs_write (change : State → State) : Performs (write change) s (.ok (change s)) := rfl

theorem performs_pure : Performs (pure ()) s (.ok s) := rfl

theorem performs_reading_of_ok {look : State → Except ApplyError α} {next : α → Writing Unit}
    {a : α} {result : Except ApplyError State} (hlook : look s = .ok a)
    (h : Performs (next a) s result) : Performs (reading look >>= next) s result := by
  have hstep : reading look s = (.ok a, s) := congrArg (·, s) hlook
  cases result with
  | error err => exact (run_bind_of_ok hstep).trans h
  | ok t => exact (run_bind_of_ok hstep).trans h

theorem performs_reading_of_error {look : State → Except ApplyError α} {next : α → Writing Unit}
    {err : ApplyError} (hlook : look s = .error err) :
    Performs (reading look >>= next) s (.error err) := by
  have hstep : reading look s = (.error err, s) := congrArg (·, s) hlook
  exact run_bind_of_error hstep

/-- A step that only looks may come in front of any others. -/
theorem performs_reading {look : State → Except ApplyError α} {next : α → Writing Unit}
    {rest : α → Except ApplyError State} (h : ∀ a, look s = .ok a → Performs (next a) s (rest a)) :
    Performs (reading look >>= next) s (look s >>= rest) := by
  cases hlook : look s with
  | error err => exact performs_reading_of_error hlook
  | ok a => exact performs_reading_of_ok hlook (h a hlook)

/-- What comes after a write must not fail. -/
theorem performs_write_bind {change : State → State} {next : Unit → Writing Unit} {t : State}
    (h : Performs (next ()) (change s) (.ok t)) : Performs (write change >>= next) s (.ok t) :=
  h

end Writing

open Writing

/-! ## What is looked at first -/

namespace State

theorem addEntity_eq_checks (s : State) (x : Entity) :
    s.addEntity x = (do
      (if x.id.isEmpty then .error .emptyEntityId else .ok ())
      (if s.entities.contains x.id then .error (.duplicateEntity x.id) else .ok ())
      x.checkSpent
      .ok (s.setEntity x.id x)) := by
  rw [addEntity]
  cases x.id.isEmpty with
  | true => rfl
  | false =>
      cases s.entities.contains x.id with
      | true => rfl
      | false => rfl

theorem loop_eq_ok_iff {s : State} {name : String} {l : Loop} :
    s.loop name = .ok l ↔ s.loops.get? name = some l := by
  rw [loop]
  cases s.loops.get? name <;> simp

theorem entity_eq_ok_iff {s : State} {id : String} {x : Entity} :
    s.entity id = .ok x ↔ s.entities.get? id = some x := by
  rw [entity]
  cases s.entities.get? id <;> simp

end State

namespace Entity

variable {x : Entity} {condition : String}

theorem addCondition_of_hasCondition (h : x.hasCondition condition = true) :
    x.addCondition condition = x :=
  if_pos h

theorem addCondition_of_not_hasCondition (h : x.hasCondition condition = false) :
    x.addCondition condition = { x with conditions := x.conditions ++ [condition] } :=
  if_neg (Bool.eq_false_iff.mp h)

theorem removeCondition_of_not_hasCondition (h : x.hasCondition condition = false) :
    x.removeCondition condition = x := by
  have hnot : condition ∉ x.conditions := of_decide_eq_false h
  have hall : x.conditions.filter (· != condition) = x.conditions :=
    List.filter_eq_self.mpr fun c hc => bne_iff_ne.mpr fun heq => hnot (heq ▸ hc)
  rw [removeCondition, hall]

end Entity

/-! ## The writes of an event -/

namespace Event

/-- An actor that takes part already is not written down again. -/
def enrollInPlace (loop actor : String) (l : Loop) : Writing Unit :=
  if l.contains actor then return ()
  else write (·.setLoop loop { l with actors := l.actors ++ [actor] })

/-- Sets an entry of a section, or removes it if the value is null. -/
def changeEntryInPlace (actor key : String) (value : Json) (x : Entity) : Section → Writing Unit
  | .numbers sec => do
    let number ← reading fun _ => Entity.numberOf sec key value
    reading fun _ =>
      match number with
      | some n => x.checkNumber sec key n
      | none => .ok ()
    write (·.setEntity actor (x.setNumbers (Entity.putEntry (x.numbers sec) key number) sec))
  | .texts sec => do
    let text ← reading fun _ => Entity.textOf sec key value
    write (·.setEntity actor (x.setTexts (Entity.putEntry (x.texts sec) key text) sec))

/-- A condition is written down unless it is there, and crossed out if it is there. -/
def changeConditionInPlace (actor condition : String) (add : Bool) (x : Entity) : Writing Unit :=
  if add && !x.hasCondition condition then
    write (·.setEntity actor { x with conditions := x.conditions ++ [condition] })
  else if !add && x.hasCondition condition then
    write (·.setEntity actor { x with conditions := x.conditions.filter (· != condition) })
  else return ()

/-- Sets the value at a path. To get at what is inside an entry, the entry is
taken out of the metadata and put back afterwards. -/
def setPathInPlace (value : Json) : List String → Writing Unit
  | [] => throw .emptyMetadataKey
  | [k] => write (·.put (.entry k) (if value.isNull then none else some value))
  | k :: rest => do
    let entry ← reading fun s => .ok (s.metadata.get? k)
    write (·.put (.entry k) none)
    match entry with
    | some (.obj child) => write (·.setMetadata k (.obj (Metadata.setAt value rest child)))
    | some other =>
      if value.isNull then write (·.setMetadata k other)
      else write (·.setMetadata k (.obj (Metadata.setAt value rest [])))
    | none =>
      if value.isNull then return ()
      else write (·.setMetadata k (.obj (Metadata.setAt value rest [])))

/-- Applies an event to a state where it stands. -/
def inPlace : Event → Writing Unit
  | .loopSwitched loop active => do
    if active then
      write (·.setLoop loop .started)
    else
      match ← reading fun s => .ok (s.loops.get? loop) with
      | some l => write (·.setLoop loop { l with active := false })
      | none => return ()
  | .loopDirection loop ascending => do
    let l ← reading (·.loop loop)
    write (·.setLoop loop { l with ascending })
  | .loopOrder loop actor value => do
    let l ← reading (·.loop loop)
    let ordered : Loop := { l with order := l.order.insert actor value }
    write (·.setLoop loop ordered)
    enrollInPlace loop actor ordered
  | .actorAdded loop actor => do
    enrollInPlace loop actor (← reading (·.loop loop))
  | .loopAdvanced loop => do
    let l ← reading (·.loop loop)
    write (·.setLoop loop l.advance)
  | .entityAdded x => do
    reading fun _ => if x.id.isEmpty then .error .emptyEntityId else .ok ()
    reading fun s =>
      if s.entities.contains x.id then .error (.duplicateEntity x.id) else .ok ()
    reading fun _ => x.checkSpent
    write (·.setEntity x.id x)
  | .attributeChanged actor name key value => do
    let sec ← reading fun _ =>
      match Section.named? name with
      | some sec => .ok sec
      | none => .error (.unknownSection name)
    let x ← reading (·.entity actor)
    changeEntryInPlace actor key value x sec
  | .spentAdded actor key => do
    let x ← reading (·.entity actor)
    let y ← reading fun _ => x.spendFitting actor key
    write (·.setEntity actor y)
  | .conditionChanged actor condition add => do
    changeConditionInPlace actor condition add (← reading (·.entity actor))
  | .askIssued target options => write (·.setMetadata State.pendingAsk (askDocument target options))
  | .hinted _ | .diceRolled .. => return ()
  | .metadataChanged key value => do
    let path ← reading fun _ =>
      match Metadata.path? key with
      | some path => .ok path
      | none => .error .emptyMetadataKey
    setPathInPlace value path
  | .checked actor check passed =>
    write (·.setMetadata State.lastCheck (checkDocument actor check passed))

/-! ## The state that they come to -/

section

variable {s : State}

theorem setLoop_of_get? {loop : String} {l : Loop} (h : s.loops.get? loop = some l) :
    s.setLoop loop l = s :=
  State.put_of_get? (p := .loop loop) h

theorem setEntity_of_get? {actor : String} {x : Entity} (h : s.entities.get? actor = some x) :
    s.setEntity actor x = s :=
  State.put_of_get? (p := .entity actor) h

theorem performs_enroll {loop : String} {l : Loop} (h : s.loops.get? loop = some l)
    (actor : String) :
    Performs (enrollInPlace loop actor l) s (.ok (s.setLoop loop (l.enroll actor))) := by
  rw [enrollInPlace, Loop.enroll]
  split
  · rw [setLoop_of_get? h]
    exact performs_pure
  · exact performs_write _

theorem performs_changeEntry (actor : String) (x : Entity) (sec : Section) (key : String)
    (value : Json) :
    Performs (changeEntryInPlace actor key value x sec) s
      (x.changeEntry sec key value >>= fun y => .ok (s.setEntity actor y)) := by
  cases sec with
  | numbers sec =>
      rw [Entity.changeEntry, bind_assoc]
      refine performs_reading fun number _ => ?_
      cases number with
      | none => exact performs_write _
      | some n =>
          dsimp only
          rw [bind_assoc]
          exact performs_reading fun _ _ => performs_write _
  | texts sec =>
      rw [Entity.changeEntry, bind_assoc]
      exact performs_reading fun text _ => performs_write _

theorem performs_condition {actor : String} {x : Entity} (h : s.entities.get? actor = some x)
    (condition : String) (add : Bool) :
    Performs (changeConditionInPlace actor condition add x) s
      (.ok (s.setEntity actor
        (if add then x.addCondition condition else x.removeCondition condition))) := by
  have hsame : Performs (pure ()) s (.ok (s.setEntity actor x)) := by
    rw [setEntity_of_get? h]
    exact performs_pure
  rw [changeConditionInPlace]
  cases hpresent : x.hasCondition condition with
  | true =>
      cases add with
      | true =>
          rw [if_pos rfl, Entity.addCondition_of_hasCondition hpresent]
          exact hsame
      | false => exact performs_write _
  | false =>
      cases add with
      | true =>
          rw [if_pos rfl, Entity.addCondition_of_not_hasCondition hpresent]
          exact performs_write _
      | false =>
          rw [if_neg Bool.false_ne_true, Entity.removeCondition_of_not_hasCondition hpresent]
          exact hsame

/-- The entry that was taken out is put back. -/
theorem performs_setPath {path : List String} (hpath : path ≠ []) (value : Json) :
    Performs (setPathInPlace value path) s
      (.ok { s with metadata := Metadata.set value path s.metadata }) := by
  obtain ⟨k, rest, rfl⟩ := List.exists_cons_of_ne_nil hpath
  rw [Metadata.set_eq_putEntry]
  cases rest with
  | nil => exact performs_write _
  | cons q rest =>
      rw [setPathInPlace]
      · refine performs_reading_of_ok rfl (performs_write_bind ?_)
        change Performs _ _ (.ok (s.put (.entry k)
          (Metadata.entryAfter value (q :: rest) (s.metadata.get? k))))
        have hback (j : Json) : Performs (write (·.setMetadata k j)) (s.put (.entry k) none)
            (.ok (s.put (.entry k) (some j))) :=
          congrArg (Except.ok (), ·) (State.put_put s (.entry k) none (some j))
        by_cases hobj : ∃ child, s.metadata.get? k = some (.obj child)
        · obtain ⟨child, hchild⟩ := hobj
          rw [hchild]
          exact hback _
        · rw [Metadata.entryAfter_of_not_obj (List.cons_ne_nil q rest) (not_exists.mp hobj)]
          split
          next child hchild => exact absurd ⟨child, hchild⟩ hobj
          next other _ hother =>
            rw [hother]
            split
            · exact hback _
            · exact hback _
          next hnone =>
            rw [hnone]
            split
            · exact performs_pure
            · exact hback _
      · exact List.cons_ne_nil q rest

theorem performs_inPlace (e : Event) (s : State) : Performs e.inPlace s (e.apply s) := by
  cases e with
  | loopSwitched loop active =>
      cases active with
      | true => exact performs_write _
      | false =>
          refine performs_reading_of_ok rfl ?_
          rw [apply, State.switchLoop, if_neg Bool.false_ne_true]
          cases s.loops.get? loop with
          | none => exact performs_pure
          | some l => exact performs_write _
  | loopDirection loop ascending => exact performs_reading fun l _ => performs_write _
  | loopOrder loop actor value =>
      refine performs_reading fun l _ => performs_write_bind ?_
      have henroll := performs_enroll (s := s.setLoop loop _) (Dict.get?_insert_self s.loops loop
        { l with order := l.order.insert actor value }) actor
      have hover (l l' : Loop) : (s.setLoop loop l).setLoop loop l' = s.setLoop loop l' :=
        State.put_put s (.loop loop) (some l) (some l')
      rwa [hover] at henroll
  | actorAdded loop actor =>
      exact performs_reading fun l hl => performs_enroll (State.loop_eq_ok_iff.mp hl) actor
  | loopAdvanced loop => exact performs_reading fun l _ => performs_write _
  | entityAdded x =>
      rw [apply, State.addEntity_eq_checks]
      exact performs_reading fun _ _ => performs_reading fun _ _ => performs_reading fun _ _ =>
        performs_write _
  | attributeChanged actor sec key value =>
      rw [apply]
      cases hsec : Section.named? sec with
      | none => exact performs_reading_of_error (by rw [hsec])
      | some sec =>
          refine performs_reading_of_ok (by rw [hsec]) ?_
          exact performs_reading fun x _ => performs_changeEntry actor x sec key value
  | spentAdded actor key =>
      exact performs_reading fun x _ => performs_reading fun y _ => performs_write _
  | conditionChanged actor condition add =>
      exact performs_reading fun x hx =>
        performs_condition (State.entity_eq_ok_iff.mp hx) condition add
  | askIssued target options => exact performs_write _
  | hinted message => exact performs_pure
  | diceRolled actor dice result => exact performs_pure
  | metadataChanged key value =>
      rw [apply]
      cases hpath : Metadata.path? key with
      | none => exact performs_reading_of_error (by rw [hpath])
      | some path =>
          have hne : path ≠ [] := Metadata.eq_root_cons hpath ▸ List.cons_ne_nil _ _
          exact performs_reading_of_ok (by rw [hpath]) (performs_setPath hne value)
  | checked actor check passed => exact performs_write _

variable {e : Event} {t : State} {err : ApplyError}

theorem inPlace_of_ok (h : e.apply s = .ok t) : e.inPlace s = (.ok (), t) := by
  have hperforms := e.performs_inPlace s
  rwa [h] at hperforms

/-- Before an event is refused, nothing is written. -/
theorem inPlace_of_error (h : e.apply s = .error err) : e.inPlace s = (.error err, s) := by
  have hperforms := e.performs_inPlace s
  rwa [h] at hperforms

theorem inPlace_eq_ok_iff : e.inPlace s = (.ok (), t) ↔ e.apply s = .ok t := by
  refine ⟨fun h => ?_, inPlace_of_ok⟩
  cases happly : e.apply s with
  | error err =>
      rw [inPlace_of_error happly] at h
      cases h
  | ok u =>
      rw [inPlace_of_ok happly] at h
      rw [(Prod.mk.inj h).2]

theorem inPlace_eq_error_iff : e.inPlace s = (.error err, t) ↔ e.apply s = .error err ∧ t = s := by
  constructor
  · intro h
    cases happly : e.apply s with
    | error err' =>
        rw [inPlace_of_error happly] at h
        obtain ⟨herr, rfl⟩ := Prod.mk.inj h
        exact ⟨congrArg _ (Except.error.inj herr), rfl⟩
    | ok u =>
        rw [inPlace_of_ok happly] at h
        cases h
  · rintro ⟨happly, rfl⟩
    exact inPlace_of_error happly

end

end Event

/-- The state after events that are applied in place one after another,
whatever becomes of them. -/
def State.writeAll (s : State) (events : List Event) : State :=
  events.foldl (fun s e => (e.inPlace s).2) s

theorem State.writeAll_eq_courseBy (s : State) (events : List Event) :
    s.writeAll events = s.courseBy Event.apply events := by
  rw [writeAll]
  induction events generalizing s with
  | nil => rfl
  | cons e rest ih =>
      rw [List.foldl_cons, courseBy]
      cases h : e.apply s with
      | error err => rw [Event.inPlace_of_error h, ih]
      | ok t => rw [Event.inPlace_of_ok h, ih]

end GameTable
