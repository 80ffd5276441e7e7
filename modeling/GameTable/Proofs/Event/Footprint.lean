import GameTable.Proofs.Event.Paths

/-!
# Where an event acts

A state is made of places: its loops, its entities, and the entries of its
metadata, each under a name. An event has to do with one place at most, its
footprint (`Event.footprint`). What it makes of that place depends on what
stands there and on nothing else, so an event can be told as the change of a
single place (`Event.change?`), and `Event.apply_eq` says that this is all that
applying it does. Deep inside the metadata, where a path leads through objects,
it is the entry at the beginning of the path that changes
(`Metadata.set_eq_putEntry`).

A change of one place neither sees nor loses what is put into another
(`Event.apply_taking`). That is all that `State.independent_events_commute`
needs, and from two events it goes on to any number of them
(`State.courseBy_perm`).
-/

namespace GameTable

namespace State

/-! ## Places -/

/-- A place in a state. -/
inductive Place where
  | loop (name : String)
  | entity (id : String)
  | entry (key : String)
deriving DecidableEq

/-- What may stand in a place. -/
def Place.Content : Place → Type
  | .loop _ => Loop
  | .entity _ => Entity
  | .entry _ => Json

/-- What stands in a place, if anything does. -/
def get? (s : State) : (p : Place) → Option p.Content
  | .loop name => s.loops.get? name
  | .entity id => s.entities.get? id
  | .entry key => s.metadata.get? key

/-- The state with something else in a place, or with nothing there. -/
def put (s : State) : (p : Place) → Option p.Content → State
  | .loop name, l => { s with loops := Entity.putEntry s.loops name l }
  | .entity id, x => { s with entities := Entity.putEntry s.entities id x }
  | .entry key, j => { s with metadata := Entity.putEntry s.metadata key j }

/-- A state is what stands in its places. -/
theorem ext_get? {s t : State} (h : ∀ p, s.get? p = t.get? p) : s = t := by
  have hentities : s.entities = t.entities := Dict.ext_get? fun id => h (.entity id)
  have hloops : s.loops = t.loops := Dict.ext_get? fun name => h (.loop name)
  have hmetadata : s.metadata = t.metadata := Dict.ext_get? fun key => h (.entry key)
  cases s
  cases t
  simp_all

@[simp] theorem get?_put_self (s : State) (p : Place) (o : Option p.Content) :
    (s.put p o).get? p = o := by
  cases p <;> exact (Entity.get?_putEntry ..).trans (if_pos rfl)

theorem get?_put_of_ne (s : State) {p q : Place} (h : p ≠ q) (o : Option p.Content) :
    (s.put p o).get? q = s.get? q := by
  cases p <;> cases q <;> first
    | rfl
    | exact (Entity.get?_putEntry ..).trans (if_neg fun heq => h (congrArg _ heq))

/-- Putting in what is there already changes nothing. -/
@[simp] theorem put_get? (s : State) (p : Place) : s.put p (s.get? p) = s := by
  refine ext_get? fun q => ?_
  by_cases h : p = q
  · subst h
    rw [get?_put_self]
  · rw [get?_put_of_ne s h]

theorem put_of_get? {s : State} {p : Place} {o : Option p.Content} (h : s.get? p = o) :
    s.put p o = s :=
  h ▸ put_get? s p

/-- What is put into a place twice is what was put there last. -/
@[simp] theorem put_put (s : State) (p : Place) (o o' : Option p.Content) :
    (s.put p o).put p o' = s.put p o' := by
  refine ext_get? fun q => ?_
  by_cases h : p = q
  · subst h
    rw [get?_put_self, get?_put_self]
  · rw [get?_put_of_ne _ h, get?_put_of_ne _ h, get?_put_of_ne _ h]

theorem put_comm (s : State) {p q : Place} (h : p ≠ q) (o : Option p.Content)
    (o' : Option q.Content) : (s.put p o).put q o' = (s.put q o').put p o := by
  refine ext_get? fun r => ?_
  by_cases hp : p = r
  · subst hp
    rw [get?_put_of_ne _ h.symm, get?_put_self, get?_put_self]
  · by_cases hq : q = r
    · subst hq
      rw [get?_put_self, get?_put_of_ne _ hp, get?_put_self]
    · rw [get?_put_of_ne _ hq, get?_put_of_ne _ hp, get?_put_of_ne _ hp, get?_put_of_ne _ hq]

/-- The state with what another one has in a place. -/
def taking (s : State) (p : Option Place) (u : State) : State :=
  match p with
  | none => s
  | some p => s.put p (u.get? p)

theorem get?_taking_of_mem {s u : State} {p : Option Place} {q : Place} (h : q ∈ p) :
    (s.taking p u).get? q = u.get? q := by
  obtain rfl := Option.mem_def.mp h
  exact get?_put_self ..

theorem get?_taking_of_not_mem {s u : State} {p : Option Place} {q : Place} (h : q ∉ p) :
    (s.taking p u).get? q = s.get? q := by
  cases p with
  | none => rfl
  | some p => exact get?_put_of_ne s (fun heq => h (congrArg some heq)) _

/-! ## Changes -/

/-- A change of what stands in one place. -/
structure Change where
  place : Place
  /-- What stands there afterwards, or why the change is refused. -/
  rule : Option place.Content → Except ApplyError (Option place.Content)

/-- The state after a change. -/
def Change.run (c : Change) (s : State) : Except ApplyError State :=
  (c.rule (s.get? c.place)).map (s.put c.place)

/-- A rule for something that has to be there. -/
def existing {α : Type} (missing : ApplyError) (f : α → Except ApplyError α) :
    Option α → Except ApplyError (Option α)
  | some a => (f a).map some
  | none => .error missing

/-- A change of a loop that has to be there. -/
def Change.ofLoop (name : String) (f : Loop → Loop) : Change :=
  ⟨.loop name, existing (.unknownLoop name) fun l => .ok (f l)⟩

/-- A change of an entity that has to be there. -/
def Change.ofEntity (id : String) (f : Entity → Except ApplyError Entity) : Change :=
  ⟨.entity id, existing (.unknownEntity id) f⟩

/-- What a new entity makes of the place under its id. -/
def entering (x : Entity) (present : Option Entity) : Except ApplyError (Option Entity) := do
  if x.id.isEmpty then throw .emptyEntityId
  if present.isSome then throw (.duplicateEntity x.id)
  x.checkSpent
  return some x

theorem updateLoop_eq_run (s : State) (name : String) (f : Loop → Loop) :
    s.updateLoop name f = (Change.ofLoop name f).run s := by
  change (do return s.setLoop name (f (← s.loop name)))
    = (existing (.unknownLoop name) (fun l => .ok (f l)) (s.loops.get? name)).map
        (s.put (.loop name))
  rw [loop]
  cases s.loops.get? name with
  | none => rfl
  | some l => rfl

theorem updateEntity_eq_run (s : State) (id : String) (f : Entity → Except ApplyError Entity) :
    s.updateEntity id f = (Change.ofEntity id f).run s := by
  change (do return s.setEntity id (← f (← s.entity id)))
    = (existing (.unknownEntity id) f (s.entities.get? id)).map (s.put (.entity id))
  rw [entity]
  cases s.entities.get? id with
  | none => rfl
  | some x =>
      change (f x >>= fun y => .ok (s.setEntity id y)) = ((f x).map some).map (s.put (.entity id))
      cases f x with
      | error err => rfl
      | ok y => rfl

theorem addEntity_eq_run (s : State) (x : Entity) :
    s.addEntity x = Change.run ⟨.entity x.id, entering x⟩ s := by
  change s.addEntity x = (entering x (s.entities.get? x.id)).map (s.put (.entity x.id))
  rw [addEntity, entering, Dict.contains]
  cases x.id.isEmpty with
  | true => rfl
  | false =>
      cases s.entities.get? x.id with
      | some y => rfl
      | none =>
          cases hspent : x.checkSpent with
          | error err => simp [Except.map]
          | ok u => rfl

theorem switchLoop_eq_run (s : State) (name : String) (active : Bool) :
    .ok (s.switchLoop name active) = Change.run ⟨.loop name, fun l =>
      .ok (if active then some .started else l.map fun l => { l with active := false })⟩ s := by
  change _ = Except.ok (s.put (.loop name)
    (if active then some .started else (s.loops.get? name).map fun l => { l with active := false }))
  cases active with
  | true => rfl
  | false =>
      rw [switchLoop, if_neg Bool.false_ne_true, if_neg Bool.false_ne_true]
      cases h : s.loops.get? name with
      | some l => rfl
      | none =>
          have hsame := put_get? s (.loop name)
          rw [show s.get? (.loop name) = none from h] at hsame
          exact congrArg Except.ok hsame.symm

end State

/-! ## Entries of the metadata -/

namespace Metadata

/-- The name with which a path into the metadata begins. -/
def root (key : String) : String := (Text.split '.' key).headD ""

theorem eq_root_cons {key : String} {path : List String} (h : path? key = some path) :
    path = root key :: path.tail := by
  rw [path?] at h
  split at h
  · cases h
  · obtain rfl := Option.some.inj h
    rw [root]
    cases hsplit : Text.split '.' key with
    | nil => exact absurd (List.map_eq_nil_iff.mp hsplit) (Text.splitChars_ne_nil '.' key.toList)
    | cons first rest => rfl

/-- What becomes of an entry when a value is set at a path that goes on from
it. -/
def entryAfter (value : Json) (rest : List String) (entry : Option Json) : Option Json :=
  match rest, entry with
  | [], _ => if value.isNull then none else some value
  | rest, some (.obj child) => some (.obj (setAt value rest child))
  | rest, entry => if value.isNull then entry else some (.obj (setAt value rest []))

theorem entryAfter_obj {rest : List String} (hrest : rest ≠ []) (value : Json)
    (child : List (String × Json)) :
    entryAfter value rest (some (.obj child)) = some (.obj (setAt value rest child)) := by
  rw [entryAfter]
  exact hrest

theorem entryAfter_of_not_obj {value : Json} {rest : List String} (hrest : rest ≠ [])
    {entry : Option Json} (h : ∀ child, entry ≠ some (.obj child)) :
    entryAfter value rest entry
      = if value.isNull then entry else some (.obj (setAt value rest [])) := by
  rw [entryAfter]
  · exact hrest
  · exact h

theorem get?_setAt_self (value : Json) (k : String) (rest : List String)
    (members : List (String × Json)) :
    Entries.get? (setAt value (k :: rest) members) k
      = entryAfter value rest (Entries.get? members k) := by
  cases rest with
  | nil =>
      rw [setAt, entryAfter]
      split
      · exact Entries.get?_erase_self members k
      · exact Entries.get?_insert_self members k value
  | cons q rest =>
      have hne : q :: rest ≠ [] := List.cons_ne_nil q rest
      by_cases hobj : ∃ child, Entries.get? members k = some (.obj child)
      · obtain ⟨child, hchild⟩ := hobj
        rw [setAt_cons_of_obj hne hchild, Entries.get?_insert_self, hchild, entryAfter_obj hne]
      · have hnot := not_exists.mp hobj
        rw [setAt_cons_of_not_obj hne hnot, entryAfter_of_not_obj hne hnot]
        split
        · rfl
        · exact Entries.get?_insert_self ..

/-- Setting a value at a path changes one entry of the metadata. -/
theorem set_eq_putEntry (value : Json) (k : String) (rest : List String) (d : Dict Json) :
    set value (k :: rest) d = Entity.putEntry d k (entryAfter value rest (d.get? k)) := by
  refine Dict.ext_get? fun q => ?_
  rw [Entity.get?_putEntry]
  split
  · rename_i heq
    subst heq
    exact get?_setAt_self value k rest d.entries
  · rename_i hne
    exact get?_setAt_of_ne (by simpa using hne) value d.entries

end Metadata

/-! ## Events -/

namespace Event

open State (Place Change)

/-- The change that an event makes, if it makes one. -/
def change? : Event → Option Change
  | .loopSwitched loop active => some ⟨.loop loop, fun l =>
      .ok (if active then some .started else l.map fun l => { l with active := false })⟩
  | .loopDirection loop ascending => some (.ofLoop loop fun l => { l with ascending })
  | .loopOrder loop actor value =>
    some (.ofLoop loop fun l => { l with order := l.order.insert actor value }.enroll actor)
  | .actorAdded loop actor => some (.ofLoop loop (·.enroll actor))
  | .loopAdvanced loop => some (.ofLoop loop Loop.advance)
  | .entityAdded x => some ⟨.entity x.id, State.entering x⟩
  | .attributeChanged actor sec key value =>
    match Section.named? sec with
    | none => some ⟨.entity actor, fun _ => .error (.unknownSection sec)⟩
    | some sec => some (.ofEntity actor (Entity.changeEntry sec key value))
  | .spentAdded actor key => some (.ofEntity actor (Entity.spendFitting actor key))
  | .conditionChanged actor condition add => some (.ofEntity actor fun x =>
      .ok (if add then x.addCondition condition else x.removeCondition condition))
  | .askIssued target options =>
    some ⟨.entry State.pendingAsk, fun _ => .ok (some (askDocument target options))⟩
  | .hinted _ | .diceRolled .. => none
  | .metadataChanged key value => some ⟨.entry (Metadata.root key), fun entry =>
      match Metadata.path? key with
      | none => .error .emptyMetadataKey
      | some path => .ok (Metadata.entryAfter value path.tail entry)⟩
  | .checked actor check passed =>
    some ⟨.entry State.lastCheck, fun _ => .ok (some (checkDocument actor check passed))⟩

/-- Applying an event is its change, and nothing else. -/
theorem apply_eq (e : Event) (s : State) :
    e.apply s = match e.change? with
      | some c => c.run s
      | none => .ok s := by
  cases e with
  | loopSwitched loop active => exact s.switchLoop_eq_run loop active
  | loopDirection loop ascending => exact s.updateLoop_eq_run loop _
  | loopOrder loop actor value => exact s.updateLoop_eq_run loop _
  | actorAdded loop actor => exact s.updateLoop_eq_run loop _
  | loopAdvanced loop => exact s.updateLoop_eq_run loop _
  | entityAdded x => exact s.addEntity_eq_run x
  | attributeChanged actor sec key value =>
      rw [apply, change?]
      cases Section.named? sec with
      | none => rfl
      | some sec => exact s.updateEntity_eq_run actor _
  | spentAdded actor key => exact s.updateEntity_eq_run actor _
  | conditionChanged actor condition add => exact s.updateEntity_eq_run actor _
  | askIssued target options => rfl
  | hinted message => rfl
  | diceRolled actor dice result => rfl
  | metadataChanged key value =>
      rw [apply, change?]
      dsimp only [Change.run]
      cases hpath : Metadata.path? key with
      | none => rfl
      | some path =>
          have hset := Metadata.set_eq_putEntry value (Metadata.root key) path.tail s.metadata
          rw [← Metadata.eq_root_cons hpath] at hset
          exact congrArg (fun d => Except.ok { s with metadata := d }) hset
  | checked actor check passed => rfl

/-- The place that an event has to do with: the loop or the entity that it
names, or an entry of the metadata. -/
def footprint : Event → Option Place
  | .loopSwitched loop _ | .loopDirection loop _ | .loopOrder loop _ _ | .actorAdded loop _
  | .loopAdvanced loop => some (.loop loop)
  | .entityAdded x => some (.entity x.id)
  | .attributeChanged actor .. | .spentAdded actor _ | .conditionChanged actor .. =>
    some (.entity actor)
  | .askIssued .. => some (.entry State.pendingAsk)
  | .checked .. => some (.entry State.lastCheck)
  | .metadataChanged key _ => some (.entry (Metadata.root key))
  | .hinted _ | .diceRolled .. => none

theorem footprint_eq (e : Event) : e.footprint = e.change?.map (·.place) := by
  cases e with
  | attributeChanged actor sec key value =>
      rw [footprint, change?]
      cases Section.named? sec with
      | none => rfl
      | some sec => rfl
  | _ => rfl

/-- The events have no place in common. -/
def Independent (e f : Event) : Prop := ∀ p ∈ e.footprint, p ∉ f.footprint

theorem Independent.symm {e f : Event} (h : e.Independent f) : f.Independent e :=
  fun p hf he => h p he hf

variable {e f : Event} {s t u : State}

/-- An event writes nothing but its footprint. -/
theorem eq_taking_of_apply (h : e.apply s = .ok t) : t = s.taking e.footprint t := by
  rw [apply_eq] at h
  rw [footprint_eq]
  cases hc : e.change? with
  | none =>
      rw [hc] at h
      exact (Except.ok.inj h).symm
  | some c =>
      rw [hc] at h
      obtain ⟨o, -, rfl⟩ := map_eq_ok_iff.mp h
      exact congrArg (s.put c.place) (State.get?_put_self s c.place o).symm

theorem get?_of_apply (h : e.apply s = .ok t) {p : Place} (hp : p ∉ e.footprint) :
    t.get? p = s.get? p := by
  rw [eq_taking_of_apply h, State.get?_taking_of_not_mem hp]

/-- It reads nothing else either: what is put elsewhere makes no difference to
it, and is still there afterwards. -/
theorem apply_taking {p : Option Place} (hp : ∀ q ∈ e.footprint, q ∉ p) (s u : State) :
    e.apply (s.taking p u) = (e.apply s).map (·.taking p u) := by
  rw [footprint_eq] at hp
  rw [apply_eq, apply_eq]
  cases hc : e.change? with
  | none => rfl
  | some c =>
      rw [hc] at hp
      have hplace : c.place ∉ p := hp c.place rfl
      change Except.map _ (c.rule ((s.taking p u).get? c.place)) = Except.map _ (Except.map _ _)
      rw [State.get?_taking_of_not_mem hplace]
      cases c.rule (s.get? c.place) with
      | error err => rfl
      | ok o =>
          cases p with
          | none => rfl
          | some q =>
              have hne : q ≠ c.place := fun heq => hplace (congrArg some heq)
              exact congrArg Except.ok (s.put_comm hne _ o)

/-- So an event does after an independent one what it would have done before. -/
theorem apply_of_independent (h : e.Independent f) (hf : f.apply s = .ok u) :
    e.apply u = (e.apply s).map (·.taking f.footprint u) := by
  conv => lhs; rw [eq_taking_of_apply hf]
  exact apply_taking h s u

/-- Whether an event is taken, and if not, why. -/
def outcome (e : Event) (s : State) : Except ApplyError Unit := (e.apply s).map fun _ => ()

theorem outcome_of_independent (h : e.Independent f) (hf : f.apply s = .ok u) :
    e.outcome u = e.outcome s := by
  rw [outcome, outcome, apply_of_independent h hf]
  cases e.apply s with
  | error err => rfl
  | ok t => rfl

theorem apply_comm (h : e.Independent f) (he : e.apply s = .ok t) (hf : f.apply s = .ok u) :
    ∃ v, f.apply t = .ok v ∧ e.apply u = .ok v := by
  refine ⟨u.taking e.footprint t, ?_, ?_⟩
  · rw [apply_of_independent h.symm he, hf]
    rfl
  · rw [apply_of_independent h hf, he]
    refine congrArg Except.ok (State.ext_get? fun p => ?_)
    by_cases hp : p ∈ f.footprint
    · have hother : p ∉ e.footprint := fun hmem => h p hmem hp
      rw [State.get?_taking_of_mem hp, State.get?_taking_of_not_mem hother]
    · rw [State.get?_taking_of_not_mem hp]
      by_cases hmem : p ∈ e.footprint
      · rw [State.get?_taking_of_mem hmem]
      · rw [State.get?_taking_of_not_mem hmem, get?_of_apply he hmem, get?_of_apply hf hp]

end Event

namespace State

/-- An event leaves all places but its footprint as they were. Two events
without a place in common do not get in each other's way: each is taken, or is
refused for the same reason, whether the other has been applied before or not;
and if both are taken, the state is the same in either order. -/
theorem independent_events_commute (s : State) (e : Event) :
    (∀ t, e.apply s = .ok t → ∀ p, p ∉ e.footprint → t.get? p = s.get? p)
      ∧ ∀ f : Event, e.Independent f →
        (∀ u, f.apply s = .ok u → e.outcome u = e.outcome s)
          ∧ (∀ t, e.apply s = .ok t → f.outcome t = f.outcome s)
          ∧ ∀ t u, e.apply s = .ok t → f.apply s = .ok u →
            ∃ v, f.apply t = .ok v ∧ e.apply u = .ok v := by
  refine ⟨fun t ht p hp => Event.get?_of_apply ht hp, fun f h => ⟨?_, ?_, ?_⟩⟩
  · exact fun u hu => Event.outcome_of_independent h hu
  · exact fun t ht => Event.outcome_of_independent h.symm ht
  · exact fun t u => Event.apply_comm h

/-- A hero spends the only hit point, and in either order a note is made in the
metadata under the same name, which is another place. The next hit point is
refused before the note and after it. -/
theorem independent_events_commute_hero :
    let hero : Entity := { Entity.blank "hero" "Hero" with resources := .ofList [("hp", 1)] }
    let worn : Entity := { hero with spent := .ofList [("hp", 1)] }
    let spending : Event := .spentAdded "hero" "hp"
    let noting : Event := .metadataChanged "hero.hp" (.int 0)
    spending.Independent noting
      ∧ spending.apply (genesis [hero]) = .ok (genesis [worn])
      ∧ (∃ u v, noting.apply (genesis [hero]) = .ok u
        ∧ noting.apply (genesis [worn]) = .ok v ∧ spending.apply u = .ok v
        ∧ spending.outcome v = .error (.spentOutOfRange "hero" "hp" 2 1)) := by
  intro hero worn spending noting
  have hapart : spending.Independent noting := by
    rintro p ⟨⟩ hp
    cases hp
  have hspending : spending.apply (genesis [hero]) = .ok (genesis [worn]) := by decide +kernel
  have hboth := (independent_events_commute (genesis [hero]) spending).2 noting hapart
  have hnext := (independent_events_commute (genesis [worn]) spending).2 noting hapart
  obtain ⟨v, hv, hv'⟩ := hboth.2.2 _ _ hspending rfl
  refine ⟨hapart, hspending, _, v, rfl, hv, hv', ?_⟩
  rw [hnext.1 v hv]
  rfl

/-! ## Any number of events -/

/-- Passing over what is refused, independent events lead to the same state in
either order, whichever of them are taken. -/
theorem courseBy_swap {e f : Event} (h : e.Independent f) (s : State) :
    s.courseBy Event.apply [e, f] = s.courseBy Event.apply [f, e] := by
  have hsecond {a b : Event} (hab : a.Independent b) {t : State} (ha : a.apply s = .ok t) :
      b.apply t = (b.apply s).map (·.taking a.footprint t) :=
    Event.apply_of_independent hab.symm ha
  cases he : e.apply s with
  | error err =>
      cases hf : f.apply s with
      | error err' => simp only [courseBy, he, hf]
      | ok u => simp only [courseBy, he, hf, hsecond h.symm hf, Except.map]
  | ok t =>
      cases hf : f.apply s with
      | error err => simp only [courseBy, he, hf, hsecond h he, Except.map]
      | ok u =>
          obtain ⟨v, hv, hv'⟩ := Event.apply_comm h he hf
          simp only [courseBy, he, hf, hv, hv']

/-- Events no two of which have a place in common may come in any order. -/
theorem courseBy_perm {events others : List Event} (h : events.Perm others)
    (hpairs : events.Pairwise Event.Independent) (s : State) :
    s.courseBy Event.apply events = s.courseBy Event.apply others := by
  induction h generalizing s with
  | nil => rfl
  | cons e _ ih =>
      have hrest := (List.pairwise_cons.mp hpairs).2
      rw [courseBy, courseBy]
      split
      · exact ih hrest _
      · exact ih hrest s
  | swap e f rest =>
      have hef : f.Independent e := (List.pairwise_cons.mp hpairs).1 e (List.mem_cons_self ..)
      have hswap := courseBy_append Event.apply s [f, e] rest
      rw [courseBy_swap hef, ← courseBy_append] at hswap
      exact hswap
  | trans hfirst _ ih ih' =>
      rw [ih hpairs, ih' ((hfirst.pairwise_iff Event.Independent.symm).mp hpairs)]

end State

end GameTable
