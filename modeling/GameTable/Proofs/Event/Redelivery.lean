import GameTable.Proofs.Event.InPlace
import GameTable.Proofs.State.Joining
import GameTable.Proofs.State.Width

/-!
# Hearing of an event twice

Most events say how something is to be, and not what is to be done with it: a
key in the order of turns, an entry of a section, a condition, a value in the
metadata. What such an event has made of its place, it makes of it again
(`Change.Settles`), so if it is delivered a second time nothing happens. This
covers what the event has to check anew. A number that has been set passes the
check that it passed before, because the check looks at the other one of the two
numbers that it compares.

An entity that has entered stands in its own way, so its event is refused the
second time. Only passing on a turn and spending count how often they are heard
of. Without these two a log may repeat any event right after it was delivered,
as often as it likes (`State.courseBy_deliveries`).
-/

namespace GameTable

/-! ## Setting again what was set -/

namespace Loop

theorem enroll_again (l : Loop) (actor : String) : (l.enroll actor).enroll actor = l.enroll actor :=
  enroll_of_mem (mem_actors_enroll.mpr (.inr rfl))

theorem giveKey_again (l : Loop) (actor : String) (value : Int) :
    (l.giveKey actor value).giveKey actor value = l.giveKey actor value := by
  have horder : (l.giveKey actor value).order.insert actor value
      = (l.giveKey actor value).order := by
    rw [giveKey, order_enroll, Dict.insert_insert]
  have henroll : (l.giveKey actor value).giveKey actor value
      = (l.giveKey actor value).enroll actor :=
    congrArg (fun order => { l.giveKey actor value with order }.enroll actor) horder
  rw [henroll, giveKey, enroll_again]

end Loop

namespace Entity

variable {x y : Entity} {key : String} {value : Json}

theorem putEntry_putEntry {α : Type} (d : Dict α) (key : String) (o o' : Option α) :
    putEntry (putEntry d key o) key o' = putEntry d key o' := by
  refine Dict.ext_get? fun q => ?_
  rw [get?_putEntry, get?_putEntry, get?_putEntry]
  split <;> rfl

/-- The number that was set passes the check again: the check compares it with
one that stands in another section. -/
theorem checkNumber_setNumbers {sec : NumberSection} {n : Int}
    (h : x.checkNumber sec key n = .ok ()) (d : Dict Int) :
    (x.setNumbers d sec).checkNumber sec key n = .ok () := by
  obtain ⟨hcount, hspent, hresource⟩ := checkNumber_eq_ok_iff.mp h
  refine checkNumber_eq_ok_iff.mpr ⟨hcount, ?_, ?_⟩
  · rintro rfl
    exact hspent rfl
  · rintro rfl
    exact hresource rfl

theorem setNumbers_setNumbers (x : Entity) (d d' : Dict Int) (sec : NumberSection) :
    (x.setNumbers d sec).setNumbers d' sec = x.setNumbers d' sec := by
  cases sec <;> rfl

theorem setTexts_setTexts (x : Entity) (d d' : Dict String) (sec : TextSection) :
    (x.setTexts d sec).setTexts d' sec = x.setTexts d' sec := by
  cases sec <;> rfl

theorem texts_setTexts (x : Entity) (d : Dict String) (sec : TextSection) :
    (x.setTexts d sec).texts sec = d := by
  cases sec <;> rfl

theorem changeEntry_again {sec : Section} (h : x.changeEntry sec key value = .ok y) :
    y.changeEntry sec key value = .ok y := by
  cases sec with
  | numbers sec =>
      obtain ⟨number, hread, hcheck, rfl⟩ := changeEntry_numbers.mp h
      refine changeEntry_numbers.mpr ⟨number, hread, fun n hn => ?_, ?_⟩
      · exact checkNumber_setNumbers (hcheck n hn) _
      · rw [setNumbers_setNumbers, numbers_setNumbers, if_pos rfl, putEntry_putEntry]
  | texts sec =>
      obtain ⟨text, hread, rfl⟩ := changeEntry_texts.mp h
      refine changeEntry_texts.mpr ⟨text, hread, ?_⟩
      rw [setTexts_setTexts, texts_setTexts, putEntry_putEntry]

theorem condition_again (x : Entity) (condition : String) (add : Bool) :
    let change := fun x : Entity =>
      if add then x.addCondition condition else x.removeCondition condition
    change (change x) = change x := by
  cases add with
  | true =>
      have hhas : (x.addCondition condition).hasCondition condition = true := by
        rw [addCondition]
        split
        · assumption
        · simp [hasCondition]
      exact addCondition_of_hasCondition hhas
  | false =>
      have hgone : (x.removeCondition condition).hasCondition condition = false := by
        simp [removeCondition, hasCondition]
      exact removeCondition_of_not_hasCondition hgone

end Entity

namespace Metadata

/-- A value that has been set is not set again. -/
theorem setAt_again (value : Json) (path : List String) (members : List (String × Json)) :
    setAt value path (setAt value path members) = setAt value path members := by
  induction path generalizing members with
  | nil => rfl
  | cons k rest ih =>
      by_cases hrest : rest = []
      · subst hrest
        rw [setAt, setAt]
        split
        · exact Entries.erase_erase members k
        · exact Entries.insert_insert members k value value
      · have hput (child : List (String × Json)) :
            setAt value (k :: rest) (Entries.insert members k (.obj (setAt value rest child)))
              = Entries.insert members k (.obj (setAt value rest child)) := by
          rw [setAt_cons_of_obj hrest (Entries.get?_insert_self ..), ih, Entries.insert_insert]
        by_cases hobj : ∃ child, Entries.get? members k = some (.obj child)
        · obtain ⟨child, hchild⟩ := hobj
          rw [setAt_cons_of_obj hrest hchild, hput]
        · have hnot := not_exists.mp hobj
          rw [setAt_cons_of_not_obj hrest hnot]
          split
          · rename_i hnull
            rw [setAt_cons_of_not_obj hrest hnot, if_pos hnull]
          · exact hput []

theorem entryAfter_again (value : Json) (rest : List String) (entry : Option Json) :
    entryAfter value rest (entryAfter value rest entry) = entryAfter value rest entry := by
  by_cases hrest : rest = []
  · subst hrest
    rfl
  · have hput (child : List (String × Json)) :
        entryAfter value rest (some (.obj (setAt value rest child)))
          = some (.obj (setAt value rest child)) := by
      rw [entryAfter_obj hrest, setAt_again]
    by_cases hobj : ∃ child, entry = some (.obj child)
    · obtain ⟨child, rfl⟩ := hobj
      rw [entryAfter_obj hrest, hput]
    · have hnot := not_exists.mp hobj
      rw [entryAfter_of_not_obj hrest hnot]
      split
      · rename_i hnull
        rw [entryAfter_of_not_obj hrest hnot, if_pos hnull]
      · exact hput []

end Metadata

/-! ## Changes that settle -/

namespace State

/-- What the change has made of its place, it makes of it again. -/
def Change.Settles (c : Change) : Prop := ∀ o o', c.rule o = .ok o' → c.rule o' = .ok o'

theorem Change.Settles.run_again {c : Change} (hc : c.Settles) {s t : State}
    (h : c.run s = .ok t) : c.run t = .ok t := by
  obtain ⟨o, ho, rfl⟩ := map_eq_ok_iff.mp h
  rw [run, get?_put_self, hc _ _ ho]
  exact congrArg Except.ok (put_put s c.place o o)

theorem settles_ofLoop (name : String) {f : Loop → Loop} (hf : ∀ l, f (f l) = f l) :
    (Change.ofLoop name f).Settles := by
  intro o o' h
  cases o with
  | none => cases h
  | some l =>
      obtain rfl := Except.ok.inj h
      exact congrArg (fun l => Except.ok (some l)) (hf l)

theorem settles_ofEntity (id : String) {f : Entity → Except ApplyError Entity}
    (hf : ∀ x y, f x = .ok y → f y = .ok y) : (Change.ofEntity id f).Settles := by
  intro o o' h
  cases o with
  | none => cases h
  | some x =>
      obtain ⟨y, hy, rfl⟩ := map_eq_ok_iff.mp h
      exact congrArg (Except.map some) (hf x y hy)

end State

namespace Event

open State (Change)

/-- The event says how something is to be, so it may be delivered twice. -/
def Repeatable : Event → Prop
  | .loopAdvanced _ | .entityAdded _ | .spentAdded .. => False
  | _ => True

/-- The event does not count how often it is delivered. -/
def Uncounted (e : Event) : Prop := e.Repeatable ∨ ∃ x, e = .entityAdded x

theorem Repeatable.settles {e : Event} (he : e.Repeatable) {c : Change} (hc : e.change? = some c) :
    c.Settles := by
  cases e with
  | loopAdvanced loop => exact he.elim
  | entityAdded x => exact he.elim
  | spentAdded actor key => exact he.elim
  | loopSwitched loop active =>
      obtain rfl := Option.some.inj hc
      intro o o' h
      obtain rfl := Except.ok.inj h
      cases active with
      | true => rfl
      | false => cases o <;> rfl
  | loopDirection loop ascending =>
      obtain rfl := Option.some.inj hc
      exact State.settles_ofLoop loop fun l => rfl
  | loopOrder loop actor value =>
      obtain rfl := Option.some.inj hc
      exact State.settles_ofLoop loop fun l => l.giveKey_again actor value
  | actorAdded loop actor =>
      obtain rfl := Option.some.inj hc
      exact State.settles_ofLoop loop fun l => l.enroll_again actor
  | attributeChanged actor name key value =>
      rw [change?] at hc
      split at hc
      · obtain rfl := Option.some.inj hc
        intro o o' h
        cases h
      · obtain rfl := Option.some.inj hc
        exact State.settles_ofEntity actor fun x y => Entity.changeEntry_again
  | conditionChanged actor condition add =>
      obtain rfl := Option.some.inj hc
      refine State.settles_ofEntity actor fun x y h => ?_
      obtain rfl := Except.ok.inj h
      exact congrArg Except.ok (x.condition_again condition add)
  | askIssued target options =>
      obtain rfl := Option.some.inj hc
      exact fun o o' h => h
  | hinted message => cases hc
  | diceRolled actor dice result => cases hc
  | metadataChanged key value =>
      obtain rfl := Option.some.inj hc
      intro o o' h
      dsimp only at h ⊢
      split at h
      · cases h
      · obtain rfl := Except.ok.inj h
        exact congrArg Except.ok (Metadata.entryAfter_again ..)
  | checked actor check passed =>
      obtain rfl := Option.some.inj hc
      exact fun o o' h => h

variable {e : Event} {s t : State}

theorem Repeatable.apply_again (he : e.Repeatable) (h : e.apply s = .ok t) :
    e.apply t = .ok t := by
  rw [apply_eq] at h ⊢
  cases hc : e.change? with
  | none => rfl
  | some c =>
      rw [hc] at h
      exact (he.settles hc).run_again h

theorem entityAdded_again {x : Entity} (h : (entityAdded x).apply s = .ok t) :
    (entityAdded x).apply t = .error (.duplicateEntity x.id) := by
  obtain ⟨hid, -, -, rfl⟩ := State.addEntity_eq_ok_iff.mp h
  have hthere : (s.setEntity x.id x).entities.contains x.id = true := by
    rw [State.setEntity, Dict.contains, Dict.get?_insert_self]
    rfl
  rw [apply, State.addEntity, if_neg (by simpa using hid), if_pos hthere]
  rfl

end Event

namespace State

variable {e : Event} {s t : State}

/-- An event that has been taken and is delivered again changes nothing, unless
it passes on a turn or spends. If it lets in an entity, it is refused the second
time, because the entity is there; all others are taken once more. -/
theorem redelivery_is_idle (h : e.apply s = .ok t) :
    (e.Repeatable → e.apply t = .ok t ∧ e.inPlace t = (.ok (), t))
      ∧ ∀ x, e = .entityAdded x →
        e.apply t = .error (.duplicateEntity x.id)
          ∧ e.inPlace t = (.error (.duplicateEntity x.id), t) := by
  constructor
  · intro he
    have hagain := he.apply_again h
    exact ⟨hagain, Event.inPlace_of_ok hagain⟩
  · rintro x rfl
    have hagain := Event.entityAdded_again h
    exact ⟨hagain, Event.inPlace_of_error hagain⟩

/-- The last hit point is set as spent, and set so again. The hero does not
enter twice. -/
theorem redelivery_is_idle_hero :
    let hero : Entity := { Entity.blank "hero" "Hero" with resources := .ofList [("hp", 1)] }
    let worn : Entity := { hero with spent := .ofList [("hp", 1)] }
    let setting : Event := .attributeChanged "hero" "Spent" "hp" (.int 1)
    let entering : Event := .entityAdded hero
    setting.apply (genesis [hero]) = .ok (genesis [worn])
      ∧ setting.inPlace (genesis [worn]) = (.ok (), genesis [worn])
      ∧ entering.apply .empty = .ok (genesis [hero])
      ∧ entering.inPlace (genesis [hero]) = (.error (.duplicateEntity "hero"), genesis [hero]) := by
  intro hero worn setting entering
  have hsec : Section.named? "Spent" = some (.numbers .spent) := by decide +kernel
  have hset : setting.apply (genesis [hero]) = .ok (genesis [worn]) := by
    have hworn : hero.changeEntry (.numbers .spent) "hp" (.int 1) = .ok worn := by
      refine Entity.changeEntry_numbers.mpr ⟨some 1, rfl, fun n hn => ?_, rfl⟩
      obtain rfl := Option.some.inj hn
      rfl
    dsimp only [setting]
    rw [Event.apply, hsec]
    exact updateEntity_eq_ok_iff.mpr ⟨hero, worn, rfl, hworn, by decide +kernel⟩
  have henter : entering.apply .empty = .ok (genesis [hero]) := rfl
  exact ⟨hset, ((redelivery_is_idle hset).1 trivial).2, henter,
    ((redelivery_is_idle henter).2 hero rfl).2⟩

/-! ## Logs with repetitions -/

theorem courseBy_again (he : e.Uncounted) (s : State) :
    (s.courseBy Event.apply [e]).courseBy Event.apply [e] = s.courseBy Event.apply [e] := by
  cases h : e.apply s with
  | error err => simp only [courseBy, h]
  | ok t =>
      have hafter : s.courseBy Event.apply [e] = t := by simp only [courseBy, h]
      rw [hafter]
      rcases he with he | ⟨x, rfl⟩
      · simp only [courseBy, he.apply_again h]
      · simp only [courseBy, Event.entityAdded_again h]

theorem courseBy_replicate (he : e.Uncounted) (n : Nat) (s : State) :
    s.courseBy Event.apply (List.replicate (n + 1) e) = s.courseBy Event.apply [e] := by
  induction n generalizing s with
  | zero => rfl
  | succ n ih =>
      have hfirst := courseBy_append Event.apply s [e] (List.replicate (n + 1) e)
      rw [ih, courseBy_again he] at hfirst
      exact hfirst

/-- Every event of a log, delivered again as many times as the log says. -/
def deliveries (log : List (Event × Nat)) : List Event :=
  log.flatMap fun (e, again) => List.replicate (again + 1) e

/-- It does not matter how often each event is delivered in a row. -/
theorem courseBy_deliveries {log : List (Event × Nat)} (hlog : ∀ d ∈ log, d.1.Uncounted)
    (s : State) :
    s.courseBy Event.apply (deliveries log) = s.courseBy Event.apply (log.map (·.1)) := by
  induction log generalizing s with
  | nil => rfl
  | cons d rest ih =>
      obtain ⟨e, again⟩ := d
      rw [List.forall_mem_cons] at hlog
      have honce := courseBy_append Event.apply s [e] (rest.map (·.1))
      rw [deliveries, List.flatMap_cons, courseBy_append, courseBy_replicate hlog.1]
      exact (ih hlog.2 _).trans honce.symm

end State

end GameTable
