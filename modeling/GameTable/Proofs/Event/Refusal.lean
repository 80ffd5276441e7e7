import GameTable.Proofs.Event.InPlace
import GameTable.Proofs.State.Width

/-!
# Which events are refused

What can be wrong with an event is told here without the program: the loop or the
entity that it names is not there, an entity that enters has no id of its own or
has overspent, a section does not exist or has no use for a value, more would be
spent than there is, a path has an empty name (`Event.Misfit`). Every reason goes
with the error that reports it.

An event for which there is such a reason is not taken (`Misfit.not_ok`), and the
error with which an event is refused is one that holds
(`misfit_of_apply_eq_error`).
There is one event that is neither refused nor taken: one more is spent of
something of which the largest integer is spent already. The sum is computed
before it is compared with what there is, so this is a fault even where the
event should have been refused (`State.refused_iff_misfits_iff`).
-/

namespace GameTable

/-! ## Reasons -/

/-- A section has no use for a value under a name, and the error that says so. -/
inductive Entity.Unfit (x : Entity) : Section → String → Json → ApplyError → Prop
  | notNumber {sec : NumberSection} {key : String} {value : Json} :
      value ≠ .null → (Value.ofJson value).toInt? = none →
      Unfit x (.numbers sec) key value (.attributeType (.numbers sec) key value)
  | list {sec : TextSection} {key : String} {items : List Json} :
      Unfit x (.texts sec) key (.arr items) (.attributeType (.texts sec) key (.arr items))
  | object {sec : TextSection} {key : String} {members : List (String × Json)} :
      Unfit x (.texts sec) key (.obj members) (.attributeType (.texts sec) key (.obj members))
  | negative {sec : NumberSection} {key : String} {value : Json} {n : Int} :
      sec ∈ [.resources, .spent, .inventory] → (Value.ofJson value).toInt? = some n → n < 0 →
      Unfit x (.numbers sec) key value (.negativeValue x.id sec key n)
  | beyond {key : String} {value : Json} {n limit : Int} :
      (Value.ofJson value).toInt? = some n → x.resources.get? key = some limit → limit < n →
      Unfit x (.numbers .spent) key value (.spentOutOfRange x.id key n limit)
  | below {key : String} {value : Json} {n spent : Int} :
      (Value.ofJson value).toInt? = some n → x.spent.get? key = some spent → n < spent →
      Unfit x (.numbers .resources) key value (.spentOutOfRange x.id key spent n)

namespace Event

/-- The loop that has to be there. -/
def neededLoop? : Event → Option String
  | .loopDirection loop _ | .loopOrder loop _ _ | .actorAdded loop _ | .loopAdvanced loop =>
    some loop
  | _ => none

/-- The entity that has to be there. -/
def neededEntity? : Event → Option String
  | .attributeChanged actor .. | .spentAdded actor _ | .conditionChanged actor .. => some actor
  | _ => none

/-- Something is wrong with the event, and the error that says so. -/
inductive Misfit (s : State) : Event → ApplyError → Prop
  | noLoop {e : Event} {name : String} :
      e.neededLoop? = some name → s.loops.get? name = none → Misfit s e (.unknownLoop name)
  | noEntity {e : Event} {id : String} :
      e.neededEntity? = some id → s.entities.get? id = none → Misfit s e (.unknownEntity id)
  | noId {x : Entity} : x.id = "" → Misfit s (.entityAdded x) .emptyEntityId
  | idTaken {x y : Entity} :
      s.entities.get? x.id = some y → Misfit s (.entityAdded x) (.duplicateEntity x.id)
  | spentNegative {x : Entity} {key : String} {spent : Int} :
      x.spent.get? key = some spent → spent < 0 →
      Misfit s (.entityAdded x) (.negativeValue x.id .spent key spent)
  | overspent {x : Entity} {key : String} {spent limit : Int} :
      x.spent.get? key = some spent → x.resources.get? key = some limit → limit < spent →
      Misfit s (.entityAdded x) (.spentOutOfRange x.id key spent limit)
  | noSection {actor name key : String} {value : Json} :
      (∀ sec : Section, sec.name ≠ name.map Char.toLower) →
      Misfit s (.attributeChanged actor name key value) (.unknownSection name)
  | noUse {actor name key : String} {value : Json} {sec : Section} {x : Entity}
      {err : ApplyError} :
      sec.name = name.map Char.toLower → s.entities.get? actor = some x →
      x.Unfit sec key value err → Misfit s (.attributeChanged actor name key value) err
  | usedUp {actor key : String} {x : Entity} {limit : Int} :
      s.entities.get? actor = some x → x.resources.get? key = some limit →
      limit < (x.spent.get? key).getD 0 + 1 →
      Misfit s (.spentAdded actor key)
        (.spentOutOfRange actor key ((x.spent.get? key).getD 0 + 1) limit)
  | emptyName {key : String} {value : Json} :
      "" ∈ Text.split '.' key → Misfit s (.metadataChanged key value) .emptyMetadataKey

end Event

/-! ## Sections -/

namespace Section

theorem mem_all (sec : Section) : sec ∈ all := by
  rcases sec with sec | sec <;> cases sec <;> decide

theorem name_injective {sec sec' : Section} (h : sec.name = sec'.name) : sec = sec' := by
  have hall : ∀ a ∈ all, ∀ b ∈ all, a.name = b.name → a = b := by decide
  exact hall sec sec.mem_all sec' sec'.mem_all h

theorem named?_eq_none_iff {name : String} :
    named? name = none ↔ ∀ sec : Section, sec.name ≠ name.map Char.toLower := by
  simp [named?, mem_all]

theorem name_of_named? {name : String} {sec : Section} (h : named? name = some sec) :
    sec.name = name.map Char.toLower := by
  rw [named?] at h
  simpa using List.find?_some h

theorem named?_eq_some_iff {name : String} {sec : Section} :
    named? name = some sec ↔ sec.name = name.map Char.toLower := by
  refine ⟨name_of_named?, fun h => ?_⟩
  cases hfound : named? name with
  | none => exact absurd h (named?_eq_none_iff.mp hfound sec)
  | some other => rw [name_injective ((name_of_named? hfound).trans h.symm)]

end Section

/-! ## What is refused has something wrong with it -/

namespace Entity

variable {x : Entity} {key : String} {value : Json} {err : ApplyError}

theorem misfit_of_checkSpent {s : State} (h : x.checkSpent = .error err) :
    Event.Misfit s (.entityAdded x) err := by
  obtain ⟨⟨key, spent⟩, hmem, hentry⟩ := exists_of_forM_eq_error h
  have hspent : x.spent.get? key = some spent := Dict.mem_toList_iff.mp hmem
  dsimp only at hentry
  rw [checkSpentEntry] at hentry
  split at hentry
  · rename_i hneg
    obtain rfl := Except.error.inj hentry
    exact .spentNegative hspent hneg
  · split at hentry
    · rename_i limit hlimit
      split at hentry
      · rename_i hover
        obtain rfl := Except.error.inj hentry
        exact .overspent hspent hlimit hover
      · cases hentry
    · cases hentry

theorem unfit_of_checkNumber {sec : NumberSection} {n : Int}
    (hn : (Value.ofJson value).toInt? = some n) (h : x.checkNumber sec key n = .error err) :
    x.Unfit (.numbers sec) key value err := by
  unfold checkNumber at h
  by_cases hneg : (countsUp sec && decide (n < 0)) = true
  · rw [if_pos hneg] at h
    obtain rfl := Except.error.inj h
    rw [Bool.and_eq_true, decide_eq_true_iff] at hneg
    refine .negative ?_ hn hneg.2
    cases sec with
    | resources | spent | inventory => decide
    | stats | proficiencies => cases hneg.1
  · rw [if_neg hneg] at h
    dsimp only at h
    split at h
    · rename_i spent limit hbounds
      split at h
      · rename_i hover
        obtain rfl := Except.error.inj h
        cases sec with
        | spent =>
            obtain ⟨hspent, hlimit⟩ := Prod.mk.inj hbounds
            obtain rfl := Option.some.inj hspent
            exact .beyond hn hlimit hover
        | resources =>
            obtain ⟨hspent, hlimit⟩ := Prod.mk.inj hbounds
            obtain rfl := Option.some.inj hlimit
            exact .below hn hspent hover
        | stats | proficiencies | inventory => cases hbounds
      · cases h
    · cases h

theorem unfit_of_numberOf {sec : NumberSection} (h : numberOf sec key value = .error err) :
    x.Unfit (.numbers sec) key value err := by
  unfold numberOf at h
  split at h
  · cases h
  · rename_i hnull
    split at h
    · cases h
    · rename_i hnone
      obtain rfl := Except.error.inj h
      exact .notNumber (fun heq => hnull heq) hnone

theorem unfit_of_textOf {sec : TextSection} (h : textOf sec key value = .error err) :
    x.Unfit (.texts sec) key value err := by
  cases value with
  | arr items =>
      obtain rfl := Except.error.inj h
      exact .list
  | obj members =>
      obtain rfl := Except.error.inj h
      exact .object
  | _ => cases h

theorem numberOf_eq_ok_some_iff {sec : NumberSection} {n : Int} :
    numberOf sec key value = .ok (some n) ↔ (Value.ofJson value).toInt? = some n := by
  unfold numberOf
  split
  · constructor
    · intro h
      cases h
    · intro h
      cases h
  · cases (Value.ofJson value).toInt? <;> simp

theorem unfit_of_changeEntry {sec : Section} (h : x.changeEntry sec key value = .error err) :
    x.Unfit sec key value err := by
  cases sec with
  | numbers sec =>
      rw [changeEntry] at h
      rcases bind_eq_error h with hread | ⟨number, hread, hset⟩
      · exact unfit_of_numberOf hread
      · cases number with
        | none => cases hset
        | some n =>
            rcases bind_eq_error hset with hcheck | ⟨u, -, hdone⟩
            · exact unfit_of_checkNumber (numberOf_eq_ok_some_iff.mp hread) hcheck
            · cases hdone
  | texts sec =>
      rw [changeEntry] at h
      rcases bind_eq_error h with hread | ⟨text, -, hset⟩
      · exact unfit_of_textOf hread
      · cases hset

theorem usedUp_of_spendFitting {s : State} {actor : String} (hx : s.entities.get? actor = some x)
    (h : x.spendFitting actor key = .error err) (hfault : err ≠ .overflow) :
    Event.Misfit s (.spentAdded actor key) err := by
  rw [spendFitting] at h
  split at h
  · rw [spendOne] at h
    dsimp only at h
    split at h
    · rename_i limit hlimit
      split at h
      · rename_i hover
        obtain rfl := Except.error.inj h
        exact .usedUp hx hlimit hover
      · cases h
    · cases h
  · exact absurd (Except.error.inj h).symm hfault

end Entity

namespace Event

variable {e : Event} {s t : State} {err : ApplyError}

theorem misfit_of_addEntity {x : Entity} (h : s.addEntity x = .error err) :
    Misfit s (.entityAdded x) err := by
  rw [State.addEntity_eq_checks] at h
  rcases bind_eq_error h with hid | ⟨-, -, h⟩
  · split at hid
    · rename_i hempty
      obtain rfl := Except.error.inj hid
      exact .noId (by simpa using hempty)
    · cases hid
  · rcases bind_eq_error h with htaken | ⟨-, -, h⟩
    · split at htaken
      · rename_i hcontains
        obtain rfl := Except.error.inj htaken
        obtain ⟨y, hy⟩ := Option.isSome_iff_exists.mp hcontains
        exact .idTaken hy
      · cases htaken
    · rcases bind_eq_error h with hspent | ⟨-, -, hset⟩
      · exact Entity.misfit_of_checkSpent hspent
      · cases hset

theorem misfit_of_apply_eq_error (h : e.apply s = .error err) (hfault : err ≠ .overflow) :
    e.Misfit s err := by
  have hloop {name : String} {f : Loop → Loop} (hname : e.neededLoop? = some name)
      (hupdate : s.updateLoop name f = .error err) : e.Misfit s err := by
    obtain ⟨hnone, rfl⟩ := State.updateLoop_eq_error hupdate
    exact .noLoop hname hnone
  cases e with
  | loopSwitched loop active => cases h
  | loopDirection loop ascending => exact hloop rfl h
  | loopOrder loop actor value => exact hloop rfl h
  | actorAdded loop actor => exact hloop rfl h
  | loopAdvanced loop => exact hloop rfl h
  | entityAdded x => exact misfit_of_addEntity h
  | attributeChanged actor name key value =>
      rw [apply] at h
      split at h
      · rename_i hnone
        obtain rfl := Except.error.inj h
        exact .noSection (Section.named?_eq_none_iff.mp hnone)
      · rename_i sec hsec
        rcases State.updateEntity_eq_error h with ⟨hnone, rfl⟩ | ⟨x, hx, hentry⟩
        · exact .noEntity rfl hnone
        · exact .noUse (Section.name_of_named? hsec) hx (Entity.unfit_of_changeEntry hentry)
  | spentAdded actor key =>
      rcases State.updateEntity_eq_error h with ⟨hnone, rfl⟩ | ⟨x, hx, hspend⟩
      · exact .noEntity rfl hnone
      · exact Entity.usedUp_of_spendFitting hx hspend hfault
  | conditionChanged actor condition add =>
      rcases State.updateEntity_eq_error h with ⟨hnone, rfl⟩ | ⟨x, -, hchange⟩
      · exact .noEntity rfl hnone
      · cases hchange
  | askIssued target options => cases h
  | hinted message => cases h
  | diceRolled actor dice result => cases h
  | metadataChanged key value =>
      rw [apply] at h
      split at h
      · rename_i hnone
        obtain rfl := Except.error.inj h
        exact .emptyName (Metadata.path?_eq_none_iff.mp hnone)
      · cases h
  | checked actor check passed => cases h

end Event

/-! ## What has something wrong with it is refused -/

namespace Entity

variable {x y : Entity} {key : String} {value : Json}

/-- Only a number that passes the check is set. -/
theorem checkNumber_of_changeEntry {sec : NumberSection} {n : Int}
    (hn : (Value.ofJson value).toInt? = some n)
    (h : x.changeEntry (.numbers sec) key value = .ok y) : x.checkNumber sec key n = .ok () := by
  obtain ⟨number, hread, hcheck, -⟩ := changeEntry_numbers.mp h
  rw [numberOf_eq_ok_some_iff.mpr hn] at hread
  exact hcheck n (Except.ok.inj hread).symm

theorem Unfit.not_ok {sec : Section} {err : ApplyError} (h : x.Unfit sec key value err) :
    x.changeEntry sec key value ≠ .ok y := by
  intro hok
  cases h with
  | @notNumber sec _ _ hnull hnone =>
      obtain ⟨number, hread, -, -⟩ := changeEntry_numbers.mp hok
      cases number with
      | none =>
          unfold numberOf at hread
          split at hread
          · exact hnull rfl
          · rw [hnone] at hread
            cases hread
      | some n =>
          rw [numberOf_eq_ok_some_iff.mp hread] at hnone
          cases hnone
  | list => cases hok
  | object => cases hok
  | negative hsec hn hneg =>
      have hcheck := checkNumber_eq_ok_iff.mp (checkNumber_of_changeEntry hn hok)
      refine Int.not_le.mpr hneg (hcheck.1 ?_)
      simp only [List.mem_cons, List.not_mem_nil, or_false] at hsec
      rcases hsec with rfl | rfl | rfl <;> rfl
  | beyond hn hlimit hover =>
      have hcheck := checkNumber_eq_ok_iff.mp (checkNumber_of_changeEntry hn hok)
      exact Int.not_le.mpr hover (hcheck.2.1 rfl _ hlimit)
  | below hn hspent hover =>
      have hcheck := checkNumber_eq_ok_iff.mp (checkNumber_of_changeEntry hn hok)
      exact Int.not_le.mpr hover (hcheck.2.2 rfl _ hspent)

end Entity

namespace Event

variable {e : Event} {s t : State} {err : ApplyError}

theorem ne_ok_of_neededLoop? {name : String} (hname : e.neededLoop? = some name)
    (hnone : s.loops.get? name = none) : e.apply s ≠ .ok t := by
  have hupdate (f : Loop → Loop) : s.updateLoop name f ≠ .ok t := by
    intro hok
    rw [State.updateLoop, State.loop, hnone] at hok
    cases hok
  cases e with
  | loopDirection loop ascending | loopOrder loop actor value | actorAdded loop actor
  | loopAdvanced loop =>
      obtain rfl := Option.some.inj hname
      exact hupdate _
  | _ => cases hname

theorem ne_ok_of_neededEntity? {id : String} (hid : e.neededEntity? = some id)
    (hnone : s.entities.get? id = none) : e.apply s ≠ .ok t := by
  have hupdate (f : Entity → Except ApplyError Entity) : s.updateEntity id f ≠ .ok t := by
    intro hok
    rw [State.updateEntity, State.entity, hnone] at hok
    cases hok
  cases e with
  | attributeChanged actor name key value =>
      obtain rfl := Option.some.inj hid
      rw [apply]
      cases Section.named? name with
      | none =>
          intro hok
          cases hok
      | some sec => exact hupdate _
  | spentAdded actor key | conditionChanged actor condition add =>
      obtain rfl := Option.some.inj hid
      exact hupdate _
  | _ => cases hid

theorem Misfit.not_ok (h : e.Misfit s err) : e.apply s ≠ .ok t := by
  intro hok
  cases h with
  | noLoop hname hnone => exact ne_ok_of_neededLoop? hname hnone hok
  | noEntity hid hnone => exact ne_ok_of_neededEntity? hid hnone hok
  | noId hid => exact (State.addEntity_eq_ok_iff.mp hok).1 hid
  | idTaken hy =>
      have hnone := (State.addEntity_eq_ok_iff.mp hok).2.1
      rw [hy] at hnone
      cases hnone
  | spentNegative hspent hneg =>
      have hbudget := Entity.checkSpent_eq_ok_iff.mp (State.addEntity_eq_ok_iff.mp hok).2.2.1
      exact Int.not_le.mpr hneg (hbudget.nonneg hspent)
  | overspent hspent hlimit hover =>
      have hbudget := Entity.checkSpent_eq_ok_iff.mp (State.addEntity_eq_ok_iff.mp hok).2.2.1
      exact Int.not_le.mpr hover (hbudget.within hspent hlimit)
  | noSection hnone =>
      rw [apply, Section.named?_eq_none_iff.mpr hnone] at hok
      cases hok
  | noUse hname hx hunfit =>
      rw [apply, Section.named?_eq_some_iff.mpr hname] at hok
      obtain ⟨x', y, hx', hy, -⟩ := State.updateEntity_eq_ok_iff.mp hok
      obtain rfl := Option.some.inj (hx.symm.trans hx')
      exact hunfit.not_ok hy
  | usedUp hx hlimit hover =>
      obtain ⟨x', y, hx', -, hy, -⟩ := apply_spentAdded.mp hok
      obtain rfl := Option.some.inj (hx.symm.trans hx')
      exact Int.not_le.mpr hover ((Entity.spendOne_eq_ok_iff.mp hy).1 _ hlimit)
  | emptyName hempty =>
      rw [apply, Metadata.path?_eq_none_iff.mpr hempty] at hok
      cases hok

/-- Something is wrong with the event. -/
def Misfits (e : Event) (s : State) : Prop := ∃ err, e.Misfit s err

/-- One more is to be spent than an integer of 64 bits can count. -/
def Overflows (e : Event) (s : State) : Prop :=
  ∃ actor key x, e = .spentAdded actor key ∧ s.entities.get? actor = some x
    ∧ ¬ Fits ((x.spent.get? key).getD 0 + 1)

/-- The event needs nothing to be there. -/
def FitsAlways : Event → Prop
  | .loopSwitched .. | .askIssued .. | .checked .. | .hinted _ | .diceRolled .. => True
  | _ => False

/-- The event is taken, and the state is changed where it stands. -/
def Accepted (e : Event) (s : State) : Prop := ∃ t, e.inPlace s = (.ok (), t)

/-- The event is refused for some reason, and the state is left as it was. -/
def Refused (e : Event) (s : State) : Prop :=
  ∃ err, err ≠ .overflow ∧ e.inPlace s = (.error err, s)

theorem accepted_iff : e.Accepted s ↔ ¬ e.Misfits s ∧ ¬ e.Overflows s := by
  constructor
  · rintro ⟨t, ht⟩
    have hok := inPlace_eq_ok_iff.mp ht
    refine ⟨fun ⟨err, hmisfit⟩ => hmisfit.not_ok hok, fun hover => ?_⟩
    rw [apply_eq_overflow_iff.mpr hover] at hok
    cases hok
  · rintro ⟨hfits, hcounts⟩
    cases happly : e.apply s with
    | ok t => exact ⟨t, inPlace_of_ok happly⟩
    | error err =>
        have hfault : err ≠ .overflow := fun heq =>
          hcounts (apply_eq_overflow_iff.mp (heq ▸ happly))
        exact absurd ⟨err, misfit_of_apply_eq_error happly hfault⟩ hfits

theorem refused_iff : e.Refused s ↔ e.Misfits s ∧ ¬ e.Overflows s := by
  constructor
  · rintro ⟨err, hfault, herr⟩
    have happly := (inPlace_eq_error_iff.mp herr).1
    refine ⟨⟨err, misfit_of_apply_eq_error happly hfault⟩, fun hover => hfault ?_⟩
    exact Except.error.inj (happly.symm.trans (apply_eq_overflow_iff.mpr hover))
  · rintro ⟨⟨err, hmisfit⟩, hcounts⟩
    cases happly : e.apply s with
    | ok t => exact absurd happly hmisfit.not_ok
    | error err' =>
        have hfault : err' ≠ .overflow := fun heq =>
          hcounts (apply_eq_overflow_iff.mp (heq ▸ happly))
        exact ⟨err', hfault, inPlace_of_error happly⟩

theorem FitsAlways.accepted (h : e.FitsAlways) (s : State) : e.Accepted s := by
  cases e with
  | loopSwitched loop active => exact ⟨_, inPlace_of_ok rfl⟩
  | askIssued target options => exact ⟨_, inPlace_of_ok rfl⟩
  | checked actor check passed => exact ⟨_, inPlace_of_ok rfl⟩
  | hinted message => exact ⟨_, inPlace_of_ok rfl⟩
  | diceRolled actor dice result => exact ⟨_, inPlace_of_ok rfl⟩
  | _ => exact h.elim

end Event

namespace State

/-- An event that is not taken leaves the whole state as it was, and some
events are always taken. All others are refused if something is wrong with them,
and taken if nothing is, unless one more is to be spent than can be counted. -/
theorem refused_iff_misfits_iff (s : State) (e : Event) :
    (∀ err t, e.inPlace s = (.error err, t) → t = s)
      ∧ (e.FitsAlways → e.Accepted s)
      ∧ (((e.Refused s ↔ e.Misfits s) ∧ (e.Accepted s ↔ ¬ e.Misfits s)) ↔ ¬ e.Overflows s) := by
  refine ⟨fun err t h => (Event.inPlace_eq_error_iff.mp h).2, fun h => h.accepted s, ?_⟩
  rw [Event.refused_iff, Event.accepted_iff]
  tauto

/-- The only hit point is spent already. Spending another is refused, and so is
setting hit points to less than what is spent. Luck has no limit. -/
theorem refused_iff_misfits_hero :
    let hero : Entity := { Entity.blank "hero" "Hero" with
      resources := .ofList [("hp", 1)], spent := .ofList [("hp", 1), ("luck", 1)] }
    let s := genesis [hero]
    (Event.spentAdded "hero" "hp").Refused s
      ∧ (Event.spentAdded "hero" "luck").Accepted s
      ∧ (Event.attributeChanged "hero" "Resources" "hp" (.int 0)).Refused s
      ∧ (Event.hinted "so it goes").Accepted s := by
  intro hero s
  have hhero : s.entities.get? "hero" = some hero := rfl
  have hcounts (key : String) (hfits : Fits ((hero.spent.get? key).getD 0 + 1)) :
      ¬ (Event.spentAdded "hero" key).Overflows s := by
    rintro ⟨actor, key', x, heq, hx, hsum⟩
    obtain ⟨rfl, rfl⟩ := Event.spentAdded.inj heq
    obtain rfl := Option.some.inj (hhero.symm.trans hx)
    exact hsum hfits
  have hused : (Event.spentAdded "hero" "hp").Misfits s :=
    ⟨_, .usedUp hhero rfl (by decide)⟩
  have hfree : ¬ (Event.spentAdded "hero" "luck").Misfits s := by
    rintro ⟨err, hmisfit⟩
    cases hmisfit with
    | noLoop hname _ => cases hname
    | noEntity hid hnone =>
        obtain rfl := Option.some.inj hid
        rw [hhero] at hnone
        cases hnone
    | usedUp hx hlimit _ =>
        obtain rfl := Option.some.inj (hhero.symm.trans hx)
        have hnone : hero.resources.get? "luck" = none := by decide
        rw [hnone] at hlimit
        cases hlimit
  have hbelow : (Event.attributeChanged "hero" "Resources" "hp" (.int 0)).Misfits s := by
    have hname : (Section.numbers .resources).name = "Resources".map Char.toLower := by
      decide +kernel
    exact ⟨_, .noUse hname hhero (.below rfl rfl (by decide))⟩
  have hset : ¬ (Event.attributeChanged "hero" "Resources" "hp" (.int 0)).Overflows s := by
    rintro ⟨actor, key, x, heq, -⟩
    cases heq
  refine ⟨?_, ?_, ?_, ?_⟩
  · exact ((refused_iff_misfits_iff s _).2.2.mpr (hcounts "hp" (by decide))).1.mpr hused
  · exact ((refused_iff_misfits_iff s _).2.2.mpr (hcounts "luck" (by decide))).2.mpr hfree
  · exact ((refused_iff_misfits_iff s _).2.2.mpr hset).1.mpr hbelow
  · exact (refused_iff_misfits_iff s _).2.1 trivial

/-- As much luck is spent as there is, which is the largest integer. More cannot
be spent, but the event is not refused for it. -/
theorem overspending_is_not_refused_at_largest :
    let hero : Entity := { Entity.blank "hero" "Hero" with
      resources := .ofList [("luck", maxInteger)], spent := .ofList [("luck", maxInteger)] }
    let spending : Event := .spentAdded "hero" "luck"
    hero.checkSpent = .ok () ∧ spending.Misfits (genesis [hero])
      ∧ ¬ spending.Refused (genesis [hero])
      ∧ spending.inPlace (genesis [hero]) = (.error .overflow, genesis [hero]) := by
  intro hero spending
  have hhero : (genesis [hero]).entities.get? "hero" = some hero := rfl
  have hover : spending.Overflows (genesis [hero]) :=
    ⟨"hero", "luck", hero, rfl, hhero, by decide⟩
  refine ⟨rfl, ⟨_, .usedUp hhero rfl (by decide)⟩, fun hrefused => ?_, ?_⟩
  · exact (Event.refused_iff.mp hrefused).2 hover
  · exact Event.inPlace_of_error (Event.apply_eq_overflow_iff.mpr hover)

end State

end GameTable
