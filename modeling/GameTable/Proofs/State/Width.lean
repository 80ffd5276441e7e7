import GameTable.Proofs.State.Budget
import GameTable.View.Entity

/-!
# Sums of 64 bits

Every number of an entity fits 64 bits, in every state that events make of
sheets whose numbers do (`Narrow.of_actsOn`). What remains of a resource is
then a difference that fits as well, because nothing is overspent
(`InBudget.fits_remaining`).

Spending is the only sum that applying an event computes, and it is the one
that may not fit. A resource does not have to exist for something to be spent
of it, and what is spent may be set to any count, so it may stand at the
largest integer; one more is a fault then (`course_overflows_iff`).
-/

namespace GameTable

/-! ## Integers of documents -/

theorem fits_of_intOfFloat? {x : Float} {n : Int} (h : Value.intOfFloat? x = some n) : Fits n := by
  rw [Value.intOfFloat?] at h
  obtain ⟨m, -, h⟩ := Option.bind_eq_some_iff.mp h
  split at h
  · obtain rfl := Option.some.inj h
    exact fits_saturate m
  · cases h

theorem fits_of_readInteger {s : String} {n : Int} (h : Decimal.readInteger s = some n) :
    Fits n := by
  rw [Decimal.readInteger, Option.filter_eq_some_iff] at h
  exact of_decide_eq_true h.2

/-- The integer that a document stands for fits 64 bits. -/
theorem fits_of_toInt?_ofJson {j : Json} {n : Int} (h : (Value.ofJson j).toInt? = some n) :
    Fits n := by
  cases j with
  | null => cases h
  | bool b => cases h
  | arr items => cases h
  | obj members => cases h
  | float x => exact fits_of_intOfFloat? h
  | str s => exact fits_of_readInteger h
  | int m =>
      rw [Value.ofJson] at h
      split at h
      · rename_i hm
        obtain rfl := Option.some.inj h
        exact hm
      · exact fits_of_intOfFloat? h

namespace Entity

/-- Every number of the entity is one of 64 bits. -/
def Narrow (e : Entity) : Prop :=
  ∀ (sec : NumberSection) (key : String) (n : Int), (e.numbers sec).get? key = some n → Fits n

/-- Whether every number is of 64 bits is seen from the entries that there are. -/
theorem narrow_iff {x : Entity} :
    x.Narrow ↔ ∀ sec ∈ [.stats, .resources, .spent, .proficiencies, .inventory],
      ∀ e ∈ (x.numbers sec).toList, Fits e.2 := by
  constructor
  · intro h sec _ e he
    exact h sec e.1 e.2 (Dict.mem_toList_iff.mp he)
  · intro h sec key n hn
    have hsec : sec ∈ [.stats, .resources, .spent, .proficiencies, .inventory] := by
      cases sec <;> decide
    exact h sec hsec (key, n) (Dict.mem_toList_iff.mpr hn)

instance (x : Entity) : Decidable x.Narrow := decidable_of_iff _ narrow_iff.symm

theorem fits_of_numberOf {sec : NumberSection} {key : String} {value : Json} {n : Int}
    (h : numberOf sec key value = .ok (some n)) : Fits n := by
  unfold numberOf at h
  split at h
  · cases h
  · split at h
    · rename_i m hm
      obtain rfl := Option.some.inj (Except.ok.inj h)
      exact fits_of_toInt?_ofJson hm
    · cases h

/-! ## What events make of numbers -/

theorem numbers_setNumbers (x : Entity) (d : Dict Int) (sec sec' : NumberSection) :
    (x.setNumbers d sec).numbers sec' = if sec = sec' then d else x.numbers sec' := by
  cases sec <;> cases sec' <;> rfl

theorem numbers_setTexts (x : Entity) (d : Dict String) (sec : TextSection)
    (sec' : NumberSection) : (x.setTexts d sec).numbers sec' = x.numbers sec' := by
  cases sec <;> cases sec' <;> rfl

theorem Narrow.setNumbers {x : Entity} (hx : x.Narrow) {d : Dict Int} {sec : NumberSection}
    (hd : ∀ key n, d.get? key = some n → Fits n) : (x.setNumbers d sec).Narrow := by
  intro sec' key n hn
  rw [numbers_setNumbers] at hn
  split at hn
  · exact hd key n hn
  · exact hx sec' key n hn

/-- A number that is set is one that was read, and so is the sum of spending. -/
theorem Becomes.narrow {e : Event} {x y : Entity} (h : Becomes e x y) (hx : x.Narrow)
    (hsum : ∀ actor key, e = .spentAdded actor key → Fits ((x.spent.get? key).getD 0 + 1)) :
    y.Narrow := by
  cases h with
  | @entry _ _ _ _ sec _ _ _ hy =>
      cases sec with
      | numbers sec =>
          obtain ⟨number, hnumber, -, rfl⟩ := changeEntry_numbers.mp hy
          refine hx.setNumbers fun q n hn => ?_
          rw [get?_putEntry] at hn
          split at hn
          · exact fits_of_numberOf (hn ▸ hnumber)
          · exact hx sec q n hn
      | texts sec =>
          obtain ⟨text, -, rfl⟩ := changeEntry_texts.mp hy
          intro sec' q n hn
          rw [numbers_setTexts] at hn
          exact hx sec' q n hn
  | @spending actor key _ _ hy =>
      obtain ⟨-, rfl⟩ := spendOne_eq_ok_iff.mp hy
      change (x.setNumbers (x.spent.insert key ((x.spent.get? key).getD 0 + 1)) .spent).Narrow
      refine hx.setNumbers fun q n hn => ?_
      rw [Dict.get?_insert] at hn
      split at hn
      · exact Option.some.inj hn ▸ hsum actor key rfl
      · exact hx .spent q n hn
  | @condition _ condition add _ =>
      obtain ⟨conditions, heq⟩ := x.condition_eq condition add
      rw [heq]
      intro sec q n hn
      exact hx sec q n (by cases sec <;> exact hn)

/-! ## Differences -/

theorem InBudget.fits_remaining {x : Entity} (h : x.InBudget) (hx : x.Narrow) (key : String) :
    Fits (x.remaining key) := by
  have hlimit : ∀ limit, x.resources.get? key = some limit → Fits limit := hx .resources key
  have hspent : ∀ spent, x.spent.get? key = some spent → Fits spent := hx .spent key
  rw [remaining]
  cases hr : x.resources.get? key with
  | none =>
      cases hs : x.spent.get? key with
      | none => decide
      | some spent =>
          have hfit := hspent spent hs
          have hnonneg := h.nonneg hs
          simp only [Option.getD_none, Option.getD_some, Fits, minInteger, maxInteger] at hfit ⊢
          omega
  | some limit =>
      have hfit := hlimit limit hr
      cases hs : x.spent.get? key with
      | none => simpa using hfit
      | some spent =>
          have hnonneg := h.nonneg hs
          have hwithin := h.within hs hr
          simp only [Option.getD_some, Fits, minInteger, maxInteger] at hfit ⊢
          omega

theorem InBudget.fits_actionsRemaining {x : Entity} (h : x.InBudget) (hx : x.Narrow) :
    Fits x.actionsRemaining := by
  rw [actionsRemaining]
  split
  · exact h.fits_remaining hx "actions"
  · decide

/-- One more fits unless it is one more than the largest integer. -/
theorem InBudget.fits_sum_iff {x : Entity} (h : x.InBudget) (hx : x.Narrow) (key : String) :
    Fits ((x.spent.get? key).getD 0 + 1) ↔ x.spent.get? key ≠ some maxInteger := by
  cases hs : x.spent.get? key with
  | none => decide
  | some spent =>
      have hfit := hx .spent key spent hs
      have hnonneg := h.nonneg hs
      rw [Option.getD_some, ne_eq, Option.some.injEq]
      simp only [Fits, minInteger, maxInteger] at hfit ⊢
      omega

/-! ## Faults

A fault is not among the reasons for which an event is refused; it comes from
the sum of spending and from nothing else. -/

theorem checkSpentEntry_ne_overflow (x : Entity) (key : String) (spent : Int) :
    x.checkSpentEntry key spent ≠ .error .overflow := by
  rw [checkSpentEntry]
  split
  · simp
  · split
    · split <;> simp
    · simp

theorem checkSpent_ne_overflow (x : Entity) : x.checkSpent ≠ .error .overflow := by
  intro h
  obtain ⟨⟨key, spent⟩, -, hentry⟩ := exists_of_forM_eq_error h
  exact x.checkSpentEntry_ne_overflow key spent hentry

theorem checkNumber_ne_overflow (x : Entity) (sec : NumberSection) (key : String) (n : Int) :
    x.checkNumber sec key n ≠ .error .overflow := by
  unfold checkNumber
  by_cases hneg : (countsUp sec && decide (n < 0)) = true
  · rw [if_pos hneg]
    simp
  · rw [if_neg hneg]
    dsimp only
    split
    · split
      · simp
      · simp
    · simp

theorem numberOf_ne_overflow (sec : NumberSection) (key : String) (value : Json) :
    numberOf sec key value ≠ .error .overflow := by
  unfold numberOf
  split
  · simp
  · split <;> simp

theorem textOf_ne_overflow (sec : TextSection) (key : String) (value : Json) :
    textOf sec key value ≠ .error .overflow := by
  cases value <;> simp [textOf]

theorem changeEntry_ne_overflow (x : Entity) (sec : Section) (key : String) (value : Json) :
    x.changeEntry sec key value ≠ .error .overflow := by
  intro h
  cases sec with
  | numbers sec =>
      rw [changeEntry] at h
      rcases bind_eq_error h with hread | ⟨number, hread, hset⟩
      · exact numberOf_ne_overflow sec key value hread
      · cases number with
        | none => cases hset
        | some n =>
            rcases bind_eq_error hset with hcheck | ⟨u, hcheck, hdone⟩
            · exact x.checkNumber_ne_overflow sec key n hcheck
            · cases hdone
  | texts sec =>
      rw [changeEntry] at h
      rcases bind_eq_error h with hread | ⟨text, hread, hset⟩
      · exact textOf_ne_overflow sec key value hread
      · cases hset

theorem spendFitting_eq_overflow_iff {actor key : String} {x : Entity} :
    x.spendFitting actor key = .error .overflow ↔ ¬ Fits ((x.spent.get? key).getD 0 + 1) := by
  rw [spendFitting]
  split
  · rename_i hfits
    rw [spendOne]
    cases x.resources.get? key with
    | none => simp [hfits]
    | some limit =>
        by_cases h : limit < (x.spent.get? key).getD 0 + 1
        · simp [h, hfits]
        · simp [h, hfits]
  · simp [*]

end Entity

theorem State.updateLoop_eq_error {s : State} {name : String} {f : Loop → Loop}
    {err : ApplyError} (h : s.updateLoop name f = .error err) :
    s.loops.get? name = none ∧ err = .unknownLoop name := by
  rw [updateLoop, loop] at h
  split at h
  · cases h
  · rename_i hnone
    exact ⟨hnone, (Except.error.inj h).symm⟩

theorem State.updateLoop_ne_overflow (s : State) (name : String) (f : Loop → Loop) :
    s.updateLoop name f ≠ .error .overflow := by
  intro h
  cases (updateLoop_eq_error h).2

theorem State.updateEntity_eq_error {s : State} {id : String}
    {f : Entity → Except ApplyError Entity} {err : ApplyError}
    (h : s.updateEntity id f = .error err) :
    s.entities.get? id = none ∧ err = .unknownEntity id
      ∨ ∃ x, s.entities.get? id = some x ∧ f x = .error err := by
  rw [updateEntity, entity] at h
  split at h
  · rename_i x hx
    change (f x >>= fun y => pure (s.setEntity id y)) = _ at h
    rcases bind_eq_error h with hf | ⟨y, hf, hset⟩
    · exact .inr ⟨x, hx, hf⟩
    · cases hset
  · rename_i hnone
    exact .inl ⟨hnone, (Except.error.inj h).symm⟩

theorem State.updateEntity_eq_overflow {s : State} {id : String}
    {f : Entity → Except ApplyError Entity} (h : s.updateEntity id f = .error .overflow) :
    ∃ x, s.entities.get? id = some x ∧ f x = .error .overflow := by
  rcases updateEntity_eq_error h with ⟨-, heq⟩ | hx
  · cases heq
  · exact hx

namespace Event

/-- Every integer that the event carries is one of 64 bits. An integer inside a
document may also be one without a sign; it is checked when it is used. -/
def Narrow : Event → Prop
  | .loopOrder _ _ value => Fits value
  | .entityAdded x => x.Narrow
  | .diceRolled _ _ result => Fits result
  | _ => True

theorem apply_eq_overflow_iff {e : Event} {s : State} :
    e.apply s = .error .overflow
      ↔ ∃ actor key x, e = .spentAdded actor key ∧ s.entities.get? actor = some x
        ∧ ¬ Fits ((x.spent.get? key).getD 0 + 1) := by
  constructor
  · intro h
    cases e with
    | spentAdded actor key =>
        obtain ⟨x, hx, hsum⟩ := State.updateEntity_eq_overflow h
        exact ⟨actor, key, x, rfl, hx, Entity.spendFitting_eq_overflow_iff.mp hsum⟩
    | attributeChanged actor name key value =>
        rw [apply] at h
        split at h
        · cases h
        · rename_i sec _
          obtain ⟨x, -, hx⟩ := State.updateEntity_eq_overflow h
          exact absurd hx (x.changeEntry_ne_overflow sec key value)
    | conditionChanged actor condition add =>
        obtain ⟨x, -, hx⟩ := State.updateEntity_eq_overflow h
        cases hx
    | entityAdded x =>
        rw [apply, State.addEntity] at h
        split at h
        · cases h
        · dsimp only at h
          split at h
          · cases h
          · rcases bind_eq_error h with hspent | ⟨u, hspent, hset⟩
            · exact absurd hspent x.checkSpent_ne_overflow
            · cases hset
    | metadataChanged key value =>
        rw [apply] at h
        split at h <;> cases h
    | loopSwitched loop active => cases h
    | askIssued target options => cases h
    | hinted message => cases h
    | diceRolled actor dice result => cases h
    | checked actor check passed => cases h
    | loopDirection loop ascending => exact absurd h (s.updateLoop_ne_overflow loop _)
    | loopOrder loop actor value => exact absurd h (s.updateLoop_ne_overflow loop _)
    | actorAdded loop actor => exact absurd h (s.updateLoop_ne_overflow loop _)
    | loopAdvanced loop => exact absurd h (s.updateLoop_ne_overflow loop _)
  · rintro ⟨actor, key, x, rfl, hx, hsum⟩
    rw [apply, State.updateEntity, State.entity, hx]
    change x.spendFitting actor key >>= _ = _
    rw [Entity.spendFitting_eq_overflow_iff.mpr hsum]
    rfl

end Event

/-! ## The course of a game -/

namespace State

/-- Every number of every entity is one of 64 bits. -/
def Narrow (s : State) : Prop := ∀ id x, s.entities.get? id = some x → x.Narrow

theorem narrow_genesis {entities : List Entity} (h : ∀ x ∈ entities, x.Narrow) :
    (genesis entities).Narrow :=
  every_genesis h

theorem Narrow.setEntity {s : State} (hs : s.Narrow) {x : Entity} (hx : x.Narrow)
    (id : String) : (s.setEntity id x).Narrow :=
  Every.setEntity hs hx id

theorem Narrow.of_apply {e : Event} {s t : State} (hs : s.Narrow) (he : e.Narrow)
    (h : e.apply s = .ok t) : t.Narrow := by
  by_cases hspend : ∃ actor key, e = .spentAdded actor key
  · obtain ⟨actor, key, rfl⟩ := hspend
    obtain ⟨x, y, hx, hsum, hy, rfl⟩ := Event.apply_spentAdded.mp h
    refine hs.setEntity (Entity.Becomes.narrow (.spending hy) (hs actor x hx) ?_) actor
    rintro _ _ ⟨⟩
    exact hsum
  · cases Event.actsOn_of_applyExact (Event.applyExact_of_apply h) with
    | apart ht =>
        intro id x hx
        exact hs id x (ht ▸ hx)
    | enters _ _ => exact hs.setEntity he _
    | @changes _ id x y hx hy =>
        exact hs.setEntity (hy.narrow (hs id x hx) fun _ _ heq => (hspend ⟨_, _, heq⟩).elim) id

theorem Narrow.courseBy {s : State} (hs : s.Narrow) {events : List Event}
    (hevents : ∀ e ∈ events, e.Narrow) : (s.courseBy Event.apply events).Narrow :=
  courseBy_induction (fun e he _ _ hs ht => hs.of_apply (hevents e he) ht) hs

/-- Where sheets pass their check and every integer is one of 64 bits, whatever
events are applied: what remains of a resource, and the actions that remain,
are integers of 64 bits; applying one more event faults just if it spends of
something of which the largest integer is spent already. -/
theorem course_overflows_iff (entities : List Entity) (events : List Event)
    (hentities : ∀ x ∈ entities, x.checkSpent = .ok () ∧ x.Narrow)
    (hevents : ∀ e ∈ events, e.Narrow) :
    let s := (genesis entities).courseBy Event.apply events
    (∀ id x, s.entities.get? id = some x →
        (∀ key, Fits (x.remaining key)) ∧ Fits x.actionsRemaining
          ∧ ∀ key, Fits ((x.spent.get? key).getD 0 + 1) ↔ x.spent.get? key ≠ some maxInteger)
      ∧ ∀ e : Event, e.apply s = .error .overflow
          ↔ ∃ actor key x, e = .spentAdded actor key ∧ s.entities.get? actor = some x
            ∧ x.spent.get? key = some maxInteger := by
  intro s
  have hsound : s.Sound := (sound_genesis fun x hx => (hentities x hx).1).courseBy
    (fun _ _ _ => Event.applyExact_of_apply) events
  have hnarrow : s.Narrow := (narrow_genesis fun x hx => (hentities x hx).2).courseBy hevents
  have hsum : ∀ id x, s.entities.get? id = some x → ∀ key,
      Fits ((x.spent.get? key).getD 0 + 1) ↔ x.spent.get? key ≠ some maxInteger :=
    fun id x hx key => (hsound id x hx).2.fits_sum_iff (hnarrow id x hx) key
  refine ⟨fun id x hx => ?_, fun e => ?_⟩
  · have hbudget := (hsound id x hx).2
    exact ⟨hbudget.fits_remaining (hnarrow id x hx),
      hbudget.fits_actionsRemaining (hnarrow id x hx), hsum id x hx⟩
  · rw [Event.apply_eq_overflow_iff]
    refine exists₃_congr fun actor key x => and_congr_right fun _ => and_congr_right fun hx => ?_
    rw [hsum actor x hx key, Decidable.not_not]

/-- Luck has no limit, and one more of it can be spent. The next two faults are
passed over, and spending anything else is not one. -/
theorem course_overflows_at_largest :
    let hero : Entity :=
      { Entity.blank "hero" "Hero" with spent := .ofList [("luck", maxInteger - 1)] }
    let s := (genesis [hero]).courseBy Event.apply (List.replicate 3 (.spentAdded "hero" "luck"))
    ∃ x, s.entities.get? "hero" = some x ∧ x.spent.get? "luck" = some maxInteger
      ∧ Fits (x.remaining "luck")
      ∧ (Event.spentAdded "hero" "luck").apply s = .error .overflow
      ∧ (Event.spentAdded "hero" "rage").apply s ≠ .error .overflow := by
  intro hero s
  have hspent : ∀ key n, hero.spent.get? key = some n → n = maxInteger - 1 := by
    intro key n h
    have hmem := Dict.mem_of_get?_ofList h
    exact (Prod.mk.inj (List.mem_singleton.mp hmem)).2
  have hhero : hero.checkSpent = .ok () ∧ hero.Narrow := by
    refine ⟨rfl, fun sec key n h => ?_⟩
    cases sec with
    | spent => exact hspent key n h ▸ by decide
    | _ => cases h
  have hs : s.entities.get? "hero"
      = some { hero with spent := .ofList [("luck", maxInteger)] } := by
    decide +kernel
  obtain ⟨hfits, hfaults⟩ := course_overflows_iff [hero]
    (List.replicate 3 (.spentAdded "hero" "luck"))
    (fun x hx => List.mem_singleton.mp hx ▸ hhero)
    (fun e he => (List.eq_of_mem_replicate he) ▸ trivial)
  refine ⟨_, hs, rfl, (hfits "hero" _ hs).1 "luck", ?_, ?_⟩
  · exact (hfaults _).mpr ⟨"hero", "luck", _, rfl, hs, rfl⟩
  · intro h
    obtain ⟨actor, key, x, heq, hx, hlargest⟩ := (hfaults _).mp h
    obtain ⟨rfl, rfl⟩ := Event.spentAdded.inj heq
    obtain rfl := Option.some.inj (hs.symm.trans hx)
    exact absurd hlargest (by decide +kernel)

/-- What is spent of anything may be set to the largest integer. Spending one
more is a sum that no integer of 64 bits is. -/
theorem spending_overflows :
    let hero := Entity.blank "hero" "Hero"
    let full : Entity := { hero with spent := .ofList [("luck", maxInteger)] }
    hero.checkSpent = .ok ()
      ∧ (Event.attributeChanged "hero" "spent" "luck" (.int maxInteger)).apply (genesis [hero])
        = .ok (genesis [full])
      ∧ ¬ Fits ((full.spent.get? "luck").getD 0 + 1)
      ∧ (Event.spentAdded "hero" "luck").apply (genesis [full]) = .error .overflow := by
  intro hero full
  have hsec : Section.named? "spent" = some (.numbers .spent) := by decide +kernel
  refine ⟨rfl, ?_, by decide, rfl⟩
  have hset : hero.changeEntry (.numbers .spent) "luck" (.int maxInteger) = .ok full := by
    refine Entity.changeEntry_numbers.mpr ⟨some maxInteger, rfl, fun n hn => ?_, rfl⟩
    obtain rfl := Option.some.inj hn
    rfl
  rw [Event.apply, hsec]
  exact updateEntity_eq_ok_iff.mpr ⟨hero, full, rfl, hset, by decide +kernel⟩

end State

end GameTable
