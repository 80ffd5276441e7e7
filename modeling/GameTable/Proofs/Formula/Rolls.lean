import GameTable.Proofs.Formula.Evaluation

/-!
# The rolls of an evaluation

What holds of a visit, of a roll, and of whatever leaves the machine alone, and
is kept by sequencing, holds of every evaluation (`Closed.inStep`).

The roller is used nowhere but in rolls. Which calls are made on it is noted by
a roller that is watched (`Watched`): it answers as the roller does, and keeps a
list. An evaluation on a watched roller is the evaluation on the roller itself,
and what it records are the calls on the list that were answered with a total,
in that order (`noted_eval`). A call that is refused is the last one, and its
error is the result.

`Rolled r rolls r'` says that rolling the dice in `rolls` one after the other
gives the totals in it and takes the roller from `r` to `r'`. It is what calls
come to of which none was refused.
-/

namespace GameTable.Formula

variable {ρ σ : Type}

/-! ## What holds of every evaluation -/

/-- A relation between computations that holds of a visit, of a roll, and of
what leaves the machine alone, and that sequencing keeps. -/
structure Closed [Roller ρ] [Roller σ] (R : ∀ {α : Type}, Eval ρ α → Eval σ α → Prop)
    (limit limit' : Nat) : Prop where
  outcome : ∀ {α : Type} (r : Outcome α), R (outcome r : Eval ρ α) (outcome r : Eval σ α)
  tick : R (tick limit : Eval ρ Unit) (tick limit' : Eval σ Unit)
  rollDice : ∀ dice, R (rollDice dice : Eval ρ Value) (rollDice dice : Eval σ Value)
  bind : ∀ {α β : Type} {x : Eval ρ α} {y : Eval σ α} {next : α → Eval ρ β} {next' : α → Eval σ β},
    R x y → (∀ a, R (next a) (next' a)) → R (x >>= next) (y >>= next')

theorem Closed.inStep [Roller ρ] [Roller σ] {R : ∀ {α : Type}, Eval ρ α → Eval σ α → Prop}
    {limit limit' : Nat} (h : Closed R limit limit') (e : Expr) : InStep R limit limit' e :=
  Sequenced.inStep ⟨fun _ => h.outcome _, h.tick, h.bind⟩ e ⟨.inr h.outcome, fun _ => h.rollDice⟩

theorem tick_apply (limit : Nat) (m : Machine ρ) :
    tick limit m = (if m.steps + 1 > limit then .error (.stepLimit limit) else .ok (),
      { m with steps := m.steps + 1 }) := by
  change (if m.steps + 1 > limit then throw (.stepLimit limit) else pure () : Eval ρ Unit)
    { m with steps := m.steps + 1 } = _
  split
  · rfl
  · rfl

theorem tick_of_lt {limit : Nat} {m : Machine ρ} (h : m.steps < limit) :
    tick limit m = (.ok (), { m with steps := m.steps + 1 }) := by
  rw [tick_apply, if_neg (by omega)]

theorem tick_of_le {limit : Nat} {m : Machine ρ} (h : limit ≤ m.steps) :
    tick limit m = (.error (.stepLimit limit), { m with steps := m.steps + 1 }) := by
  rw [tick_apply, if_pos (by omega)]

/-- Rolling dice is no visit. -/
theorem steps_rollDice [Roller ρ] (dice : Value) (m : Machine ρ) :
    (rollDice dice m).2.steps = m.steps := by
  cases dice with
  | str s =>
      rcases hroll : Roller.roll m.roller s with ⟨err | total, r⟩
      · simp only [rollDice, hroll]
      · simp only [rollDice, hroll]
  | _ => rfl

/-! ## Calls on a roller -/

/-- A call on a roller: the dice, and what was answered. -/
abbrev Call := String × Except DiceError Int

/-- The rolls among some calls: those that were answered with a total. -/
def rollsOf (calls : List Call) : List RollRecord :=
  calls.filterMap fun (dice, answer) => answer.toOption.map (dice, ·)

theorem rollsOf_append (calls more : List Call) :
    rollsOf (calls ++ more) = rollsOf calls ++ rollsOf more := List.filterMap_append

/-- No call is refused, or the last one is, and its error is the result. -/
def Concludes {α : Type} (calls : List Call) (result : Outcome α) : Prop :=
  (∀ call ∈ calls, call.2.isOk) ∨ ∃ before dice err, calls = before ++ [(dice, .error err)]
    ∧ (∀ call ∈ before, call.2.isOk) ∧ result = .error (.dice err)

theorem concludes_nil {α : Type} (result : Outcome α) : Concludes [] result := .inl nofun

theorem Concludes.append {α : Type} {calls more : List Call} {result : Outcome α}
    (h : ∀ call ∈ calls, call.2.isOk) (hmore : Concludes more result) :
    Concludes (calls ++ more) result := by
  rcases hmore with hok | ⟨before, dice, err, rfl, hbefore, hresult⟩
  · exact .inl (List.forall_mem_append.mpr ⟨h, hok⟩)
  · exact .inr ⟨calls ++ before, dice, err, (List.append_assoc ..).symm,
      List.forall_mem_append.mpr ⟨h, hbefore⟩, hresult⟩

section Calls

variable [Roller ρ]

/-- Making the calls one after the other, each with the given answer, takes the
roller from one state to the other. -/
inductive Called : ρ → List Call → ρ → Prop where
  | nil (r : ρ) : Called r [] r
  | cons {r r' r'' : ρ} {dice : String} {answer : Except DiceError Int} {calls : List Call} :
      Roller.roll r dice = (answer, r') → Called r' calls r'' →
      Called r ((dice, answer) :: calls) r''

theorem Called.append {r r' r'' : ρ} {calls more : List Call} (h : Called r calls r')
    (h' : Called r' more r'') : Called r (calls ++ more) r'' := by
  induction h with
  | nil => exact h'
  | cons hroll _ ih => exact .cons hroll (ih h')

theorem called_singleton {r r' : ρ} {dice : String} {answer : Except DiceError Int} :
    Called r [(dice, answer)] r' ↔ Roller.roll r dice = (answer, r') := by
  refine ⟨fun h => ?_, fun h => .cons h (.nil r')⟩
  obtain _ | ⟨hroll, _ | _⟩ := h
  exact hroll

theorem called_append {r r'' : ρ} {calls more : List Call} :
    Called r (calls ++ more) r'' ↔ ∃ r', Called r calls r' ∧ Called r' more r'' := by
  refine ⟨fun h => ?_, fun ⟨_, hcalls, hmore⟩ => hcalls.append hmore⟩
  induction calls generalizing r with
  | nil => exact ⟨r, .nil r, h⟩
  | cons call calls ih =>
      obtain _ | ⟨hroll, hrest⟩ := h
      obtain ⟨r', hcalls, hmore⟩ := ih hrest
      exact ⟨r', .cons hroll hcalls, hmore⟩

/-- Rolling the dice one after the other, each with the given total, takes the
roller from one state to the other. -/
inductive Rolled : ρ → List RollRecord → ρ → Prop where
  | nil (r : ρ) : Rolled r [] r
  | cons {r r' r'' : ρ} {dice : String} {total : Int} {rolls : List RollRecord} :
      Roller.roll r dice = (.ok total, r') → Rolled r' rolls r'' →
      Rolled r ((dice, total) :: rolls) r''

theorem Rolled.append {r r' r'' : ρ} {xs ys : List RollRecord} (h : Rolled r xs r')
    (h' : Rolled r' ys r'') : Rolled r (xs ++ ys) r'' := by
  induction h with
  | nil => exact h'
  | cons hroll _ ih => exact .cons hroll (ih h')

/-- Calls of which none was refused are rolls. -/
theorem Called.rolled {r r' : ρ} {calls : List Call} (h : Called r calls r')
    (hok : ∀ call ∈ calls, call.2.isOk) : Rolled r (rollsOf calls) r' := by
  induction h with
  | nil r => exact .nil r
  | @cons _ _ _ dice answer calls hroll _ ih =>
      rw [List.forall_mem_cons] at hok
      cases answer with
      | error err => cases hok.1
      | ok total => exact .cons hroll (ih hok.2)

end Calls

/-! ## Watching a roller -/

/-- A roller that notes the calls made on it. -/
structure Watched (ρ : Type) where
  roller : ρ
  calls : List Call

instance [Roller ρ] : Roller (Watched ρ) where
  roll w dice :=
    let (answer, roller) := Roller.roll w.roller dice
    (answer, ⟨roller, w.calls ++ [(dice, answer)]⟩)

/-- A machine with the roller itself in place of the watched one. -/
def Machine.unwatched (m : Machine (Watched ρ)) : Machine ρ := ⟨m.roller.roller, m.rolls, m.steps⟩

/-- A computation on a watched roller is the same as on the roller itself. What
it adds to the record are the rolls among the calls that are noted, and these
take the roller to its new state. -/
structure Noted [Roller ρ] {α : Type} (x : Eval (Watched ρ) α) (y : Eval ρ α) : Prop where
  same : ∀ m, y m.unwatched = ((x m).1, (x m).2.unwatched)
  calls : ∀ m, ∃ calls, (x m).2.roller.calls = m.roller.calls ++ calls
    ∧ (x m).2.rolls = m.rolls ++ rollsOf calls
    ∧ Called m.roller.roller calls (x m).2.roller.roller
    ∧ Concludes calls (x m).1

section Watching

variable [Roller ρ]

theorem noted_of_still {α : Type} {x : Eval (Watched ρ) α} {y : Eval ρ α}
    (hsame : ∀ m, y m.unwatched = ((x m).1, (x m).2.unwatched))
    (hstill : ∀ m, (x m).2.roller = m.roller ∧ (x m).2.rolls = m.rolls) : Noted x y where
  same := hsame
  calls m := by
    obtain ⟨hroller, hrolls⟩ := hstill m
    refine ⟨[], ?_, ?_, ?_, concludes_nil _⟩
    · rw [hroller, List.append_nil]
    · rw [hrolls]
      exact (List.append_nil _).symm
    · rw [hroller]
      exact .nil _

theorem noted_tick (limit : Nat) : Noted (tick limit) (tick limit : Eval ρ Unit) := by
  apply noted_of_still
  · intro m
    rw [tick_apply, tick_apply]
    rfl
  · intro m
    rw [tick_apply]
    exact ⟨rfl, rfl⟩

theorem noted_rollDice (dice : Value) : Noted (rollDice dice) (rollDice dice : Eval ρ Value) := by
  cases dice with
  | str s =>
      refine ⟨fun m => ?_, fun m => ?_⟩
      · rcases hroll : Roller.roll m.roller.roller s with ⟨err | total, r⟩
        · simp [rollDice, Machine.unwatched, Roller.roll, hroll]
        · simp [rollDice, Machine.unwatched, Roller.roll, hroll]
      · rcases hroll : Roller.roll m.roller.roller s with ⟨err | total, r⟩
        · simp only [rollDice, Roller.roll, hroll]
          exact ⟨[(s, .error err)], rfl, (List.append_nil _).symm, called_singleton.mpr hroll,
            .inr ⟨[], s, err, rfl, nofun, rfl⟩⟩
        · simp only [rollDice, Roller.roll, hroll]
          exact ⟨[(s, .ok total)], rfl, rfl, called_singleton.mpr hroll,
            .inl (List.forall_mem_singleton.mpr rfl)⟩
  | _ => exact noted_of_still (fun _ => rfl) fun _ => ⟨rfl, rfl⟩

theorem Noted.bind {α β : Type} {x : Eval (Watched ρ) α} {y : Eval ρ α}
    {next : α → Eval (Watched ρ) β} {next' : α → Eval ρ β} (hx : Noted x y)
    (hnext : ∀ a, Noted (next a) (next' a)) : Noted (x >>= next) (y >>= next') := by
  have hboth (m : Machine (Watched ρ)) :
      (y >>= next') m.unwatched = (((x >>= next) m).1, ((x >>= next) m).2.unwatched)
        ∧ ∃ calls, ((x >>= next) m).2.roller.calls = m.roller.calls ++ calls
          ∧ ((x >>= next) m).2.rolls = m.rolls ++ rollsOf calls
          ∧ Called m.roller.roller calls ((x >>= next) m).2.roller.roller
          ∧ Concludes calls ((x >>= next) m).1 := by
    have hsame := hx.same m
    obtain ⟨calls, hcalls, hrolls, hcalled, hconcludes⟩ := hx.calls m
    rcases hfirst : x m with ⟨err | a, t⟩
    · rw [hfirst] at hsame hcalls hrolls hcalled hconcludes
      rw [run_bind_of_error hfirst, run_bind_of_error hsame]
      refine ⟨rfl, calls, hcalls, hrolls, hcalled, hconcludes.imp_right ?_⟩
      rintro ⟨before, dice, err', hlast, hbefore, herr⟩
      cases herr
      exact ⟨before, dice, err', hlast, hbefore, rfl⟩
    · rw [hfirst] at hsame hcalls hrolls hcalled hconcludes
      have hok : ∀ call ∈ calls, call.2.isOk := by
        obtain hok | ⟨_, _, _, _, _, herr⟩ := hconcludes
        · exact hok
        · cases herr
      rw [run_bind_of_ok hfirst, run_bind_of_ok hsame]
      obtain ⟨more, hcalls', hrolls', hcalled', hconcludes'⟩ := (hnext a).calls t
      refine ⟨(hnext a).same t, calls ++ more, ?_, ?_, hcalled.append hcalled',
        .append hok hconcludes'⟩
      · rw [hcalls', hcalls, List.append_assoc]
      · rw [hrolls', hrolls, rollsOf_append, List.append_assoc]
  exact ⟨fun m => (hboth m).1, fun m => (hboth m).2⟩

theorem closed_noted (limit : Nat) :
    Closed (ρ := Watched ρ) (σ := ρ) (fun {_} x y => Noted x y) limit limit where
  outcome _ := noted_of_still (fun _ => rfl) fun _ => ⟨rfl, rfl⟩
  tick := noted_tick limit
  rollDice := noted_rollDice
  bind := Noted.bind

theorem noted_eval (scope : Scope) (e : Expr) :
    Noted (eval scope e : Eval (Watched ρ) Value) (eval scope e) :=
  (closed_noted scope.limit).inStep e (Scope.Alike.refl _ scope)

end Watching

end GameTable.Formula
