import GameTable.Proofs.Formula.Evaluator
import GameTable.Proofs.Formula.Steps

/-!
# Where an evaluation is cut off

An evaluation counts the expressions it visits, and the visit that is one more
than the limit allows is refused before anything of it is evaluated. Nothing
that is evaluated asks how far the count is, and nothing recovers from a
failure. So a lower limit does nothing but end the evaluation earlier
(`CutOff`): as long as the evaluation under the higher limit stays within the
lower one the two are the same, and from the visit on at which it goes beyond
they part, the one with the error of its limit and the other with more rolls at
most.
-/

namespace GameTable

open Formula

variable {ρ : Type}

namespace Formula

/-- Never takes back a visit or a roll. -/
structure Grows {α : Type} (x : Eval ρ α) : Prop where
  steps : ∀ m, m.steps ≤ (x m).2.steps
  rolls : ∀ m, m.rolls <+: (x m).2.rolls

/-- On a machine within a limit, the first computation is the second one, cut
off at the visit at which that goes beyond the limit. -/
structure CutOff (limit : Nat) {α : Type} (x y : Eval ρ α) : Prop where
  grows : Grows y
  within : ∀ {m}, m.steps ≤ limit → (y m).2.steps ≤ limit → x m = y m
  beyond : ∀ {m}, m.steps ≤ limit → limit < (y m).2.steps →
    (x m).1 = .error (.stepLimit limit) ∧ (x m).2.steps = limit + 1
      ∧ (x m).2.rolls <+: (y m).2.rolls

variable {limit limit' : Nat}

/-- What does not count visits is not cut off. -/
theorem cutOff_of_uncounted {α : Type} {x : Eval ρ α} (hsteps : ∀ m, (x m).2.steps = m.steps)
    (hrolls : ∀ m, m.rolls <+: (x m).2.rolls) : CutOff limit x x where
  grows := ⟨fun m => Nat.le_of_eq (hsteps m).symm, hrolls⟩
  within _ _ := rfl
  beyond {m} hm hbeyond := absurd (hsteps m) (by omega)

theorem cutOff_tick (h : limit ≤ limit') :
    CutOff limit (tick limit : Eval ρ Unit) (tick limit') where
  grows := by
    constructor
    · intro m
      rw [tick_apply]
      exact Nat.le_succ _
    · intro m
      simp only [tick_apply, List.prefix_rfl]
  within {m} _ hwithin := by
    rw [tick_apply] at hwithin
    have hsteps : m.steps + 1 ≤ limit := hwithin
    rw [tick_of_lt hsteps, tick_of_lt (Nat.lt_of_lt_of_le hsteps h)]
  beyond {m} hm hbeyond := by
    rw [tick_apply limit'] at hbeyond ⊢
    have hsteps : limit ≤ m.steps := Nat.lt_succ_iff.mp hbeyond
    rw [tick_of_le hsteps, Nat.le_antisymm hm hsteps]
    exact ⟨rfl, rfl, List.prefix_rfl⟩

theorem cutOff_rollDice [Roller ρ] (dice : Value) :
    CutOff limit (rollDice dice : Eval ρ Value) (rollDice dice) := by
  refine cutOff_of_uncounted (steps_rollDice dice) fun m => ?_
  cases dice with
  | str s =>
      rcases hroll : Roller.roll m.roller s with ⟨err | total, r⟩
      · simp only [rollDice, hroll]
        exact List.prefix_rfl
      · simp only [rollDice, hroll]
        exact List.prefix_append ..
  | _ => exact List.prefix_rfl

/-- What goes beyond the limit in the first of two steps in a row is cut off
there; what goes beyond it in the second is the same until then. -/
theorem CutOff.bind {α β : Type} {x y : Eval ρ α} {next next' : α → Eval ρ β}
    (h : CutOff limit x y) (hnext : ∀ a, CutOff limit (next a) (next' a)) :
    CutOff limit (x >>= next) (y >>= next') := by
  have hgrows (m : Machine ρ) : (y m).2.steps ≤ ((y >>= next') m).2.steps
      ∧ (y m).2.rolls <+: ((y >>= next') m).2.rolls := by
    rcases hy : y m with ⟨err | a, t⟩
    · rw [run_bind_of_error hy]
      exact ⟨Nat.le_refl _, List.prefix_rfl⟩
    · rw [run_bind_of_ok hy]
      exact ⟨(hnext a).grows.steps t, (hnext a).grows.rolls t⟩
  constructor
  · exact ⟨fun m => Nat.le_trans (h.grows.steps m) (hgrows m).1,
      fun m => (h.grows.rolls m).trans (hgrows m).2⟩
  · intro m hm hwithin
    have hsteps : (y m).2.steps ≤ limit := Nat.le_trans (hgrows m).1 hwithin
    have hfirst := h.within hm hsteps
    rcases hy : y m with ⟨err | a, t⟩
    · rw [hy] at hfirst
      rw [run_bind_of_error hy, run_bind_of_error hfirst]
    · rw [hy] at hfirst hsteps
      rw [run_bind_of_ok hy] at hwithin ⊢
      rw [run_bind_of_ok hfirst]
      exact (hnext a).within hsteps hwithin
  · intro m hm hbeyond
    by_cases hsteps : (y m).2.steps ≤ limit
    · have hfirst := h.within hm hsteps
      rcases hy : y m with ⟨err | a, t⟩
      · rw [run_bind_of_error hy] at hbeyond
        rw [hy] at hsteps
        exact absurd hbeyond (Nat.not_lt.mpr hsteps)
      · rw [hy] at hfirst hsteps
        rw [run_bind_of_ok hy] at hbeyond ⊢
        rw [run_bind_of_ok hfirst]
        exact (hnext a).beyond hsteps hbeyond
    · obtain ⟨herror, hcount, hrolls⟩ := h.beyond hm (Nat.not_le.mp hsteps)
      rcases hx : x m with ⟨result, t⟩
      rw [hx] at herror hcount hrolls
      obtain rfl : result = .error (.stepLimit limit) := herror
      rw [run_bind_of_error hx]
      exact ⟨rfl, hcount, hrolls.trans (hgrows m).2⟩

variable [Roller ρ]

theorem closed_cutOff (h : limit ≤ limit') :
    Closed (ρ := ρ) (σ := ρ) (fun {_} x y => CutOff limit x y) limit limit' where
  outcome _ := cutOff_of_uncounted (fun _ => rfl) fun _ => List.prefix_rfl
  tick := cutOff_tick h
  rollDice := cutOff_rollDice
  bind := CutOff.bind

theorem cutOff_eval (h : limit ≤ limit') (locals : List (String × Value)) (context : Dict Value)
    (e : Expr) :
    CutOff limit (eval ⟨locals, context, limit⟩ e : Eval ρ Value)
      (eval ⟨locals, context, limit'⟩ e) :=
  (closed_cutOff h).inStep e ⟨rfl, rfl, fun _ _ => rfl⟩

end Formula

namespace Evaluator

variable [Roller ρ]

/-- The evaluator with another limit. -/
def limitedTo (ev : Evaluator ρ) (limit : Nat) : Evaluator ρ := { ev with stepLimit := limit }

/-- How many expressions a run visits, the refused one included if there is one. -/
def visits (ev : Evaluator ρ) (program : Program) (context : Dict Value) : Nat :=
  (eval ⟨[], context, ev.stepLimit⟩ program.expr ⟨ev.roller, [], 0⟩).2.steps

/-- A run has as many visits as its limit allows at most, or fails for it at the
next one. -/
theorem visits_le (ev : Evaluator ρ) (program : Program) (context : Dict Value) :
    ev.visits program context ≤ ev.stepLimit
      ∨ ev.visits program context = ev.stepLimit + 1
        ∧ (ev.run program context).1.result = .error (.stepLimit ev.stepLimit) := by
  have hcut :
      CutOff ev.stepLimit (eval ⟨[], context, ev.stepLimit⟩ program.expr : Eval ρ Value) _ :=
    cutOff_eval (Nat.le_refl _) [] context program.expr
  rcases Nat.lt_or_ge ev.stepLimit (ev.visits program context) with hbeyond | hwithin
  · obtain ⟨herror, hsteps, -⟩ := hcut.beyond (Nat.zero_le _) hbeyond
    exact .inr ⟨hsteps, herror⟩
  · exact .inl hwithin

/-- Under the lower of two limits a run is the run under the higher one, with
the same result and rolls and the same roller left, if that has no more visits
than the lower limit allows. If it has, the run fails for the lower limit after
some of the same rolls. Whatever its limit is, a run has no more visits than it
allows, but for one that ends the run; and that one evaluates nothing. -/
theorem run_of_lower_limit {limit limit' : Nat} (h : limit ≤ limit') (ev : Evaluator ρ)
    (program : Program) (context : Dict Value) :
    let lower := (ev.limitedTo limit).run program context
    let higher := (ev.limitedTo limit').run program context
    ((ev.limitedTo limit').visits program context ≤ limit
          ∧ lower.1 = higher.1 ∧ lower.2.roller = higher.2.roller
        ∨ limit < (ev.limitedTo limit').visits program context
          ∧ lower.1.result = .error (.stepLimit limit) ∧ lower.1.rolls <+: higher.1.rolls)
      ∧ ((ev.limitedTo limit).visits program context ≤ limit
        ∨ (ev.limitedTo limit).visits program context = limit + 1
          ∧ lower.1.result = .error (.stepLimit limit))
      ∧ ∀ (locals : List (String × Value)) (e : Expr) (m : Machine ρ), limit ≤ m.steps →
        eval ⟨locals, context, limit⟩ e m
          = (.error (.stepLimit limit), { m with steps := m.steps + 1 }) := by
  intro lower higher
  refine ⟨?_, visits_le .., fun locals e m hm => eval_of_le hm e⟩
  have hcut := cutOff_eval (ρ := ρ) h [] context program.expr
  rcases Nat.lt_or_ge limit ((ev.limitedTo limit').visits program context) with hbeyond | hwithin
  · obtain ⟨herror, -, hrolls⟩ := hcut.beyond (Nat.zero_le _) hbeyond
    exact .inr ⟨hbeyond, herror, hrolls⟩
  · have hsame := hcut.within (Nat.zero_le _) hwithin
    have hlower : lower = (⟨_, _⟩, _) := @run_of_eval _ _ (ev.limitedTo limit) _ _ _ _ hsame
    rw [hlower]
    exact .inl ⟨hwithin, rfl, rfl⟩

/-- A sum of two rolls takes five visits. A limit of five lets it pass as any
higher one does, and a limit of three ends it after the first roll. -/
theorem run_of_lower_limit_two_rolls :
    let ev : Evaluator DiceCup := .new (.scripted [3, 4]) defaultStepLimit
    let program : Program := ⟨"roll('1d6') + roll('1d8')", .binary .add
      (.call "roll" [.literal (.str "1d6")]) (.call "roll" [.literal (.str "1d8")])⟩
    ((ev.limitedTo 5).run program ∅).1 = (ev.run program ∅).1
      ∧ (ev.run program ∅).1.result = .ok (.int 7)
      ∧ (ev.run program ∅).1.rolls = [("1d6", 3), ("1d8", 4)]
      ∧ ((ev.limitedTo 3).run program ∅).1.result = .error (.stepLimit 3)
      ∧ ((ev.limitedTo 3).run program ∅).1.rolls = [("1d6", 3)] := by
  intro ev program
  have hvisits : (ev.limitedTo 10000).visits program ∅ = 5 := by decide +kernel
  have hfive := (run_of_lower_limit (by decide : 5 ≤ 10000) ev program ∅).1
  have hthree := (run_of_lower_limit (by decide : 3 ≤ 10000) ev program ∅).1
  rw [hvisits] at hfive hthree
  refine ⟨?_, by rfl, by decide +kernel, ?_, by decide +kernel⟩
  · exact (hfive.resolve_right fun h => absurd h.1 (by decide)).2.1
  · exact (hthree.resolve_left fun h => absurd h.1 (by decide)).2.1

end Evaluator

end GameTable
