import GameTable.Proofs.Formula.Steps
import GameTable.Proofs.Dict.Lookup
import Mathlib.Logic.ExistsUnique

/-!
# Comprehensions

A comprehension visits the items of its target one after the other and evaluates
its body at each (`Visits`). It visits as many as it has to (`Sweeps`): it ends
at the first item at which the body fails, or has a result that cannot be used
as a condition where one is needed, or settles the question of `exists` and
`all`. Of these visits, the dice that are rolled in them included, the result is
a function on lists (`Comprehension.answer`).

So `all` is `exists` with the body negated, and the answer negated again. The
negated one takes an additional step at each item and two around the whole, but
does nothing else: a machine that has counted more visits goes the same way, as
long as it stays within the limit (`Onward`).
-/

namespace GameTable.Formula

/-! ## The items and the visits -/

/-- What a comprehension runs over: the items of a list, the names in a map, and
nothing for null. -/
inductive Ranges : Value → List Value → Prop
  | list (items : List Value) : Ranges (.list items) items
  | map (entries : List (String × Value)) :
      Ranges (.map entries) (entries.map fun entry => .str entry.1)
  | null : Ranges .null []

theorem iterated_eq_ok_iff {v : Value} {items : List Value} :
    iterated v = .ok items ↔ Ranges v items := by
  constructor
  · intro h
    cases v <;> cases h <;> constructor
  · intro h
    cases h <;> rfl

theorem iterated_of_not_ranges {v : Value} (h : ∀ items, ¬ Ranges v items) :
    iterated v = .error (.type (.iteration v.typeName)) := by
  cases v with
  | list items => exact absurd (.list items) (h _)
  | map entries => exact absurd (.map entries) (h _)
  | null => exact absurd .null (h _)
  | _ => rfl

/-- The names in a map come in ascending order. -/
theorem Ranges.keys {entries : List (String × Value)} {items : List Value}
    (h : Ranges (.map entries) items) (hsorted : Entries.Sorted entries) :
    ∃ keys : List String, items = keys.map .str ∧ keys.Pairwise (· < ·)
      ∧ ∀ key, key ∈ keys ↔ ∃ value, Entries.get? entries key = some value := by
  cases h
  refine ⟨entries.map Prod.fst, by simp, List.pairwise_map.mpr hsorted, fun key => ?_⟩
  simp [← Entries.mem_iff_get? hsorted]

variable {ρ : Type}

/-- An item, and what the body came to there. -/
abbrev Visit := Value × Outcome Value

/-- The body comes to these results at these items, one after the other, and
takes the machine from one state to the other. -/
inductive Visits (body : Value → Eval ρ Value) : Machine ρ → List Visit → Machine ρ → Prop
  | nil (m : Machine ρ) : Visits body m [] m
  | cons {m t u : Machine ρ} {item : Value} {result : Outcome Value} {visited : List Visit} :
      body item m = (result, t) → Visits body t visited u →
      Visits body m ((item, result) :: visited) u

namespace Comprehension

/-- The failure that a result of the body is to a comprehension. But for `map`
it has to be a condition, true or false or null. -/
def failure? (kind : Comprehension) : Outcome Value → Option FormulaError
  | .error err => some err
  | .ok (.bool _) | .ok .null => none
  | .ok v => if kind = .map then none else some (.type (.condition kind.name v.typeName))

/-- The results after which nothing else is visited. -/
def Ends (kind : Comprehension) (result : Outcome Value) : Prop :=
  (kind.failure? result).isSome
    ∨ kind = .any ∧ result = .ok (.bool true)
    ∨ kind = .all ∧ (result = .ok (.bool false) ∨ result = .ok .null)

/-- Whether the body was true at a visit. -/
def holds (visit : Visit) : Bool := visit.2 matches .ok (.bool true)

/-- What is kept of some visits: the items at which the body was true, or its results. -/
def gathered (kind : Comprehension) (visited : List Visit) : List Value :=
  match kind with
  | .any | .all => []
  | .filter => (visited.filter holds).map Prod.fst
  | .map => visited.filterMap fun visit => visit.2.toOption

/-- What a comprehension comes to, by all its visits, after something else was kept. -/
def answer (kind : Comprehension) (kept : List Value) (visited : List Visit) : Outcome Value :=
  match visited.getLast?.bind fun visit => kind.failure? visit.2 with
  | some err => .error err
  | none =>
    .ok <| match kind with
      | .any => .bool (visited.any holds)
      | .all => .bool (visited.all holds)
      | .filter | .map => .list (kept ++ kind.gathered visited)

end Comprehension

/-- The visits of a comprehension to some items: to the first of them, in order,
up to the one that ends it, or to all if none does. -/
structure Sweeps (kind : Comprehension) (body : Value → Eval ρ Value) (items : List Value)
    (m : Machine ρ) (visited : List Visit) (u : Machine ρ) : Prop where
  visits : Visits body m visited u
  inOrder : visited.map Prod.fst <+: items
  goesOn : ∀ visit ∈ visited.dropLast, ¬ kind.Ends visit.2
  ends : visited.map Prod.fst = items ∨ ∃ visit ∈ visited.getLast?, kind.Ends visit.2

/-! ## One item -/

namespace Comprehension

variable {kind : Comprehension} {v : Value}

theorem judge_of_ends (h : kind.Ends (.ok v)) (kept : List Value) (item : Value) :
    kind.judge item v = (kind.answer kept [(item, .ok v)]).map .stop := by
  cases v with
  | bool b => cases kind <;> cases b <;> simp [Ends, failure?] at h <;> rfl
  | _ => cases kind <;> simp [Ends, failure?] at h <;> rfl

theorem judge_of_goesOn (h : ¬ kind.Ends (.ok v)) (item : Value) :
    (kind.judge item v = .ok .pass ∧ kind.gathered [(item, .ok v)] = [])
      ∨ ∃ w, kind.judge item v = .ok (.keep w) ∧ kind.gathered [(item, .ok v)] = [w] := by
  cases v with
  | bool b =>
      cases kind <;> cases b <;> simp [Ends, failure?] at h <;>
        first | exact .inl ⟨rfl, rfl⟩ | exact .inr ⟨_, rfl, rfl⟩
  | _ =>
      cases kind <;> simp [Ends, failure?] at h <;>
        first | exact .inl ⟨rfl, rfl⟩ | exact .inr ⟨_, rfl, rfl⟩

theorem ends_error (kind : Comprehension) (err : FormulaError) : kind.Ends (.error err) :=
  .inl rfl

theorem failure?_of_goesOn {result : Outcome Value} (h : ¬ kind.Ends result) :
    kind.failure? result = none := by
  simpa using fun hfailure => h (.inl hfailure)

theorem not_holds_of_goesOn {visit : Visit} (h : ¬ Comprehension.any.Ends visit.2) :
    holds visit = false := by
  unfold holds
  split
  · rename_i heq
    exact absurd (.inr (.inl ⟨rfl, heq⟩)) h
  · rfl

theorem holds_of_goesOn {visit : Visit} (h : ¬ Comprehension.all.Ends visit.2) :
    holds visit = true := by
  obtain ⟨item, result⟩ := visit
  cases result with
  | error err => exact absurd (ends_error _ err) h
  | ok v =>
      cases v with
      | bool b =>
          cases b with
          | false => exact absurd (.inr (.inr ⟨rfl, .inl rfl⟩)) h
          | true => rfl
      | null => exact absurd (.inr (.inr ⟨rfl, .inr rfl⟩)) h
      | _ => exact absurd (.inl rfl) h

theorem gathered_append (kind : Comprehension) (visited more : List Visit) :
    kind.gathered (visited ++ more) = kind.gathered visited ++ kind.gathered more := by
  cases kind with
  | any | all => rfl
  | filter => simp only [gathered, List.filter_append, List.map_append]
  | map => exact List.filterMap_append

/-- If a visit does not end the comprehension, what is kept of it comes before what is kept of
the others. -/
theorem answer_cons {visit : Visit} (h : ¬ kind.Ends visit.2) (kept : List Value)
    (visited : List Visit) :
    kind.answer kept (visit :: visited)
      = kind.answer (kept ++ kind.gathered [visit]) visited := by
  have hlast : ((visit :: visited).getLast?.bind fun visit => kind.failure? visit.2)
      = visited.getLast?.bind fun visit => kind.failure? visit.2 := by
    rw [List.getLast?_cons]
    cases visited.getLast? with
    | none => exact failure?_of_goesOn h
    | some last => rfl
  unfold answer
  rw [hlast]
  cases visited.getLast?.bind fun visit => kind.failure? visit.2 with
  | some err => rfl
  | none =>
      cases kind with
      | any => simp [not_holds_of_goesOn h]
      | all => simp [holds_of_goesOn h]
      | filter | map =>
          simp only [List.append_assoc, ← gathered_append, List.singleton_append]

end Comprehension

section

variable {kind : Comprehension} {body : Value → Eval ρ Value} {m t u : Machine ρ} {item : Value}
  {result : Outcome Value} {rest items : List Value} {visited : List Visit}

theorem runComprehension_of_ends (hbody : body item m = (result, t)) (h : kind.Ends result)
    (kept rest : List Value) :
    runComprehension kind body kept (item :: rest) m = (kind.answer kept [(item, result)], t) := by
  rw [runComprehension]
  cases result with
  | error err =>
      rw [run_bind_of_error hbody]
      rfl
  | ok v =>
      rw [run_bind_of_ok hbody, Comprehension.judge_of_ends h kept]
      cases kind.answer kept [(item, .ok v)] <;> rfl

theorem runComprehension_of_goesOn (hbody : body item m = (result, t)) (h : ¬ kind.Ends result)
    (kept rest : List Value) :
    runComprehension kind body kept (item :: rest) m
      = runComprehension kind body (kept ++ kind.gathered [(item, result)]) rest t := by
  cases result with
  | error err => exact absurd (kind.ends_error err) h
  | ok v =>
      rw [runComprehension, run_bind_of_ok hbody]
      rcases Comprehension.judge_of_goesOn h item with ⟨hjudge, hnone⟩ | ⟨w, hjudge, hone⟩
      · rw [hjudge, hnone, List.append_nil]
        rfl
      · rw [hjudge, hone]
        rfl

/-! ## The visits -/

theorem sweeps_nil (kind : Comprehension) (body : Value → Eval ρ Value) (m : Machine ρ) :
    Sweeps kind body [] m [] m :=
  ⟨.nil m, List.prefix_rfl, nofun, .inl rfl⟩

theorem sweeps_of_ends (hbody : body item m = (result, t)) (h : kind.Ends result)
    (rest : List Value) : Sweeps kind body (item :: rest) m [(item, result)] t :=
  ⟨.cons hbody (.nil t), List.prefix_append [item] rest, nofun, .inr ⟨_, rfl, h⟩⟩

theorem Sweeps.cons (hbody : body item m = (result, t)) (h : ¬ kind.Ends result)
    (hrest : Sweeps kind body rest t visited u) :
    Sweeps kind body (item :: rest) m ((item, result) :: visited) u where
  visits := .cons hbody hrest.visits
  inOrder := List.cons_prefix_cons.mpr ⟨rfl, hrest.inOrder⟩
  goesOn := by
    cases visited with
    | nil => nofun
    | cons next more => exact List.forall_mem_cons.mpr ⟨h, hrest.goesOn⟩
  ends := by
    rcases hrest.ends with hall | ⟨visit, hlast, hends⟩
    · exact .inl (congrArg (item :: ·) hall)
    · refine .inr ⟨visit, ?_, hends⟩
      rw [Option.mem_def] at hlast ⊢
      rw [List.getLast?_cons, hlast]
      rfl

/-- The first of some items is visited, and the others if that does not end the comprehension. -/
theorem Sweeps.first (h : Sweeps kind body (item :: rest) m visited u) :
    ∃ result t, body item m = (result, t)
      ∧ (kind.Ends result ∧ visited = [(item, result)] ∧ u = t
        ∨ ¬ kind.Ends result ∧ ∃ more, visited = (item, result) :: more
          ∧ Sweeps kind body rest t more u) := by
  obtain ⟨hvisits, hinOrder, hgoesOn, hends⟩ := h
  cases hvisits with
  | nil =>
      rcases hends with hall | ⟨_, hlast, -⟩
      · cases hall
      · cases hlast
  | @cons _ t _ item' result more hbody hmore =>
      obtain ⟨rfl, hprefix⟩ := List.cons_prefix_cons.mp hinOrder
      refine ⟨result, t, hbody, ?_⟩
      cases more with
      | nil =>
          cases hmore
          by_cases hresult : kind.Ends result
          · exact .inl ⟨hresult, rfl, rfl⟩
          · refine .inr ⟨hresult, [], rfl, .nil _, hprefix, nofun, .inl ?_⟩
            rcases hends with hall | ⟨_, hlast, hlastEnds⟩
            · exact (List.cons.inj hall).2
            · cases hlast
              exact absurd hlastEnds hresult
      | cons next more =>
          rw [List.dropLast_cons_cons, List.forall_mem_cons] at hgoesOn
          refine .inr ⟨hgoesOn.1, _, rfl, hmore, hprefix, hgoesOn.2, ?_⟩
          refine hends.imp (fun hall => (List.cons.inj hall).2) fun hlast => ?_
          rwa [List.getLast?_cons_cons] at hlast

/-- Whatever the items are, there are visits that are made to them. -/
theorem exists_sweeps (kind : Comprehension) (body : Value → Eval ρ Value) (items : List Value)
    (m : Machine ρ) : ∃ visited u, Sweeps kind body items m visited u := by
  induction items generalizing m with
  | nil => exact ⟨[], m, sweeps_nil ..⟩
  | cons item rest ih =>
      rcases hbody : body item m with ⟨result, t⟩
      by_cases hends : kind.Ends result
      · exact ⟨_, t, sweeps_of_ends hbody hends rest⟩
      · obtain ⟨visited, u, hrest⟩ := ih t
        exact ⟨_, u, hrest.cons hbody hends⟩

theorem Sweeps.eq_nil (h : Sweeps kind body [] m visited u) : visited = [] := by
  simpa using h.inOrder

/-- No others than these are made. -/
theorem Sweeps.unique {visited' : List Visit} {u' : Machine ρ}
    (h : Sweeps kind body items m visited u) (h' : Sweeps kind body items m visited' u') :
    visited' = visited := by
  induction items generalizing m visited visited' with
  | nil => rw [h.eq_nil, h'.eq_nil]
  | cons item rest ih =>
      obtain ⟨result, t, hbody, hfirst⟩ := h.first
      obtain ⟨result', t', hbody', hfirst'⟩ := h'.first
      cases hbody.symm.trans hbody'
      rcases hfirst with ⟨hends, rfl, -⟩ | ⟨hgoes, more, rfl, hrest⟩
      · rcases hfirst' with ⟨-, rfl, -⟩ | ⟨hgoes, -⟩
        · rfl
        · exact absurd hends hgoes
      · rcases hfirst' with ⟨hends, -⟩ | ⟨-, more', rfl, hrest'⟩
        · exact absurd hends hgoes
        · rw [ih hrest hrest']

/-- What a comprehension comes to is the answer to its visits. -/
theorem Sweeps.runComprehension (h : Sweeps kind body items m visited u) (kept : List Value) :
    runComprehension kind body kept items m = (kind.answer kept visited, u) := by
  induction items generalizing m visited kept with
  | nil =>
      obtain rfl := h.eq_nil
      cases h.visits
      have hcomplete : kind.answer kept [] = .ok (kind.complete kept) := by
        cases kind <;> simp [Comprehension.answer, Comprehension.complete, Comprehension.gathered]
      rw [hcomplete]
      rfl
  | cons item rest ih =>
      obtain ⟨result, t, hbody, ⟨hends, rfl, rfl⟩ | ⟨hgoes, more, rfl, hrest⟩⟩ := h.first
      · exact runComprehension_of_ends hbody hends kept rest
      · rw [runComprehension_of_goesOn hbody hgoes, ih hrest, Comprehension.answer_cons hgoes]

end

/-! ## Machines that have counted more visits -/

/-- The machine with more visits counted. -/
def Machine.ahead (m : Machine ρ) (more : Nat) : Machine ρ := { m with steps := m.steps + more }

/-- Does the same on a machine that has counted more visits, as long as it stays
within the limit. -/
structure Onward (limit more : Nat) {α : Type} (x : Eval ρ α) : Prop where
  steps : ∀ m, m.steps ≤ (x m).2.steps
  ahead : ∀ m, (x m).2.steps + more ≤ limit → x (m.ahead more) = ((x m).1, (x m).2.ahead more)


section

variable {limit more : Nat}

theorem onward_of_uncounted {α : Type} {x : Eval ρ α} (hsteps : ∀ m, (x m).2.steps = m.steps)
    (hahead : ∀ m, x (m.ahead more) = ((x m).1, (x m).2.ahead more)) : Onward limit more x where
  steps m := Nat.le_of_eq (hsteps m).symm
  ahead m _ := hahead m

theorem onward_tick (limit more : Nat) : Onward limit more (tick limit : Eval ρ Unit) where
  steps m := by
    rw [tick_apply]
    exact Nat.le_succ _
  ahead m hroom := by
    rw [tick_apply] at hroom
    have hsteps : m.steps + 1 + more ≤ limit := hroom
    have hahead : (m.ahead more).steps < limit := by
      simp only [Machine.ahead]
      omega
    rw [tick_of_lt hahead, tick_of_lt (by omega)]
    simp only [Machine.ahead, Nat.add_right_comm]

theorem onward_rollDice [Roller ρ] (dice : Value) :
    Onward limit more (rollDice dice : Eval ρ Value) := by
  refine onward_of_uncounted (steps_rollDice dice) fun m => ?_
  cases dice with
  | str s =>
      rcases hroll : Roller.roll m.roller s with ⟨err | total, r⟩
      · simp only [rollDice, Machine.ahead, hroll]
      · simp only [rollDice, Machine.ahead, hroll]
  | _ => rfl

theorem Onward.bind {α β : Type} {x : Eval ρ α} {next : α → Eval ρ β} (h : Onward limit more x)
    (hnext : ∀ a, Onward limit more (next a)) : Onward limit more (x >>= next) where
  steps m := by
    have hfirst := h.steps m
    rcases hx : x m with ⟨err | a, t⟩
    · rw [hx] at hfirst
      rwa [run_bind_of_error hx]
    · rw [hx] at hfirst
      rw [run_bind_of_ok hx]
      exact Nat.le_trans hfirst ((hnext a).steps t)
  ahead m hroom := by
    have hfirst := h.ahead m
    rcases hx : x m with ⟨err | a, t⟩
    · rw [run_bind_of_error hx] at hroom ⊢
      rw [hx] at hfirst
      exact run_bind_of_error (hfirst hroom)
    · rw [run_bind_of_ok hx] at hroom ⊢
      rw [hx] at hfirst
      have hgrows := (hnext a).steps t
      rw [run_bind_of_ok (hfirst (by dsimp only; omega))]
      exact (hnext a).ahead t hroom

variable [Roller ρ]

theorem closed_onward (limit more : Nat) :
    Closed (ρ := ρ) (σ := ρ) (fun {_} x _ => Onward limit more x) limit limit where
  outcome _ := onward_of_uncounted (fun _ => rfl) fun _ => rfl
  tick := onward_tick limit more
  rollDice := onward_rollDice
  bind := Onward.bind

theorem onward_eval (scope : Scope) (more : Nat) (e : Expr) :
    Onward scope.limit more (eval scope e : Eval ρ Value) :=
  (closed_onward scope.limit more).inStep e (Scope.Alike.refl _ scope)

end

/-! ## Negated bodies -/

/-- A failure, or a condition: true, false or null. -/
def Decided : Outcome Value → Prop
  | .error _ | .ok (.bool _) | .ok .null => True
  | _ => False

/-- The visit with the result of the body negated. -/
def Visit.negated (visit : Visit) : Visit := (visit.1, visit.2 >>= applyUnary .not)

theorem Visit.map_fst_negated (visited : List Visit) :
    (visited.map negated).map Prod.fst = visited.map Prod.fst := by
  rw [List.map_map]
  rfl

theorem negated_ends {visit : Visit} (h : Decided visit.2) :
    Comprehension.any.Ends visit.negated.2 ↔ Comprehension.all.Ends visit.2 := by
  obtain ⟨item, result⟩ := visit
  cases result with
  | error err => exact iff_of_true (.inl rfl) (.inl rfl)
  | ok v =>
      cases v with
      | bool b =>
          show Comprehension.any.Ends (.ok (.bool !b)) ↔ Comprehension.all.Ends (.ok (.bool b))
          cases b <;> simp [Comprehension.Ends, Comprehension.failure?]
      | null => exact iff_of_true (.inr (.inl ⟨rfl, rfl⟩)) (.inr (.inr ⟨rfl, .inr rfl⟩))
      | _ => cases h

/-- The answer to the negated visits is the negated answer. -/
theorem negated_answer {visited : List Visit} (hdecided : ∀ visit ∈ visited, Decided visit.2)
    (hgoesOn : ∀ visit ∈ visited.dropLast, ¬ Comprehension.all.Ends visit.2) :
    Comprehension.any.answer [] (visited.map Visit.negated) >>= applyUnary .not
      = Comprehension.all.answer [] visited := by
  induction visited with
  | nil => rfl
  | cons visit rest ih =>
      rw [List.forall_mem_cons] at hdecided
      by_cases hends : Comprehension.all.Ends visit.2
      -- Only the last visit ends the comprehension, and a failure is only there.
      · cases rest with
        | cons next more => exact absurd hends (hgoesOn visit (List.mem_cons_self ..))
        | nil =>
            obtain ⟨item, result⟩ := visit
            cases result with
            | error err => rfl
            | ok v =>
                cases v with
                | bool b => cases b <;> rfl
                | null => rfl
                | _ => cases hdecided.1
      · rw [List.map_cons, Comprehension.answer_cons (mt (negated_ends hdecided.1).mp hends),
          Comprehension.answer_cons hends]
        refine ih hdecided.2 fun visit hvisit => hgoesOn visit ?_
        cases rest with
        | nil => cases hvisit
        | cons next more => exact List.mem_cons_of_mem _ hvisit

section

variable [Roller ρ] {scope : Scope} {var : String} {body : Expr} {visited : List Visit}
  {items : List Value} {m t u : Machine ρ}

theorem Visits.steps_le (h : Visits (fun item => eval (scope.bind var item) body) m visited u) :
    m.steps ≤ u.steps := by
  induction h with
  | nil => exact Nat.le_refl _
  | @cons m _ _ item _ _ hbody _ ih =>
      have hsteps := (onward_eval (scope.bind var item) 0 body).steps m
      rw [hbody] at hsteps
      exact Nat.le_trans hsteps ih

/-- The negated body takes one more step at each item. -/
theorem Visits.negated (h : Visits (fun item => eval (scope.bind var item) body) m visited u)
    (more : Nat) (hroom : u.steps + (more + visited.length) ≤ scope.limit) :
    Visits (fun item => eval (scope.bind var item) (.unary .not body)) (m.ahead more)
      (visited.map Visit.negated) (u.ahead (more + visited.length)) := by
  induction h generalizing more with
  | nil => exact .nil _
  | @cons m t u item result rest hbody hrest ih =>
      have hle := hrest.steps_le
      have hgrows := (onward_eval (scope.bind var item) 0 body).steps m
      rw [hbody] at hgrows
      rw [List.length_cons] at hroom
      have hahead := (onward_eval (scope.bind var item) (more + 1) body).ahead m
      rw [hbody] at hahead
      have hnegated : eval (scope.bind var item) (.unary .not body) (m.ahead more)
          = (result >>= applyUnary .not, t.ahead (more + 1)) := by
        refine eval_unary ?_ .not (hahead ?_)
        · simp only [Machine.ahead, Scope.bind] at hgrows ⊢
          omega
        · simp only [Scope.bind] at hgrows ⊢
          omega
      -- After each item the negated run is one visit further ahead.
      have htail := ih (more + 1) (by omega)
      rw [Nat.add_assoc, Nat.add_comm 1] at htail
      exact .cons hnegated htail

theorem Sweeps.negated
    (h : Sweeps .all (fun item => eval (scope.bind var item) body) items m visited u)
    (hdecided : ∀ visit ∈ visited, Decided visit.2) (more : Nat)
    (hroom : u.steps + (more + visited.length) ≤ scope.limit) :
    Sweeps .any (fun item => eval (scope.bind var item) (.unary .not body)) items (m.ahead more)
      (visited.map Visit.negated) (u.ahead (more + visited.length)) where
  visits := h.visits.negated more hroom
  inOrder := (Visit.map_fst_negated visited).symm ▸ h.inOrder
  goesOn := by
    rw [← List.map_dropLast, List.forall_mem_map]
    intro visit hvisit
    have hmem := List.dropLast_subset _ hvisit
    exact mt (negated_ends (hdecided visit hmem)).mp (h.goesOn visit hvisit)
  ends := by
    rw [Visit.map_fst_negated]
    refine h.ends.imp_right fun ⟨visit, hlast, hends⟩ => ⟨visit.negated, ?_, ?_⟩
    · rw [List.getLast?_map, Option.mem_def.mp hlast]
      rfl
    · exact (negated_ends (hdecided visit (List.mem_of_getLast? hlast))).mpr hends

/-! ## Comprehensions in a formula -/

section

variable {target : Expr} {v : Value}

theorem eval_comprehension_of_ranges
    (htarget : eval scope target { m with steps := m.steps + 1 } = (.ok v, t))
    (hitems : Ranges v items) (kind : Comprehension) (var : String) (body : Expr) :
    eval scope (.comprehension target kind var body) m
      = runComprehension kind (fun item => eval (scope.bind var item) body) [] items t := by
  rw [eval_comprehension htarget, iterated_eq_ok_iff.mpr hitems]
  rfl

theorem eval_comprehension_of_not_ranges
    (htarget : eval scope target { m with steps := m.steps + 1 } = (.ok v, t))
    (hnone : ∀ items, ¬ Ranges v items) (kind : Comprehension) (var : String) (body : Expr) :
    eval scope (.comprehension target kind var body) m
      = (.error (.type (.iteration v.typeName)), t) := by
  rw [eval_comprehension htarget, iterated_of_not_ranges hnone]
  rfl

/-- An additional visit before the target leaves the machine one visit ahead. -/
theorem eval_target_ahead
    (htarget : eval scope target { m with steps := m.steps + 1 } = (.ok v, t))
    (hroom : t.steps + 1 ≤ scope.limit) :
    eval scope target { m with steps := m.steps + 1 + 1 } = (.ok v, t.ahead 1) := by
  have hahead := (onward_eval scope 1 target).ahead { m with steps := m.steps + 1 }
  rw [htarget] at hahead
  exact hahead hroom

/-- Every item has a property just if there is none that does not have it, and
finding out the one takes the same rolls as finding out the other. -/
theorem eval_not_any_not
    (htarget : eval scope target { m with steps := m.steps + 1 } = (.ok v, t))
    (hitems : Ranges v items)
    (h : Sweeps .all (fun item => eval (scope.bind var item) body) items t visited u)
    (hdecided : ∀ visit ∈ visited, Decided visit.2)
    (hroom : u.steps + (1 + visited.length) ≤ scope.limit) :
    eval scope (.unary .not (.comprehension target .any var (.unary .not body))) m
      = (Comprehension.all.answer [] visited, u.ahead (1 + visited.length)) := by
  have hle := h.visits.steps_le
  have hlimit := Nat.lt_of_succ_lt (lt_limit_of_eval_eq_ok htarget)
  have htarget' := eval_target_ahead htarget (by omega)
  have hany : eval scope (.comprehension target .any var (.unary .not body))
      { m with steps := m.steps + 1 }
      = (Comprehension.any.answer [] (visited.map Visit.negated),
        u.ahead (1 + visited.length)) := by
    rw [eval_comprehension_of_ranges htarget' hitems]
    exact (h.negated hdecided 1 hroom).runComprehension []
  rw [eval_unary hlimit .not hany, negated_answer hdecided h.goesOn]

/-- A comprehension is a function on lists that stops early. It visits the items
of its target in order, those of a map in the order of its names, up to the
first at which it ends. If its body fails at the last one it visits, or comes to
something there that is no condition where one is needed, that is the result.
Otherwise `exists` and `all` are the disjunction and the conjunction of what the
body came to, `filter` keeps the items at which it was true and `map` what it
came to. So `all` comes to what `exists` comes to of the negated body, negated,
with the same rolls, wherever the body is a condition. -/
theorem comprehensions_are_list_functions
    (htarget : eval scope target { m with steps := m.steps + 1 } = (.ok v, t)) (var : String)
    (body : Expr) :
    let bodyAt : Value → Eval ρ Value := fun item => eval (scope.bind var item) body
    let all := eval scope (.comprehension target .all var body) m
    let notAny := eval scope (.unary .not (.comprehension target .any var (.unary .not body))) m
    (∀ kind items, Ranges v items → (∃! visited, ∃ u, Sweeps kind bodyAt items t visited u)
        ∧ ∀ visited u, Sweeps kind bodyAt items t visited u →
          eval scope (.comprehension target kind var body) m = (kind.answer [] visited, u))
      ∧ (∀ entries items, v = .map entries → Entries.Sorted entries → Ranges v items →
        ∃ keys : List String, items = keys.map .str ∧ keys.Pairwise (· < ·)
          ∧ ∀ key, key ∈ keys ↔ ∃ value, Entries.get? entries key = some value)
      ∧ (∀ items visited u, Ranges v items → Sweeps .all bodyAt items t visited u →
        (∀ visit ∈ visited, Decided visit.2) → u.steps + (1 + visited.length) ≤ scope.limit →
        notAny = (all.1, all.2.ahead (1 + visited.length)))
      ∧ ((∀ items, ¬ Ranges v items) →
        (∀ kind, eval scope (.comprehension target kind var body) m
          = (.error (.type (.iteration v.typeName)), t))
        ∧ (t.steps + 1 ≤ scope.limit → notAny = (all.1, all.2.ahead 1))) := by
  intro bodyAt all notAny
  have hrun {kind : Comprehension} {items : List Value} {visited : List Visit} {u : Machine ρ}
      (hitems : Ranges v items) (h : Sweeps kind bodyAt items t visited u) :
      eval scope (.comprehension target kind var body) m = (kind.answer [] visited, u) := by
    rw [eval_comprehension_of_ranges htarget hitems]
    exact h.runComprehension []
  have hfails := eval_comprehension_of_not_ranges htarget
  refine ⟨fun kind items hitems => ⟨?_, fun visited u h => hrun hitems h⟩, ?_, ?_,
    fun hnone => ⟨fun kind => hfails hnone kind var body, fun hroom => ?_⟩⟩
  · obtain ⟨visited, u, h⟩ := exists_sweeps kind bodyAt items t
    exact ⟨visited, ⟨u, h⟩, fun visited' ⟨u', h'⟩ => h.unique h'⟩
  · rintro entries items rfl hsorted hitems
    exact hitems.keys hsorted
  · intro items visited u hitems h hdecided hroom
    have hall : all = _ := hrun hitems h
    rw [hall]
    exact eval_not_any_not htarget hitems h hdecided hroom
  · have hlimit := Nat.lt_of_succ_lt (lt_limit_of_eval_eq_ok htarget)
    have htarget' := eval_target_ahead htarget hroom
    have hany : eval scope (.comprehension target .any var (.unary .not body))
        { m with steps := m.steps + 1 } = (.error (.type (.iteration v.typeName)), t.ahead 1) :=
      eval_comprehension_of_not_ranges htarget' hnone .any var (.unary .not body)
    have hall : all = _ := hfails hnone .all var body
    rw [hall]
    exact eval_unary hlimit .not hany

/-- Two guards out of three are asked: the second one is seen. -/
theorem comprehensions_are_list_functions_guards :
    let scope : Scope :=
      ⟨[], .ofList [("guards", .map [("ann", .null), ("bob", .null), ("cid", .null)])], 13⟩
    let body : Expr := .binary .gt (.call "roll" [.literal (.str "1d6")]) (.literal (.int 2))
    let m : Machine DiceCup := ⟨.scripted [4, 1], [], 0⟩
    let all := eval scope (.comprehension (.ident "guards") .all "guard" body) m
    let notAny := eval scope
      (.unary .not (.comprehension (.ident "guards") .any "guard" (.unary .not body))) m
    all.1 = .ok (.bool false) ∧ all.2.rolls = [("1d6", 4), ("1d6", 1)]
      ∧ notAny.1 = all.1 ∧ notAny.2.rolls = all.2.rolls := by
  intro scope body m all notAny
  have htarget : eval scope (.ident "guards") { m with steps := m.steps + 1 }
      = (.ok _, ⟨.scripted [4, 1], [], 2⟩) := eval_ident (by decide) rfl
  have hitems := Ranges.map [("ann", .null), ("bob", .null), ("cid", .null)]
  have hann : eval (scope.bind "guard" (.str "ann")) body
      (⟨.scripted [4, 1], [], 2⟩ : Machine DiceCup)
      = (.ok (.bool true), ⟨.scripted [1], [("1d6", 4)], 6⟩) := by rfl
  have hbob : eval (scope.bind "guard" (.str "bob")) body
      (⟨.scripted [1], [("1d6", 4)], 6⟩ : Machine DiceCup)
      = (.ok (.bool false), ⟨.scripted [], [("1d6", 4), ("1d6", 1)], 10⟩) := by rfl
  have hgoesOn : ¬ Comprehension.all.Ends (.ok (.bool true)) := by
    simp [Comprehension.Ends, Comprehension.failure?]
  have hends : Comprehension.all.Ends (.ok (.bool false)) := .inr (.inr ⟨rfl, .inl rfl⟩)
  have hsweeps : Sweeps .all (fun item => eval (scope.bind "guard" item) body)
      [.str "ann", .str "bob", .str "cid"] _ _ _ :=
    .cons hann hgoesOn (sweeps_of_ends hbob hends [.str "cid"])
  obtain ⟨hvisits, -, hnegated, -⟩ := comprehensions_are_list_functions htarget "guard" body
  have hall : all = _ := (hvisits .all _ hitems).2 _ _ hsweeps
  have hnotAny : notAny = _ := hnegated _ _ _ hitems hsweeps (by simp [Decided]) (by decide)
  refine ⟨?_, ?_, ?_, ?_⟩
  · rw [hall]
    rfl
  · rw [hall]
  · rw [hnotAny]
  · rw [hnotAny]
    rfl

end

end

end GameTable.Formula
