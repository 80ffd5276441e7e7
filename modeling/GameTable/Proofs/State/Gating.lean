import GameTable.Proofs.Formula.Acceptance
import GameTable.Proofs.Formula.Evaluator
import GameTable.Proofs.Formula.Steps
import GameTable.Proofs.State.Width
import GameTable.View.Context

/-!
# Asking before spending

Whether anything is left of a budget is decided in two places that know nothing
of each other. A prerequisite compares two fields of the actor as a formula
sees it, where whatever is missing counts as zero. An event that spends looks
up the entity, adds one to what is spent, and refuses to exceed the resource.

The two agree in every state that a game can reach
(`budgetGate_agrees_with_spending`), and it is the budget invariant that makes
them agree. Nothing spent is negative, so a missing resource, which counts as
zero, is never more than what is spent (`InBudget.hasLeft_iff_spends`). The
event by itself would spend of a resource that does not exist.
-/

namespace GameTable

open Formula

/-! ## The formula -/

/-- The formula that asks whether anything is left of what is spent under a name. -/
def budgetGate (key : String) : String :=
  "actor.spent." ++ key ++ " < actor.resources." ++ key

/-- What the formula is compiled to. -/
def budgetTree (key : String) : Expr :=
  .binary .lt (.member (.member (.ident "actor") "spent") key)
    (.member (.member (.ident "actor") "resources") key)

/-- The tokens of the formula for a key of `n` characters. -/
def budgetTokens (key : String) (n : Nat) : List Lexeme :=
  [⟨.ident "actor", 0⟩, ⟨.dot, 5⟩, ⟨.ident "spent", 6⟩, ⟨.dot, 11⟩, ⟨.ident key, 12⟩,
    ⟨.lt, n + 13⟩, ⟨.ident "actor", n + 15⟩, ⟨.dot, n + 20⟩, ⟨.ident "resources", n + 21⟩,
    ⟨.dot, n + 30⟩, ⟨.ident key, n + 31⟩, ⟨.eof, 2 * n + 31⟩]

theorem toList_budgetGate (key : String) :
    (budgetGate key).toList = "actor".toList ++ '.' :: ("spent".toList ++ '.' :: (key.toList
      ++ ' ' :: '<' :: ' ' :: ("actor".toList ++ '.' :: ("resources".toList ++ '.' ::
        key.toList)))) := by
  simp [budgetGate, String.toList_append]

theorem tokenize_budgetGate {key : String} (hkey : isName key.toList = true)
    (hword : wordToken key = .ident key) :
    tokenize (budgetGate key) = .ok (budgetTokens key key.toList.length) := by
  have hactor : isName "actor".toList = true := by decide +kernel
  have hspent : isName "spent".toList = true := by decide +kernel
  have hresources : isName "resources".toList = true := by decide +kernel
  obtain ⟨tokens, hlexed, htokens⟩ : ∃ tokens, Lexed 0 (budgetGate key).toList tokens
      ∧ tokens = budgetTokens key key.toList.length := by
    rw [toList_budgetGate]
    refine ⟨_, .qualifier hactor rfl (.qualifier hspent rfl (.compared hkey hword
      (.qualifier hactor rfl (.qualifier hresources rfl (lexed_identifier hkey hword _))))), ?_⟩
    simp [budgetTokens]
    omega
  rw [tokenize_eq_ok_iff, ← htokens]
  exact hlexed

/-- A text that is one identifier as it stands: no blanks around it, and not a reserved word. -/
def IsIdentifier (key : String) : Prop :=
  ∃ lexemes, tokenize key = .ok lexemes ∧ lexemes.map (·.token) = [.ident key, .eof]

theorem isIdentifier_of_isName {key : String} (hname : isName key.toList = true)
    (hword : wordToken key = .ident key) : IsIdentifier key :=
  ⟨_, tokenize_eq_ok_iff.mpr (lexed_identifier hname hword 0), rfl⟩

open Phrase in
theorem compile_budgetGate {key : String} (hkey : IsIdentifier key) :
    Program.compile (budgetGate key) = .ok ⟨budgetGate key, budgetTree key⟩ := by
  obtain ⟨lexemes, htokenize, htokens⟩ := hkey
  obtain ⟨hname, hword⟩ := isName_of_tokenize htokenize htokens
  have hactor : Selection [.ident "actor"] (.ident "actor") := .primary .name
  have hnumber (field : String) : Operand _ (.member (.member (.ident "actor") field) key) :=
    .plain (.member (.member hactor))
  have hderives : Expression _ (budgetTree key) :=
    .plain (.tighter (.tighter (.link (t := .lt) (.of_operand (hnumber "spent") _) (by simp)
      (.of_operand (hnumber "resources") _))))
  exact compile_of_derives (tokenize_budgetGate hname hword) rfl hderives (by simp [maxDepth]) rfl

/-! ## Its parts, step by step -/

namespace Formula

theorem isLT_compare (x y : Int) : (compare x y).isLT = decide (x < y) := by
  change (compareOfLessAndEq x y).isLT = _
  rw [compareOfLessAndEq]
  split
  · simp [*]
  · split <;> simp [*]

/-- Missing numbers count as zero in a comparison. -/
theorem applyBinary_lt {a b : Value} {x y : Int} (ha : exactInt? a = some x)
    (hb : exactInt? b = some y) : applyBinary .lt a b = .ok (.bool (decide (x < y))) := by
  have hcompare : compareValues? a b = some (compare x y) := by
    rw [compareValues?.eq_def, ha, hb]
  rw [applyBinary, compareValues, hcompare, ← isLT_compare]
  rfl

end Formula

namespace Entity

theorem selectField_view (x : Entity) (sec : NumberSection) :
    selectField (Section.numbers sec).name x.view = .ok (numbersView (x.numbers sec)) := by
  cases sec <;>
    simp [selectField, view, Value.ofEntries, Entries.ofList, Entries.get?_insert_self,
      Entries.get?_insert_of_ne, Section.name, numbers]

theorem selectField_numbersView (d : Dict Int) (key : String) :
    selectField key (numbersView d) = .ok (((d.get? key).map .int).getD .null) := by
  have hmap : Entries.get? (d.map Value.int).entries key = (d.get? key).map .int :=
    Dict.get?_map ..
  rw [numbersView, Value.ofDict, selectField, hmap]

theorem exactInt?_entry (o : Option Int) :
    exactInt? ((o.map .int).getD .null) = some (o.getD 0) := by
  cases o with
  | none => rfl
  | some n => rfl

/-- Reading a number of an entity takes three steps. -/
theorem eval_number {ρ : Type} [Roller ρ] {scope : Scope} {name : String} {x : Entity}
    (hx : scope.lookup name = .ok x.view) {m : Machine ρ} (hlimit : m.steps + 3 ≤ scope.limit)
    (sec : NumberSection) (key : String) :
    eval scope (.member (.member (.ident name) (Section.numbers sec).name) key) m
      = (.ok ((((x.numbers sec).get? key).map .int).getD .null),
        { m with steps := m.steps + 3 }) := by
  have hname : eval scope (.ident name) { m with steps := m.steps + 2 }
      = (.ok x.view, { m with steps := m.steps + 3 }) := by
    refine eval_ident ?_ hx
    dsimp only
    omega
  have hsec : eval scope (.member (.ident name) (Section.numbers sec).name)
      { m with steps := m.steps + 1 }
      = (.ok (numbersView (x.numbers sec)), { m with steps := m.steps + 3 }) := by
    refine eval_member ?_ hname (x.selectField_view sec)
    dsimp only
    omega
  exact eval_member (by omega) hsec (selectField_numbersView ..)

/-- Less is spent under a name than there is, where what is missing counts as zero. -/
def hasLeft (x : Entity) (key : String) : Bool :=
  (x.spent.get? key).getD 0 < (x.resources.get? key).getD 0

end Entity

/-- The answer of the formula, which takes seven steps. -/
theorem Evaluator.evaluate_budgetGate {ρ : Type} [Roller ρ] {ev : Evaluator ρ} (hev : ev.Faithful)
    (hlimit : 7 ≤ ev.stepLimit) {key : String} (hkey : IsIdentifier key) {context : Dict Value}
    {x : Entity} (hx : context.get? "actor" = some x.view) :
    (ev.evaluate (budgetGate key) context).1.result = .ok (.bool (x.hasLeft key)) := by
  have hactor : Scope.lookup ⟨[], context, ev.stepLimit⟩ "actor" = .ok x.view :=
    lookup_of_get? hx
  have hspent := Entity.eval_number hactor (m := ⟨ev.roller, [], 1⟩) (by dsimp only; omega)
    .spent key
  have hresource := Entity.eval_number hactor (m := ⟨ev.roller, [], 4⟩) (by dsimp only; omega)
    .resources key
  have heval : eval ⟨[], context, ev.stepLimit⟩ (budgetTree key) ⟨ev.roller, [], 0⟩
      = (.ok (.bool (x.hasLeft key)), ⟨ev.roller, [], 7⟩) := by
    refine (eval_binary_of_ok ?_ (by decide) (by decide) hspent hresource).trans ?_
    · dsimp only
      omega
    · rw [ok_bind, applyBinary_lt (Entity.exactInt?_entry _) (Entity.exactInt?_entry _)]
      rfl
  rw [evaluate_of_eval hev (compile_budgetGate hkey) heval]

/-! ## The event -/

namespace Entity

/-- Within a budget something is left just if there is such a resource and one more of it can be
spent. -/
theorem InBudget.hasLeft_iff_spends {x : Entity} (h : x.InBudget) (hx : x.Narrow)
    (actor key : String) :
    x.hasLeft key = true
      ↔ (∃ limit, x.resources.get? key = some limit)
        ∧ Fits ((x.spent.get? key).getD 0 + 1) ∧ ∃ y, x.spendOne actor key = .ok y := by
  have hnonneg := h.spent_nonneg key
  rw [hasLeft, decide_eq_true_iff]
  constructor
  · intro hlt
    cases hlimit : x.resources.get? key with
    | none =>
        rw [hlimit, Option.getD_none] at hlt
        omega
    | some limit =>
        rw [hlimit, Option.getD_some] at hlt
        have hfits := hx .resources key limit hlimit
        refine ⟨⟨limit, rfl⟩, ?_, _, spendOne_eq_ok_iff.mpr ⟨fun other hother => ?_, rfl⟩⟩
        · simp only [Fits, minInteger, maxInteger] at hfits ⊢
          omega
        · obtain rfl := Option.some.inj (hlimit.symm.trans hother)
          omega
  · rintro ⟨⟨limit, hlimit⟩, -, y, hy⟩
    have hle := (spendOne_eq_ok_iff.mp hy).1 limit hlimit
    rw [hlimit, Option.getD_some]
    omega

end Entity

namespace State

/-- An entity that is not there has nothing left. -/
theorem hasLeft_iff_spends {s : State} (hsound : s.Sound) (hnarrow : s.Narrow)
    (actor key : String) :
    ((s.entities.get? actor).getD (.blank actor "")).hasLeft key = true
      ↔ (∃ x limit, s.entities.get? actor = some x ∧ x.resources.get? key = some limit)
        ∧ ∃ t, (Event.spentAdded actor key).apply s = .ok t := by
  cases hactor : s.entities.get? actor with
  | none =>
      constructor
      · intro h
        cases h
      · rintro ⟨⟨x, limit, ⟨⟩, -⟩, -⟩
  | some x =>
      have hiff := (hsound actor x hactor).2.hasLeft_iff_spends (hnarrow actor x hactor) actor key
      rw [Option.getD_some, hiff]
      constructor
      · rintro ⟨⟨limit, hlimit⟩, hsum, y, hy⟩
        exact ⟨⟨x, limit, rfl, hlimit⟩, _,
          Event.apply_spentAdded.mpr ⟨x, y, hactor, hsum, hy, rfl⟩⟩
      · rintro ⟨⟨_, limit, ⟨⟩, hlimit⟩, t, ht⟩
        obtain ⟨x', y, hx', hsum, hy, -⟩ := Event.apply_spentAdded.mp ht
        obtain rfl := Option.some.inj (hactor.symm.trans hx')
        exact ⟨⟨limit, hlimit⟩, hsum, y, hy⟩

end State

theorem View.get?_context_actor (view : View) (actor : String) (target : Option String)
    (results : Dict Value) :
    (view.context actor target results).get? "actor" = some (view.state.project actor) := by
  simp [context, Dict.get?_insert]

/-- Sheets pass their check, every integer is one of 64 bits, and any events are applied. Then the
formula has an answer whoever acts and whatever the key is: true if the actor exists, has such a
resource, and could spend one more of it in this state, and false if not. -/
theorem budgetGate_agrees_with_spending {ρ : Type} [Roller ρ] (entities : List Entity)
    (events : List Event) (hentities : ∀ x ∈ entities, x.checkSpent = .ok () ∧ x.Narrow)
    (hevents : ∀ e ∈ events, e.Narrow) (ev : Evaluator ρ) (hev : ev.Faithful)
    (hlimit : 7 ≤ ev.stepLimit) (key : String) (hkey : IsIdentifier key)
    (compendium : Compendium) (manifest : Manifest) (params : Dict Value) (approved : Bool)
    (actor : String) (target : Option String) (results : Dict Value) :
    let s := (State.genesis entities).courseBy Event.apply events
    let context := (View.of s compendium manifest params approved).context actor target results
    ∃ left : Bool, (ev.evaluate (budgetGate key) context).1.result = .ok (.bool left)
      ∧ (left = true
        ↔ (∃ x limit, s.entities.get? actor = some x ∧ x.resources.get? key = some limit)
          ∧ ∃ t, (Event.spentAdded actor key).apply s = .ok t) := by
  intro s context
  have hsound : s.Sound := (State.sound_genesis fun x hx => (hentities x hx).1).courseBy
    (fun _ _ _ => Event.applyExact_of_apply) events
  have hnarrow : s.Narrow :=
    (State.narrow_genesis fun x hx => (hentities x hx).2).courseBy hevents
  have hactor := (View.of s compendium manifest params approved).get?_context_actor actor target
    results
  exact ⟨_, Evaluator.evaluate_budgetGate hev hlimit hkey hactor,
    State.hasLeft_iff_spends hsound hnarrow actor key⟩

/-- One of two actions is spent, and one can be. Rage can be spent without end, since there is no
such resource, and for the same reason the formula says that none is left. -/
theorem budgetGate_agrees_for_hero :
    let hero : Entity :=
      { Entity.blank "hero" "Hero" with resources := .ofList [("actions", 2)] }
    let s := (State.genesis [hero]).courseBy Event.apply [.spentAdded "hero" "actions"]
    let ev : Evaluator DiceCup := .new (.scripted []) 7
    let context := (View.of s .empty .empty ∅ false).context "hero" none ∅
    (ev.evaluate (budgetGate "actions") context).1.result = .ok (.bool true)
      ∧ (ev.evaluate (budgetGate "rage") context).1.result = .ok (.bool false)
      ∧ ∃ t, (Event.spentAdded "hero" "rage").apply s = .ok t := by
  intro hero s ev context
  have hhero : hero.checkSpent = .ok () ∧ hero.Narrow := by
    refine ⟨rfl, fun sec key n hn => ?_⟩
    cases sec with
    | resources =>
        have hmem := Dict.mem_of_get?_ofList hn
        obtain rfl := (Prod.mk.inj (List.mem_singleton.mp hmem)).2
        decide
    | _ => cases hn
  have hgate := budgetGate_agrees_with_spending [hero] [.spentAdded "hero" "actions"]
    (fun x hx => List.mem_singleton.mp hx ▸ hhero) (fun e he => List.mem_singleton.mp he ▸ trivial)
    ev (Evaluator.faithful_new _ _) (Nat.le_refl 7)
  have hs : s.entities.get? "hero" = some { hero with spent := .ofList [("actions", 1)] } := by
    decide +kernel
  have hactions : ∃ t, (Event.spentAdded "hero" "actions").apply s = .ok t :=
    ⟨_, Event.apply_spentAdded.mpr ⟨_, _, hs, by decide, rfl, rfl⟩⟩
  have hrage : ∃ t, (Event.spentAdded "hero" "rage").apply s = .ok t :=
    ⟨_, Event.apply_spentAdded.mpr ⟨_, _, hs, by decide, rfl, rfl⟩⟩
  refine ⟨?_, ?_, hrage⟩
  · obtain ⟨left, hleft, hiff⟩ := hgate "actions"
      (isIdentifier_of_isName (by decide +kernel) rfl)
      .empty .empty ∅ false "hero" none ∅
    have htrue : left = true := hiff.mpr ⟨⟨_, 2, hs, rfl⟩, hactions⟩
    rw [hleft, htrue]
  · obtain ⟨left, hleft, hiff⟩ := hgate "rage"
      (isIdentifier_of_isName (by decide +kernel) rfl)
      .empty .empty ∅ false "hero" none ∅
    have hfalse : left = false := by
      cases left with
      | false => rfl
      | true =>
          obtain ⟨⟨x, limit, hx, hlimit⟩, -⟩ := hiff.mp rfl
          obtain rfl := Option.some.inj (hs.symm.trans hx)
          cases hlimit
    rw [hleft, hfalse]

end GameTable
