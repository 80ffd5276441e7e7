import GameTable.Proofs.Formula.Acceptance
import GameTable.Proofs.Formula.Evaluator
import GameTable.Proofs.Formula.Steps
import GameTable.Proofs.Value.Equality

/-!
# Two tests of membership

Whether something is in a list, a map or a text can be asked by an operator,
`x in h`, and by a method, `h.contains(x)`. Both have an answer whenever there is
something to search, or null (`Value.Searchable`), and each goes its own way to it.

In a list the operator looks for an item that is loosely equal, and the method
for one that is strictly equal. So the operator finds whatever the method finds,
and it may find more. In a map and in a text both look for the text of what is
asked for, and that of null is empty for the operator and `null` for the method.

Where the two differ is said exactly (`TestsAgree`). It takes a null or a float.
-/

namespace GameTable

namespace Value

/-- Has members to look for, though there may be none. -/
def Searchable : Value → Prop
  | .list _ | .map _ | .str _ | .null => True
  | _ => False

theorem text_eq_display {v : Value} (h : v ≠ .null) : v.text = v.display := by
  cases v with
  | null => exact absurd rfl h
  | _ => rfl

theorem Plain.ne_null {v : Value} (h : v.Plain) : v ≠ .null := fun hnull => by
  rw [hnull] at h
  exact h

end Value

namespace Formula

/-! ## The operator and the method -/

theorem occursIn_iff {part cs : List Char} : occursIn part cs = true ↔ part <:+: cs := by
  induction cs with
  | nil => simp [occursIn]
  | cons c cs ih => simp [occursIn, List.infix_cons_iff, ih]

/-- The two tests have the same answer. In a list something loosely equal has to
come with something strictly equal. Null is taken for the empty name or text by the
one test and for `null` by the other, and everything has an empty part. -/
def TestsAgree (needle : Value) : Value → Prop
  | .list items =>
      (∃ item ∈ items, item.looseEq needle = true) → ∃ item ∈ items, item.strictEq needle = true
  | .map entries =>
      needle = .null →
        (Entries.get? entries "").isSome = (Entries.get? entries "null").isSome
  | .str s => needle = .null → "null".toList <:+: s.toList
  | _ => True

theorem membership_contains {needle h : Value} (hneedle : needle.Ordered) (hh : h.Ordered)
    (hsearch : h.Searchable) :
    ∃ p q : Bool, membership needle h = .ok p ∧ contains h [needle] = .ok (.bool q)
      ∧ (p = q ↔ TestsAgree needle h) := by
  cases h with
  | list items =>
      refine ⟨_, _, rfl, rfl, ?_⟩
      have hitems := Value.orderedItems_iff.mp hh
      have hfinds : (∃ item ∈ items, item.strictEq needle = true) →
          ∃ item ∈ items, item.looseEq needle = true :=
        fun ⟨item, hmem, heq⟩ => ⟨item, hmem, (Value.matched (hitems item hmem) hneedle).loose heq⟩
      rw [List.head?_cons, Option.any_some, Bool.eq_iff_iff, List.any_eq_true, List.any_eq_true]
      exact ⟨Iff.mp, fun h => ⟨h, hfinds⟩⟩
  | map entries =>
      refine ⟨_, _, rfl, rfl, ?_⟩
      by_cases hnull : needle = .null
      · subst hnull
        exact ⟨fun h _ => h, fun h => h rfl⟩
      · rw [Value.text_eq_display hnull]
        exact ⟨fun _ h => absurd h hnull, fun _ => rfl⟩
  | str s =>
      refine ⟨_, _, rfl, rfl, ?_⟩
      rw [Bool.eq_iff_iff, occursIn_iff, occursIn_iff]
      by_cases hnull : needle = .null
      · subst hnull
        exact ⟨fun h _ => h.mp (List.nil_infix), fun h => ⟨fun _ => h rfl, fun _ => List.nil_infix⟩⟩
      · rw [Value.text_eq_display hnull]
        exact ⟨fun _ h => absurd h hnull, fun _ => .rfl⟩
  | null => exact ⟨false, false, rfl, rfl, fun _ => trivial, fun _ => rfl⟩
  | _ => exact hsearch.elim

/-- Without nulls and floats there is nothing to differ about. -/
theorem testsAgree_of_plain {needle h : Value} (hneedle : needle.Ordered) (hh : h.Ordered)
    (hplain : needle.Plain) (hhplain : h.Plain) : TestsAgree needle h := by
  cases h with
  | list items =>
      rintro ⟨item, hmem, heq⟩
      have hmatched := Value.matched (Value.orderedItems_iff.mp hh item hmem) hneedle
      exact ⟨item, hmem, hmatched.strict (Value.plainItems_iff.mp hhplain item hmem) hplain heq⟩
  | map entries => exact fun hnull => absurd hnull hplain.ne_null
  | str s => exact fun hnull => absurd hnull hplain.ne_null
  | _ => trivial

/-! ## The two formulas -/

open Phrase in
theorem compile_in :
    Program.compile "x in h" = .ok ⟨"x in h", .binary .in (.ident "x") (.ident "h")⟩ := by
  have hname (name : String) : Operand [.ident name] (.ident name) := .plain (.primary .name)
  have htokenize : tokenize "x in h"
      = .ok [⟨.ident "x", 0⟩, ⟨.in, 2⟩, ⟨.ident "h", 5⟩, ⟨.eof, 6⟩] := by decide +kernel
  have hderives : Expression ([.ident "x"] ++ .in :: [.ident "h"])
      (.binary .in (.ident "x") (.ident "h")) :=
    .plain (.tighter (.tighter (.link (.of_operand (hname "x") _) (by simp)
      (.of_operand (hname "h") _))))
  exact compile_of_derives htokenize rfl hderives (by decide) rfl

open Phrase in
theorem compile_contains :
    Program.compile "h.contains(x)"
      = .ok ⟨"h.contains(x)", .method (.ident "h") "contains" [.ident "x"]⟩ := by
  have htokenize : tokenize "h.contains(x)"
      = .ok [⟨.ident "h", 0⟩, ⟨.dot, 1⟩, ⟨.ident "contains", 2⟩, ⟨.lParen, 10⟩, ⟨.ident "x", 11⟩,
        ⟨.rParen, 12⟩, ⟨.eof, 13⟩] := by decide +kernel
  have hmethod : Comprehension.named? "contains" = none := by decide +kernel
  have harg : Items [.ident "x"] [.ident "x"] := .last (.of_operand (.plain (.primary .name)))
  have hreceiver : Selection [.ident "h"] (.ident "h") := .primary .name
  have hcall := Selection.method hreceiver hmethod harg
  exact compile_of_derives htokenize rfl (.of_operand (.plain hcall)) (by decide) rfl

end Formula

open Formula

namespace Evaluator

variable {ρ : Type} [Roller ρ] {ev : Evaluator ρ} {context : Dict Value} {h x : Value}

theorem eval_name (ev : Evaluator ρ) {name : String} {v : Value}
    (hv : context.get? name = some v) {n : Nat} (hlimit : n < ev.stepLimit) :
    eval ⟨[], context, ev.stepLimit⟩ (.ident name) ⟨ev.roller, [], n⟩
      = (.ok v, ⟨ev.roller, [], n + 1⟩) :=
  eval_ident hlimit (lookup_of_get? hv)

theorem evaluate_in (hev : ev.Faithful) (hlimit : 3 ≤ ev.stepLimit)
    (hh : context.get? "h" = some h) (hx : context.get? "x" = some x) :
    (ev.evaluate "x in h" context).1 = ⟨membership x h >>= fun p => .ok (.bool p), []⟩ := by
  have hneedle := ev.eval_name hx (n := 1) (by omega)
  have hhaystack := ev.eval_name hh (n := 2) (by omega)
  have heval : eval ⟨[], context, ev.stepLimit⟩ (.binary .in (.ident "x") (.ident "h"))
      ⟨ev.roller, [], 0⟩ = (applyBinary .in x h, ⟨ev.roller, [], 3⟩) :=
    eval_binary_of_ok (Nat.lt_of_lt_of_le (Nat.succ_pos 2) hlimit) (by decide) (by decide) hneedle
      hhaystack
  exact evaluate_of_eval hev compile_in heval

theorem evaluate_contains (hev : ev.Faithful) (hlimit : 3 ≤ ev.stepLimit)
    (hh : context.get? "h" = some h) (hx : context.get? "x" = some x) :
    (ev.evaluate "h.contains(x)" context).1 = ⟨contains h [x], []⟩ := by
  have hhaystack := ev.eval_name hh (n := 1) (by omega)
  have hneedle := ev.eval_name hx (n := 2) (by omega)
  have heval : eval ⟨[], context, ev.stepLimit⟩ (.method (.ident "h") "contains" [.ident "x"])
      ⟨ev.roller, [], 0⟩ = (callMethod "contains" h [x], ⟨ev.roller, [], 3⟩) :=
    eval_method (Nat.lt_of_lt_of_le (Nat.succ_pos 2) hlimit) hhaystack hneedle
  exact evaluate_of_eval hev compile_contains heval

/-- Whatever there is to search and whatever is looked for, both formulas have an
answer, and it is the same just where the two tests agree. Where there is neither a
null nor a float they do. -/
theorem membership_formulas_agree_iff (hev : ev.Faithful) (hlimit : 3 ≤ ev.stepLimit)
    (hh : context.get? "h" = some h) (hx : context.get? "x" = some x) (hhordered : h.Ordered)
    (hxordered : x.Ordered) (hsearch : h.Searchable) :
    ∃ p q : Bool, (ev.evaluate "x in h" context).1 = ⟨.ok (.bool p), []⟩
      ∧ (ev.evaluate "h.contains(x)" context).1 = ⟨.ok (.bool q), []⟩
      ∧ (p = q ↔ TestsAgree x h)
      ∧ (x.Plain → h.Plain → p = q) := by
  obtain ⟨p, q, hp, hq, hagree⟩ := membership_contains hxordered hhordered hsearch
  refine ⟨p, q, ?_, ?_, hagree, fun hxplain hhplain => ?_⟩
  · rw [evaluate_in hev hlimit hh hx, hp, ok_bind]
  · rw [evaluate_contains hev hlimit hh hx, hq]
  · exact hagree.mpr (testsAgree_of_plain hxordered hhordered hxplain hhplain)

/-- A missing value is a key of no map of resources, whichever name it goes by. -/
theorem membership_formulas_agree_on_resources :
    let ev : Evaluator DiceCup := .new (.scripted []) 3
    let context : Dict Value := .ofList [("h", .map [("hp", .int 30), ("rage", .null)]), ("x", .null)]
    (ev.evaluate "x in h" context).1 = ⟨.ok (.bool false), []⟩
      ∧ (ev.evaluate "h.contains(x)" context).1 = ⟨.ok (.bool false), []⟩ := by
  intro ev context
  have hlt : "hp" < "rage" := by decide
  have hsorted (v w : Value) : Entries.Sorted [("hp", v), ("rage", w)] :=
    List.pairwise_pair.mpr hlt
  have hordered : Value.Ordered (.map [("hp", .int 30), ("rage", .null)]) := by
    simp [Value.Ordered, Value.OrderedEntries, hsorted]
  have hh : context.get? "h" = some (.map [("hp", .int 30), ("rage", .null)]) := rfl
  have hx : context.get? "x" = some .null := rfl
  have hev : ev.Faithful := faithful_new _ _
  obtain ⟨p, q, hp, hq, hagree, -⟩ := membership_formulas_agree_iff hev (Nat.le_refl 3) hh hx
    hordered trivial trivial
  obtain rfl : p = q := hagree.mpr fun _ => rfl
  have hnone : (ev.evaluate "x in h" context).1 = ⟨.ok (.bool false), []⟩ :=
    evaluate_in hev (Nat.le_refl 3) hh hx
  obtain rfl : false = p := by simpa using hnone.symm.trans hp
  exact ⟨hp, hq⟩

/-- Null is in every text for the operator, and the method looks for `null`. An
integer is in a list for the operator if the float of the same value is. -/
theorem membership_formulas_differ :
    let ev : Evaluator DiceCup := .new (.scripted []) 10000
    let missing : Dict Value := .ofList [("h", .str "fighter"), ("x", .null)]
    let rolled : Dict Value := .ofList [("h", .list [.int 2]), ("x", .double 2.0)]
    (ev.evaluate "x in h" missing).1 = ⟨.ok (.bool true), []⟩
      ∧ (ev.evaluate "h.contains(x)" missing).1 = ⟨.ok (.bool false), []⟩
      ∧ (ev.evaluate "x in h" rolled).1 = ⟨.ok (.bool true), []⟩
      ∧ (ev.evaluate "h.contains(x)" rolled).1 = ⟨.ok (.bool false), []⟩ := by
  intro ev missing rolled
  have hev : ev.Faithful := faithful_new _ _
  have hlimit : 3 ≤ ev.stepLimit := by decide
  have hmissing : missing.get? "h" = some (.str "fighter") ∧ missing.get? "x" = some .null := by
    decide +kernel
  have hrolled : rolled.get? "h" = some (.list [.int 2])
      ∧ rolled.get? "x" = some (.double 2.0) := by
    decide +kernel
  have hpart : membership .null (.str "fighter") = .ok true := rfl
  have hitem : membership (.double 2.0) (.list [.int 2]) = .ok true := by decide +kernel
  refine ⟨?_, ?_, ?_, ?_⟩
  · rw [evaluate_in hev hlimit hmissing.1 hmissing.2, hpart, ok_bind]
  · rw [evaluate_contains hev hlimit hmissing.1 hmissing.2]
    rfl
  · rw [evaluate_in hev hlimit hrolled.1 hrolled.2, hitem, ok_bind]
  · rw [evaluate_contains hev hlimit hrolled.1 hrolled.2]
    rfl

end Evaluator

end GameTable
