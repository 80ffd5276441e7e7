import GameTable.Formula.Program
import GameTable.Proofs.Formula.Evaluation
import GameTable.Proofs.Formula.Lookahead
import GameTable.Proofs.Formula.Positions

/-!
# How a formula fails to compile

A text fails to compile as the lexer, the parser or the check of its tree fails.
The lexer only ever finds it malformed, the parser malformed or too deep, and
the check goes through the nodes of the tree in the order in which they are
written (`check_eq_forM`), and fails at the first call that is not right.

All these errors show without evaluating anything. One of them is not counted
among those that do: that the one argument of `has` selects no field
(`Program.compile_error_counts_iff`).
-/

namespace GameTable.Formula

/-! ## The nodes of a tree -/

namespace Expr

/-- The expressions in an expression, itself included, in the order in which they begin. -/
def nodes (e : Expr) : List Expr := e :: e.parts.attach.flatMap fun part => part.1.nodes
termination_by SizeOf.sizeOf e
decreasing_by exact sizeOf_lt_of_mem_parts part.2

theorem nodes_eq (e : Expr) : e.nodes = e :: e.parts.flatMap nodes := by
  rw [nodes, List.flatMap_subtype (g := nodes) fun _ _ => rfl, List.unattach_attach]

/-- What an expression calls exists and takes as many arguments, and a lone argument of `has`
selects a field. -/
def CallsRight : Expr → Prop
  | .call name args =>
    (∃ f, Function.named? name = some f ∧ accepts f.arity args.length = true)
      ∧ (name = "has" → ∀ arg, args = [arg] → ∃ target field, arg = .member target field)
  | .method _ name args =>
    ∃ m, Method.named? name = some m ∧ accepts m.arity args.length = true
  | _ => True

/-- The first call that is not right is one of `has`, and all that is wrong with it is that its
argument selects no field. -/
def Unselected (e : Expr) : Prop :=
  ∃ front arg back, e.nodes = front ++ .call "has" [arg] :: back
    ∧ (∀ node ∈ front, node.CallsRight) ∧ ∀ target field, arg ≠ .member target field

end Expr

/-- The check of one node. -/
def checkNode : Expr → Except FormulaError Unit
  | .call name args => do
    checkArity name ((Function.named? name).map (·.arity)) args.length
    checkSelection name args
  | .method _ name args => checkArity name ((Method.named? name).map (·.arity)) args.length
  | _ => .ok ()

theorem checkAll_eq_forM (es : List Expr) : checkAll es = forM es check := by
  induction es with
  | nil => rfl
  | cons e rest ih =>
      rw [checkAll, ih]
      rfl

theorem checkEntries_eq_forM (entries : List (Expr × Expr)) :
    checkEntries entries = forM (entries.flatMap fun (k, v) => [k, v]) check := by
  induction entries with
  | nil => rfl
  | cons entry rest ih =>
      rw [checkEntries, ih]
      rfl

/-- A node is checked before its parts. -/
theorem check_eq_parts (e : Expr) :
    check e = (checkNode e >>= fun _ => forM e.parts check) := by
  cases e <;>
    simp only [check, checkNode, Expr.parts, checkAll_eq_forM, checkEntries_eq_forM, ok_bind,
      bind_assoc, List.forM_cons, List.forM_nil, bind_pure_unit]
  all_goals rfl

theorem forM_check_eq {es : List Expr} (h : ∀ e ∈ es, check e = forM e.nodes checkNode) :
    forM es check = forM (es.flatMap Expr.nodes) checkNode := by
  induction es with
  | nil => rfl
  | cons e rest ih =>
      rw [List.forall_mem_cons] at h
      rw [List.forM_cons, List.flatMap_cons, List.forM_append, h.1, ih h.2]

/-- The nodes are checked in the order in which they are written. -/
theorem check_eq_forM (e : Expr) : check e = forM e.nodes checkNode := by
  induction e using Expr.induction_on_parts with
  | h e ih => rw [check_eq_parts, Expr.nodes_eq, List.forM_cons, forM_check_eq ih]

theorem checkArity_eq_ok_iff {name : String} {arity? : Option (Nat × Option Nat)} {found : Nat} :
    checkArity name arity? found = .ok ()
      ↔ ∃ arity, arity? = some arity ∧ accepts arity found = true := by
  refine ⟨checkArity_eq_ok, ?_⟩
  rintro ⟨arity, rfl, haccepts⟩
  exact if_pos haccepts

theorem isCompileError_of_checkArity {name : String} {arity? : Option (Nat × Option Nat)}
    {found : Nat} {err : FormulaError} (h : checkArity name arity? found = .error err) :
    err.isCompileError = true := by
  rw [checkArity.eq_def] at h
  split at h
  · cases h
    rfl
  · split at h <;> cases h
    rfl

theorem checkSelection_eq_ok_iff {name : String} {args : List Expr} :
    checkSelection name args = .ok ()
      ↔ (name = "has" → ∀ arg, args = [arg] → ∃ target field, arg = .member target field) := by
  rw [checkSelection.eq_def]
  split
  · simp
  · rename_i arg hmember
    split
    · rename_i hhas
      refine ⟨nofun, fun h => ?_⟩
      obtain ⟨target, field, rfl⟩ := h hhas arg rfl
      exact absurd rfl (hmember target field)
    · rename_i hhas
      exact ⟨fun _ heq => absurd heq hhas, fun _ => rfl⟩
  · rename_i hlone
    refine ⟨fun _ _ arg harg => absurd harg (hlone arg), fun _ => rfl⟩

theorem checkSelection_eq_error {name : String} {args : List Expr} {err : FormulaError}
    (h : checkSelection name args = .error err) :
    err = .type .fieldSelection ∧ name = "has"
      ∧ ∃ arg, args = [arg] ∧ ∀ target field, arg ≠ .member target field := by
  rw [checkSelection.eq_def] at h
  split at h
  · cases h
  · rename_i arg hmember
    split at h <;> cases h
    exact ⟨rfl, ‹_›, arg, rfl, hmember⟩
  · cases h

theorem checkNode_eq_ok_iff {e : Expr} : checkNode e = .ok () ↔ e.CallsRight := by
  cases e <;>
    simp only [checkNode, Expr.CallsRight, andThen_eq_ok_iff, checkArity_eq_ok_iff,
      checkSelection_eq_ok_iff, Option.map_eq_some_iff, exists_exists_and_eq_and]

theorem checkNode_eq_error {e : Expr} {err : FormulaError} (h : checkNode e = .error err) :
    err.isCompileError = true
      ∨ err = .type .fieldSelection
        ∧ ∃ arg, e = .call "has" [arg] ∧ ∀ target field, arg ≠ .member target field := by
  cases e with
  | call name args =>
      rcases bind_eq_error h with harity | ⟨_, _, hselection⟩
      · exact .inl (isCompileError_of_checkArity harity)
      · obtain ⟨rfl, rfl, arg, rfl, harg⟩ := checkSelection_eq_error hselection
        exact .inr ⟨rfl, arg, rfl, harg⟩
  | method target name args => exact .inl (isCompileError_of_checkArity h)
  | _ => cases h

theorem check_eq_error_iff {e : Expr} {err : FormulaError} :
    check e = .error err
      ↔ ∃ front node back, e.nodes = front ++ node :: back ∧ (∀ n ∈ front, n.CallsRight)
        ∧ checkNode node = .error err := by
  rw [check_eq_forM]
  simp only [← checkNode_eq_ok_iff]
  exact forM_eq_error_iff

theorem Expr.Unselected.check_eq {e : Expr} (h : e.Unselected) :
    check e = .error (.type .fieldSelection) := by
  obtain ⟨front, arg, back, hnodes, hfront, harg⟩ := h
  refine check_eq_error_iff.mpr ⟨front, _, back, hnodes, hfront, ?_⟩
  have harity : checkArity "has" ((Function.named? "has").map (·.arity)) 1 = .ok () := by
    decide +kernel
  have hselection : checkSelection "has" [arg] = .error (.type .fieldSelection) := by
    cases arg with
    | member target field => exact absurd rfl (harg target field)
    | _ => rfl
  change (checkArity "has" ((Function.named? "has").map (·.arity)) 1 >>= _) = _
  rw [harity, ok_bind, hselection]

/-- The check fails with an error that shows before anything is evaluated, or as an argument of
`has` selects no field. -/
theorem counts_or_unselected_of_check {e : Expr} {err : FormulaError} (h : check e = .error err) :
    err.isCompileError = true ∨ err = .type .fieldSelection ∧ e.Unselected := by
  obtain ⟨front, node, back, hnodes, hfront, hnode⟩ := check_eq_error_iff.mp h
  rcases checkNode_eq_error hnode with hcounts | ⟨rfl, arg, rfl, harg⟩
  · exact .inl hcounts
  · exact .inr ⟨rfl, front, arg, back, hnodes, hfront, harg⟩

/-! ## The lexer and the parser -/

theorem isCompileError_of_tokenize {source : String} {err : FormulaError}
    (h : tokenize source = .error err) : err.isCompileError = true := by
  obtain ⟨position, fault, rfl, -⟩ := position_lt_of_tokenize h
  rfl

theorem isCompileError_of_parse {tokens : List Lexeme} {err : FormulaError}
    (h : parse tokens = .error err) : err.isCompileError = true := by
  obtain ⟨n, v, hsettles⟩ := formula_settled (.ofTokens tokens)
  rw [parse_eq, hsettles.eq_outcome _ (.refl n _)] at h
  cases v with
  | read e => cases h
  | faulty fault =>
      cases h
      rfl
  | tooDeep limit =>
      cases h
      rfl

end GameTable.Formula

namespace GameTable

open Formula

theorem Program.compile_of_unselected {source : String} {tokens : List Lexeme} {e : Expr}
    (htokens : tokenize source = .ok tokens) (he : parse tokens = .ok e) (h : e.Unselected) :
    compile source = .error (.type .fieldSelection) := by
  rw [compile, htokens, ok_bind, he, ok_bind, h.check_eq, error_bind]

theorem Program.counts_or_unselected_of_compile {source : String} {err : FormulaError}
    (h : compile source = .error err) :
    err.isCompileError = true
      ∨ err = .type .fieldSelection
        ∧ ∃ tokens e, tokenize source = .ok tokens ∧ parse tokens = .ok e ∧ e.Unselected := by
  rcases bind_eq_error h with htokens | ⟨tokens, htokens, h⟩
  · exact .inl (isCompileError_of_tokenize htokens)
  rcases bind_eq_error h with he | ⟨e, he, h⟩
  · exact .inl (isCompileError_of_parse he)
  rcases bind_eq_error h with hcheck | ⟨_, -, h⟩
  · rcases counts_or_unselected_of_check hcheck with hcounts | ⟨hfault, hunselected⟩
    · exact .inl hcounts
    · exact .inr ⟨hfault, tokens, e, htokens, he, hunselected⟩
  · cases h

/-- The error of a formula that does not compile counts among those that show without evaluating
it, unless the first call that is not right is one of `has` with an argument that selects no
field. Then it counts among the errors of types. -/
theorem Program.compile_error_counts_iff {source : String} {err : FormulaError}
    (h : compile source = .error err) :
    (err.isCompileError = true
        ↔ ¬ ∃ tokens e, tokenize source = .ok tokens ∧ parse tokens = .ok e ∧ e.Unselected)
      ∧ (err.isCompileError = false → err = .type .fieldSelection) := by
  rcases counts_or_unselected_of_compile h with hcounts | ⟨rfl, hunselected⟩
  · refine ⟨⟨?_, fun _ => hcounts⟩, fun hnot => ?_⟩
    · rintro - ⟨tokens, e, htokens, he, hunselected⟩
      rw [compile_of_unselected htokens he hunselected] at h
      cases h
      cases hcounts
    · rw [hcounts] at hnot
      cases hnot
  · exact ⟨⟨nofun, fun hnone => absurd hunselected hnone⟩, fun _ => rfl⟩

/-- The arguments of `mod` are counted before it is seen that `has` gets a name. -/
theorem Program.compile_error_counts_mod :
    compile "mod(1, 2) + has(actor)" = .error (.arity "mod" 1 (some 1) 2)
      ∧ ((FormulaError.arity "mod" 1 (some 1) 2).isCompileError = true
        ↔ ¬ ∃ tokens e, tokenize "mod(1, 2) + has(actor)" = .ok tokens ∧ parse tokens = .ok e
          ∧ e.Unselected)
      ∧ ((FormulaError.arity "mod" 1 (some 1) 2).isCompileError = false
        → FormulaError.arity "mod" 1 (some 1) 2 = .type .fieldSelection) := by
  have h : compile "mod(1, 2) + has(actor)" = .error (.arity "mod" 1 (some 1) 2) := by
    decide +kernel
  exact ⟨h, compile_error_counts_iff h⟩

theorem Program.unselected_does_not_count :
    compile "has(actor)" = .error (.type .fieldSelection)
      ∧ (FormulaError.type .fieldSelection).isCompileError = false := by
  exact ⟨by decide +kernel, rfl⟩

end GameTable
