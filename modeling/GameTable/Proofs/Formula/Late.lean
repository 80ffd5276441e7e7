import GameTable.Formula.Eval
import GameTable.Proofs.Result

/-!
# What fails late

A formula that was compiled is read, within the limits of depth, and its calls
are known functions with the right number of arguments. What is computed from
values after that fails for what the values are (`Late`), and never for one of
these reasons again.
-/

namespace GameTable.Formula

/-- If it fails, then for a reason that does not show without evaluating. -/
structure Late {α : Type} (r : Outcome α) : Prop where
  isCompileError_eq : ∀ {e}, r = .error e → e.isCompileError = false

section Late

variable {α β : Type}

@[simp] theorem late_ok (a : α) : Late (.ok a : Outcome α) where
  isCompileError_eq h := by cases h

@[simp] theorem late_pure (a : α) : Late (pure a : Outcome α) := late_ok a

@[simp] theorem late_error_iff {e : FormulaError} :
    Late (.error e : Outcome α) ↔ e.isCompileError = false := by
  constructor
  · intro h
    exact h.isCompileError_eq rfl
  · intro h
    constructor
    rintro _ ⟨⟩
    exact h

@[simp] theorem late_typeError (fault : TypeFault) : Late (typeError fault : Outcome α) :=
  late_error_iff.mpr rfl

theorem Late.bind {r : Outcome α} {next : α → Outcome β} (h : Late r)
    (hnext : ∀ a, Late (next a)) : Late (r >>= next) := by
  constructor
  intro e he
  rcases bind_eq_error he with hr | ⟨a, -, ha⟩
  · exact h.isCompileError_eq hr
  · exact (hnext a).isCompileError_eq ha

theorem late_mapM {f : α → Outcome β} (h : ∀ a, Late (f a)) (l : List α) : Late (l.mapM f) := by
  induction l with
  | nil => exact late_pure _
  | cons a rest ih =>
      rw [List.mapM_cons]
      exact (h a).bind fun _ => ih.bind fun _ => late_pure _

end Late

theorem late_truth (op : String) (v : Value) : Late (truth op v) := by
  cases v <;> simp [truth]

theorem late_checkedInt (n : Int) : Late (checkedInt n) := by
  rw [checkedInt]
  split
  · exact late_ok _
  · exact late_error_iff.mpr rfl

theorem late_negate (v : Value) : Late (negate v) := by
  cases v <;> simp [negate, late_checkedInt]

theorem late_intArithmetic (op : BinaryOp) (x y : Int) (mismatch : TypeFault) :
    Late (intArithmetic op x y mismatch) := by
  have hzero : Late (.error .divisionByZero : Outcome Value) := late_error_iff.mpr rfl
  cases op with
  | div =>
      rw [intArithmetic]
      split
      · exact hzero
      · exact late_checkedInt _
  | rem =>
      rw [intArithmetic]
      split
      · exact hzero
      · exact (late_checkedInt _).bind fun _ => late_checkedInt _
  | _ => simp [intArithmetic, late_checkedInt]

theorem late_floatArithmetic (op : BinaryOp) (x y : Float) (mismatch : TypeFault) :
    Late (floatArithmetic op x y mismatch) := by
  cases op <;> simp only [floatArithmetic, late_ok, late_typeError]
  all_goals
    split
    · exact late_error_iff.mpr rfl
    · exact late_ok _

theorem late_arithmetic (op : BinaryOp) (a b : Value) : Late (arithmetic op a b) := by
  simp only [arithmetic]
  split
  · exact late_intArithmetic ..
  · split
    · exact late_floatArithmetic ..
    · exact late_typeError _

theorem late_add (a b : Value) : Late (add a b) := by
  rw [add.eq_def]
  split
  · exact late_ok _
  · split
    · exact late_ok _
    · exact late_arithmetic ..
  · split
    · exact late_ok _
    · exact late_arithmetic ..
  · exact late_arithmetic ..

theorem late_compareValues (op : BinaryOp) (a b : Value) : Late (compareValues op a b) := by
  rw [compareValues]
  split
  · exact late_ok _
  · exact late_typeError _

theorem late_membership (needle v : Value) : Late (membership needle v) := by
  cases v <;> simp [membership]

theorem late_applyBinary (op : BinaryOp) (a b : Value) : Late (applyBinary op a b) := by
  cases op with
  | eq | ne => exact late_ok _
  | lt | le | gt | ge => exact (late_compareValues ..).bind fun _ => late_pure _
  | «in» => exact (late_membership ..).bind fun _ => late_pure _
  | add => exact late_add ..
  | sub | mul | div | rem => exact late_arithmetic ..
  | and =>
      refine (late_truth ..).bind fun holds => ?_
      cases holds with
      | true => exact (late_truth ..).bind fun _ => late_pure _
      | false => exact late_pure _
  | or =>
      refine (late_truth ..).bind fun holds => ?_
      cases holds with
      | true => exact late_pure _
      | false => exact (late_truth ..).bind fun _ => late_pure _

theorem late_applyUnary (op : UnaryOp) (v : Value) : Late (applyUnary op v) := by
  cases op with
  | not => exact (late_truth ..).bind fun _ => late_pure _
  | neg => exact late_negate v

theorem late_selectField (field : String) (v : Value) : Late (selectField field v) := by
  cases v <;> simp [selectField]

theorem late_selectIndex (target position : Value) : Late (selectIndex target position) := by
  rw [selectIndex.eq_def]
  split
  · exact late_ok _
  · dsimp only
    split
    · exact late_ok _
    · exact late_typeError _
  · exact late_ok _
  · exact late_typeError _

theorem late_iterated (v : Value) : Late (iterated v) := by
  cases v <;> simp [iterated]

theorem late_keyText (v : Value) : Late (keyText v) := by
  cases v <;> simp [keyText]

theorem late_lookup (scope : Scope) (name : String) : Late (scope.lookup name) := by
  rw [Scope.lookup]
  split
  · exact late_ok _
  · split
    · exact late_ok _
    · split
      · exact late_ok _
      · exact late_error_iff.mpr rfl

theorem late_judge (kind : Comprehension) (item result : Value) :
    Late (kind.judge item result) := by
  cases kind with
  | map => exact late_ok _
  | any | all | filter => exact (late_truth ..).bind fun _ => late_pure _

/-! ## Functions and methods -/

theorem late_intArgument (function : String) (v : Value) : Late (intArgument function v) := by
  rw [intArgument.eq_def]
  split
  · exact late_ok _
  · exact late_ok _
  · split
    · split
      · exact late_ok _
      · exact late_typeError _
    · exact late_typeError _
  · exact late_typeError _

theorem late_modifier (score : Int) : Late (modifier score) :=
  (late_checkedInt _).bind fun _ => late_checkedInt _

theorem late_sizeOf (v : Value) : Late (sizeOf v) := by
  cases v <;> simp [sizeOf]

theorem late_toDouble (function : String) (v : Value) : Late (toDouble function v) := by
  rw [toDouble.eq_def]
  split
  · split
    · exact late_ok _
    · exact late_typeError _
  · split
    · exact late_ok _
    · exact late_typeError _

theorem late_toInt (v : Value) : Late (toInt v) := by
  rw [toInt.eq_def]
  split
  · exact late_ok _
  · exact late_ok _
  · split
    · exact late_ok _
    · exact late_typeError _

theorem late_absolute (v : Value) : Late (absolute v) := by
  rw [absolute.eq_def]
  split
  · exact late_ok _
  · exact (late_intArgument ..).bind fun _ => late_checkedInt _

theorem late_extremum (function : Function) (items : List Value) :
    Late (extremum function items) := by
  rw [extremum.eq_def]
  split
  · exact late_typeError _
  · split
    · exact late_checkedInt _
    · refine (late_mapM (fun v => ?_) _).bind fun floats => ?_
      · split
        · exact late_ok _
        · exact late_typeError _
      · dsimp only
        split
        · exact late_ok _
        · exact late_ok _

theorem late_receiverText (method : Method) (v : Value) : Late (receiverText method v) := by
  cases v <;> simp [receiverText]

theorem late_contains (target : Value) (args : List Value) : Late (contains target args) := by
  cases target <;> simp [contains]

/-- A function that exists and depends on its arguments alone. -/
theorem late_callFunction {name : String} {f : Function} (h : Function.named? name = some f)
    (hroll : f ≠ .roll) (hhas : f ≠ .has) (args : List Value) : Late (callFunction name args) := by
  simp only [callFunction, h]
  cases f with
  | roll => exact absurd rfl hroll
  | has => exact absurd rfl hhas
  | mod => exact (late_intArgument ..).bind fun _ => late_modifier _
  | sizeRank | getCondition | string | stat => exact late_ok _
  | float | double => exact late_toDouble ..
  | int => exact late_toInt _
  | size => exact late_sizeOf _
  | abs => exact late_absolute _
  | min | max =>
      dsimp only
      split
      · exact late_extremum ..
      · exact late_extremum ..

theorem late_callMethod {name : String} {method : Method} (h : Method.named? name = some method)
    (target : Value) (args : List Value) : Late (callMethod name target args) := by
  simp only [callMethod, h]
  cases method with
  | size => exact late_sizeOf _
  | contains => exact late_contains ..
  | lower | upper | startsWith | endsWith =>
      exact (late_receiverText ..).bind fun _ => late_pure _

end GameTable.Formula
