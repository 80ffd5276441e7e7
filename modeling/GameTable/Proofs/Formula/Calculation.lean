import GameTable.Proofs.Formula.Acceptance
import GameTable.Proofs.Formula.Steps
import GameTable.Proofs.State.Width

/-!
# Calculations with integers

A calculation is an expression of whole numbers, of names that stand for
integers or null, of minus signs, the five operators, `abs` and `mod`. It is
taken as it is written, and `Calculation.expr` is the tree that is read from it,
in which a minus in front of a number has become part of the number.

A calculation stands for an exact integer (`Calculation.integer?`). On the way to
it, divisors are asked to be other than zero and some numbers are asked to fit
into 64 bits (`Calculation.demands`). Its evaluation gives that integer, or the
error of the first demand that is not met (`integer_calculations_are_exact`).
-/

namespace GameTable.Formula

namespace Calculation

/-- The operations on one number. -/
inductive Unary where
  | neg
  | abs
  | mod

/-- The operations on two numbers. -/
inductive Binary where
  | add
  | sub
  | mul
  | div
  | rem

end Calculation

/-- A calculation with integers, as it is written. -/
inductive Calculation where
  | literal (n : Nat)
  | named (name : String)
  | unary (op : Calculation.Unary) (operand : Calculation)
  | binary (op : Calculation.Binary) (lhs rhs : Calculation)

namespace Calculation

/-! ## What is written and what is read -/

def Binary.op : Binary → BinaryOp
  | .add => .add
  | .sub => .sub
  | .mul => .mul
  | .div => .div
  | .rem => .rem

def Binary.token : Binary → Token
  | .add => .plus
  | .sub => .minus
  | .mul => .star
  | .div => .slash
  | .rem => .percent

/-- The tree of an operation on what has been read. -/
def Unary.tree (op : Unary) (operand : Expr) : Expr :=
  match op with
  | .neg => applySign .neg operand
  | .abs => .call "abs" [operand]
  | .mod => .call "mod" [operand]

/-- The tree that is read. -/
def expr : Calculation → Expr
  | .literal n => .literal (.int n)
  | .named name => .ident name
  | .unary op operand => op.tree operand.expr
  | .binary op lhs rhs => .binary op.op lhs.expr rhs.expr

/-- The tokens, with parentheses around every operation. -/
def tokens : Calculation → List Token
  | .literal n => [.int n]
  | .named name => [.ident name]
  | .unary .neg operand => .lParen :: (.minus :: operand.tokens) ++ [.rParen]
  | .unary .abs operand => .ident "abs" :: .lParen :: operand.tokens ++ [.rParen]
  | .unary .mod operand => .ident "mod" :: .lParen :: operand.tokens ++ [.rParen]
  | .binary op lhs rhs => .lParen :: (lhs.tokens ++ op.token :: rhs.tokens) ++ [.rParen]

open Phrase in
/-- The tokens derive the tree. -/
theorem primary_tokens (c : Calculation) : Primary c.tokens c.expr := by
  induction c with
  | literal n => exact .literal rfl
  | named name => exact .name
  | unary op operand ih =>
      have hplain : Operand operand.tokens operand.expr := .plain (.primary ih)
      cases op with
      | neg => exact .parenthesis (.of_operand (.signed (by simp [signs]) hplain))
      | abs => exact .call (.last (.of_operand hplain))
      | mod => exact .call (.last (.of_operand hplain))
  | binary op lhs rhs hlhs hrhs =>
      refine .parenthesis (.plain (.tighter (.tighter (.tighter ?_))))
      have hl : Operand lhs.tokens lhs.expr := .plain (.primary hlhs)
      have hr : Operand rhs.tokens rhs.expr := .plain (.primary hrhs)
      cases op with
      | add | sub =>
          exact .link (.of_operand hl _) (by simp [Binary.token, Binary.op]) (.of_operand hr _)
      | mul | div | rem =>
          exact .tighter (.link (.of_operand hl _) (by simp [Binary.token, Binary.op])
            (.operand hr))

theorem expression_tokens (c : Calculation) : Phrase.Expression c.tokens c.expr :=
  .of_operand (.plain (.primary (primary_tokens c)))

/-! ## What it stands for -/

/-- What is asked of a number on the way: that it is not zero, or that it is one of 64 bits. -/
inductive Demand where
  | nonzero (divisor : Int)
  | fits (n : Int)

/-- The error with which a calculation ends that does not meet a demand. -/
def Demand.fault? : Demand → Option FormulaError
  | .nonzero divisor => if divisor = 0 then some .divisionByZero else none
  | .fits n => if Fits n then none else some .overflow

namespace Unary

/-- The exact result; `mod` is rounded down. -/
def integer (op : Unary) (x : Int) : Int :=
  match op with
  | .neg => -x
  | .abs => x.natAbs
  | .mod => (x - 10).fdiv 2

/-- The number that has to fit: the result, or what `mod` halves. -/
def measured (op : Unary) (x : Int) : Int :=
  match op with
  | .neg => -x
  | .abs => x.natAbs
  | .mod => x - 10

def demands (op : Unary) (x : Int) : List Demand := [.fits (op.measured x)]

end Unary

namespace Binary

/-- The exact result, without its fraction; there is none of a division by zero. -/
def integer? (op : Binary) (x y : Int) : Option Int :=
  match op with
  | .add => some (x + y)
  | .sub => some (x - y)
  | .mul => some (x * y)
  | .div => if y = 0 then none else some (x.tdiv y)
  | .rem => if y = 0 then none else some (x.tmod y)

/-- The number that has to fit: the result, or of a remainder the quotient. -/
def measured (op : Binary) (x y : Int) : Int :=
  match op with
  | .add => x + y
  | .sub => x - y
  | .mul => x * y
  | .div | .rem => x.tdiv y

def demands (op : Binary) (x y : Int) : List Demand :=
  match op with
  | .div | .rem => [.nonzero y, .fits (op.measured x y)]
  | _ => [.fits (op.measured x y)]

end Binary

variable (scope : Scope)

/-- The exact integer that a calculation stands for, where null is zero. There is none if a divisor
is zero. -/
def integer? : Calculation → Option Int
  | .literal n => some n
  | .named name => (scope.lookup name).toOption.bind exactInt?
  | .unary op operand => operand.integer?.map op.integer
  | .binary op lhs rhs => lhs.integer?.bind fun x => rhs.integer?.bind (op.integer? x)

/-- All that is asked in the course of a calculation, from left to right. -/
def demands : Calculation → List Demand
  | .literal _ | .named _ => []
  | .unary op operand => operand.demands ++ ((operand.integer? scope).map op.demands).getD []
  | .binary op lhs rhs => lhs.demands ++ rhs.demands
    ++ ((lhs.integer? scope).bind fun x => (rhs.integer? scope).map (op.demands x)).getD []

/-- The error of the first demand that is not met. -/
def firstFault? (c : Calculation) : Option FormulaError := (c.demands scope).findSome? Demand.fault?

/-- Its numbers can be written in a formula, and its names stand for integers or null. -/
def Proper : Calculation → Prop
  | .literal n => n ≤ maxInteger
  | .named name => ∃ v n, scope.lookup name = .ok v ∧ exactInt? v = some n ∧ Fits n
  | .unary _ operand => operand.Proper
  | .binary _ lhs rhs => lhs.Proper ∧ rhs.Proper

/-- A name on its own that stands for null. -/
def IsNull (c : Calculation) : Prop := ∃ name, c = .named name ∧ scope.lookup name = .ok .null

/-- How many numbers, names and operations there are. -/
def size : Calculation → Nat
  | .literal _ | .named _ => 1
  | .unary _ operand => operand.size + 1
  | .binary _ lhs rhs => lhs.size + rhs.size + 1

/-! ## One operation -/

theorem fits_tmod {x : Int} (hx : Fits x) (y : Int) : Fits (x.tmod y) := by
  have hle : (x.tmod y).natAbs ≤ x.natAbs := by
    rw [Int.natAbs_tmod]
    exact Nat.mod_le ..
  have hnonneg : 0 ≤ x → 0 ≤ x.tmod y := Int.tmod_nonneg y
  have hnonpos : 0 ≤ -x → 0 ≤ -x.tmod y := fun h => Int.neg_tmod .. ▸ Int.tmod_nonneg y h
  simp only [Fits, minInteger, maxInteger] at hx ⊢
  omega

theorem checkedInt_of_fits {n : Int} (h : Fits n) : checkedInt n = .ok (.int n) := if_pos h

theorem checkedInt_of_not_fits {n : Int} (h : ¬ Fits n) : checkedInt n = .error .overflow :=
  if_neg h

/-- An operation that has its exact result, or the error of the first demand that is not met. -/
def Carries (r : Outcome Value) (demands : List Demand) (integer? : Option Int) : Prop :=
  match demands.findSome? Demand.fault? with
  | some err => r = .error err
  | none => ∃ n, integer? = some n ∧ Fits n ∧ r = .ok (.int n)

theorem carries_fits {r : Outcome Value} {measured : Int} {integer? : Option Int}
    (hfits : Fits measured → ∃ n, integer? = some n ∧ Fits n ∧ r = .ok (.int n))
    (hfault : ¬ Fits measured → r = .error .overflow) : Carries r [.fits measured] integer? := by
  unfold Carries
  by_cases h : Fits measured
  · simpa [Demand.fault?, h] using hfits h
  · simpa [Demand.fault?, h] using hfault h

theorem carries_nonzero {r : Outcome Value} {divisor : Int} {demands : List Demand}
    {integer? : Option Int} (hzero : divisor = 0 → r = .error .divisionByZero)
    (h : divisor ≠ 0 → Carries r demands integer?) :
    Carries r (.nonzero divisor :: demands) integer? := by
  unfold Carries at h ⊢
  by_cases hdivisor : divisor = 0
  · simpa [Demand.fault?, hdivisor] using hzero hdivisor
  · simpa [Demand.fault?, hdivisor] using h hdivisor

theorem carries_checkedInt (n : Int) : Carries (checkedInt n) [.fits n] (some n) :=
  carries_fits (fun h => ⟨n, rfl, h, checkedInt_of_fits h⟩) checkedInt_of_not_fits

/-- One number is measured and another one, which fits if that does, is the result. -/
theorem carries_measured {measured n : Int} (h : Fits measured → Fits n) :
    Carries (checkedInt measured >>= fun _ => checkedInt n) [.fits measured] (some n) := by
  refine carries_fits (fun hm => ⟨n, rfl, h hm, ?_⟩) fun hm => ?_
  · rw [checkedInt_of_fits hm, ok_bind, checkedInt_of_fits (h hm)]
  · rw [checkedInt_of_not_fits hm, error_bind]

/-- What an operation does with a number. -/
def Unary.apply (op : Unary) (v : Value) : Outcome Value :=
  match op with
  | .neg => applyUnary .neg v
  | .abs => callFunction "abs" [v]
  | .mod => callFunction "mod" [v]

theorem intArgument_of_exactInt? {v : Value} {x : Int} (hv : exactInt? v = some x)
    (function : String) : intArgument function v = .ok x := by
  cases v <;> cases hv <;> rfl

theorem negate_of_exactInt? {v : Value} {x : Int} (hv : exactInt? v = some x) :
    negate v = checkedInt (-x) := by
  cases v <;> cases hv <;> rfl

theorem absolute_of_exactInt? {v : Value} {x : Int} (hv : exactInt? v = some x) :
    absolute v = checkedInt x.natAbs := by
  cases v <;> cases hv <;> rfl

theorem carries_unary (op : Unary) {v : Value} {x : Int} (hv : exactInt? v = some x) :
    Carries (op.apply v) (op.demands x) (some (op.integer x)) := by
  cases op with
  | neg =>
      show Carries (negate v) _ _
      rw [negate_of_exactInt? hv]
      exact carries_checkedInt _
  | abs =>
      show Carries (absolute v) _ _
      rw [absolute_of_exactInt? hv]
      exact carries_checkedInt _
  | mod =>
      have hfloor : Unary.mod.integer x = (x - 10) / 2 := Int.fdiv_eq_ediv_of_nonneg _ (by decide)
      show Carries (intArgument "mod" v >>= modifier) _ _
      rw [intArgument_of_exactInt? hv, ok_bind, hfloor]
      refine carries_measured fun h => ?_
      simp only [Fits, minInteger, maxInteger] at h ⊢
      omega

theorem applyBinary_of_exactInt? (op : Binary) {a b : Value} {x y : Int}
    (ha : exactInt? a = some x) (hb : exactInt? b = some y) :
    applyBinary op.op a b
      = intArithmetic op.op x y (.arithmetic op.op.symbol a.typeName b.typeName) := by
  cases a <;> cases ha <;> cases b <;> cases hb <;> cases op <;> rfl

theorem carries_binary (op : Binary) {a b : Value} {x y : Int} (ha : exactInt? a = some x)
    (hb : exactInt? b = some y) (hx : Fits x) :
    Carries (applyBinary op.op a b) (op.demands x y) (op.integer? x y) := by
  rw [applyBinary_of_exactInt? op ha hb]
  cases op with
  | add | sub | mul => exact carries_checkedInt _
  | div =>
      refine carries_nonzero (fun hy => ?_) fun hy => ?_
      · rw [Binary.op, intArithmetic, if_pos hy]
      · rw [Binary.op, intArithmetic, Binary.integer?, if_neg hy, if_neg hy]
        exact carries_checkedInt _
  | rem =>
      refine carries_nonzero (fun hy => ?_) fun hy => ?_
      · rw [Binary.op, intArithmetic, if_pos hy]
      · rw [Binary.op, intArithmetic, Binary.integer?, if_neg hy, if_neg hy]
        exact carries_measured fun _ => fits_tmod hx y

/-! ## Numbers with signs -/

variable {scope : Scope}

theorem firstFault?_unary (op : Unary) (c : Calculation) :
    firstFault? scope (.unary op c) = (c.firstFault? scope).or
      ((((c.integer? scope).map op.demands).getD []).findSome? Demand.fault?) :=
  List.findSome?_append

theorem firstFault?_binary (op : Binary) (lhs rhs : Calculation) :
    firstFault? scope (.binary op lhs rhs)
      = ((lhs.firstFault? scope).or (rhs.firstFault? scope)).or
        ((((lhs.integer? scope).bind fun x => (rhs.integer? scope).map (op.demands x)).getD
          []).findSome? Demand.fault?) := by
  unfold firstFault?
  rw [demands, List.findSome?_append, List.findSome?_append]

/-- A tree that is a number is an integer with as many signs as there were. Its opposite is one of
64 bits, as it is itself. -/
theorem literal_of_expr {c : Calculation} (hc : c.Proper scope) {v : Value}
    (h : c.expr = .literal v) :
    ∃ n, v = .int n ∧ c.integer? scope = some n ∧ c.firstFault? scope = none
      ∧ Fits n ∧ Fits (-n) := by
  induction c generalizing v with
  | literal n =>
      cases h
      have hle : (n : Int) ≤ maxInteger := hc
      refine ⟨n, rfl, rfl, rfl, ?_⟩
      simp only [Fits, minInteger, maxInteger] at hle ⊢
      omega
  | named name => cases h
  | binary op lhs rhs => cases h
  | unary op operand ih =>
      cases op with
      | abs | mod => cases h
      | neg =>
          simp only [expr, Unary.tree] at h
          rw [applySign.eq_def] at h
          split at h
          · rename_i n _ hn
            obtain ⟨_, hvalue, hexact, hfault, hfits, hneg⟩ := ih hc hn
            cases hvalue
            cases h
            have hmet : Demand.fault? (.fits (-n)) = none := if_pos hneg
            refine ⟨-n, rfl, ?_, ?_, hneg, by rwa [Int.neg_neg]⟩
            · simp [integer?, hexact, Unary.integer]
            · simp [firstFault?_unary, hexact, hfault, Unary.demands, Unary.measured, hmet]
          · rename_i x _ hx
            obtain ⟨_, hvalue, -⟩ := ih hc hx
            cases hvalue
          · cases h

/-- A minus stays an operation, unless it becomes part of a number. -/
theorem applySign_of_not_literal {e : Expr} (h : ∀ v, applySign .neg e ≠ .literal v) :
    applySign .neg e = .unary .neg e := by
  rw [applySign.eq_def] at h ⊢
  split at h
  · exact absurd rfl (h _)
  · exact absurd rfl (h _)
  · rfl

/-! ## Evaluating a calculation -/

/-- What a calculation comes to: the error of the first demand that is not met, or its exact value.
That is an integer, or null where the calculation is nothing but a name that stands for null. -/
def ComesTo (scope : Scope) (c : Calculation) (r : Outcome Value) : Prop :=
  match c.firstFault? scope with
  | some err => r = .error err
  | none => ∃ v n, r = .ok v ∧ c.integer? scope = some n ∧ Fits n ∧ exactInt? v = some n
    ∧ (v = .null ↔ c.IsNull scope)

theorem comesTo_of_error {c : Calculation} {r : Outcome Value} {err : FormulaError}
    (h : c.firstFault? scope = some err) : c.ComesTo scope r ↔ r = .error err := by
  unfold ComesTo
  rw [h]

theorem comesTo_of_value {c : Calculation} {r : Outcome Value} (h : c.firstFault? scope = none) :
    c.ComesTo scope r ↔ ∃ v n, r = .ok v ∧ c.integer? scope = some n ∧ Fits n
      ∧ exactInt? v = some n ∧ (v = .null ↔ c.IsNull scope) := by
  unfold ComesTo
  rw [h]

/-- An operation whose operands met all demands comes to what it carries out. -/
theorem comesTo_of_carries {c : Calculation} {r : Outcome Value} {demands : List Demand}
    {integer? : Option Int} (h : Carries r demands integer?) (hc : ∀ name, c ≠ .named name)
    (hfault : c.firstFault? scope = demands.findSome? Demand.fault?)
    (hexact : c.integer? scope = integer?) : c.ComesTo scope r := by
  unfold Carries at h
  cases hdemands : demands.findSome? Demand.fault? with
  | some err =>
      rw [hdemands] at h hfault
      exact (comesTo_of_error hfault).mpr h
  | none =>
      rw [hdemands] at h hfault
      obtain ⟨n, rfl, hfits, rfl⟩ := h
      exact (comesTo_of_value hfault).mpr
        ⟨_, n, rfl, hexact, hfits, rfl, nofun, fun ⟨name, hname, _⟩ => absurd hname (hc name)⟩

theorem ComesTo.unary {c : Calculation} {r : Outcome Value} (h : c.ComesTo scope r) (op : Unary) :
    ComesTo scope (.unary op c) (r >>= op.apply) := by
  cases hfault : c.firstFault? scope with
  | some err =>
      obtain rfl := (comesTo_of_error hfault).mp h
      exact (comesTo_of_error (by rw [firstFault?_unary, hfault]; rfl)).mpr rfl
  | none =>
      obtain ⟨v, n, rfl, hexact, -, hv, -⟩ := (comesTo_of_value hfault).mp h
      refine comesTo_of_carries (carries_unary op hv) nofun ?_ ?_
      · rw [firstFault?_unary, hfault, hexact]
        rfl
      · rw [integer?, hexact]
        rfl

theorem ComesTo.binary_of_error {lhs : Calculation} {err : FormulaError}
    (h : lhs.ComesTo scope (.error err)) (op : Binary) (rhs : Calculation) :
    ComesTo scope (.binary op lhs rhs) (.error err) := by
  cases hfault : lhs.firstFault? scope with
  | some err' =>
      obtain rfl := Except.error.inj ((comesTo_of_error hfault).mp h)
      exact (comesTo_of_error (by rw [firstFault?_binary, hfault]; rfl)).mpr rfl
  | none =>
      obtain ⟨_, _, herror, -⟩ := (comesTo_of_value hfault).mp h
      cases herror

theorem ComesTo.binary {lhs rhs : Calculation} {a : Value} {r : Outcome Value}
    (hlhs : lhs.ComesTo scope (.ok a)) (hrhs : rhs.ComesTo scope r) (op : Binary) :
    ComesTo scope (.binary op lhs rhs) (r >>= applyBinary op.op a) := by
  cases hleft : lhs.firstFault? scope with
  | some err => cases (comesTo_of_error hleft).mp hlhs
  | none =>
      obtain ⟨_, x, ha, hx, hfits, hax, -⟩ := (comesTo_of_value hleft).mp hlhs
      cases ha
      cases hright : rhs.firstFault? scope with
      | some err =>
          obtain rfl := (comesTo_of_error hright).mp hrhs
          exact (comesTo_of_error (by rw [firstFault?_binary, hleft, hright]; rfl)).mpr rfl
      | none =>
          obtain ⟨b, y, rfl, hy, -, hby, -⟩ := (comesTo_of_value hright).mp hrhs
          refine comesTo_of_carries (carries_binary op hax hby hfits) nofun ?_ ?_
          · rw [firstFault?_binary, hleft, hright, hx, hy]
            rfl
          · rw [integer?, hx, hy]
            rfl

section

variable {ρ : Type} [Roller ρ] {m t : Machine ρ}

theorem eval_tree (hlimit : m.steps < scope.limit) (op : Unary) {e : Expr} {r : Outcome Value}
    (hplain : ∀ v, op.tree e ≠ .literal v)
    (h : eval scope e { m with steps := m.steps + 1 } = (r, t)) :
    eval scope (op.tree e) m = (r >>= op.apply, t) := by
  cases op with
  | neg =>
      rw [Unary.tree, applySign_of_not_literal hplain]
      exact eval_unary hlimit .neg h
  | abs => exact eval_call hlimit (f := .abs) rfl nofun nofun h
  | mod => exact eval_call hlimit (f := .mod) rfl nofun nofun h

theorem Binary.op_ne (op : Binary) : op.op ≠ .and ∧ op.op ≠ .or := by
  cases op <;> decide

theorem size_pos (c : Calculation) : 1 ≤ c.size := by
  cases c with
  | literal | named => exact Nat.le_refl _
  | unary | binary => exact Nat.le_add_left ..

omit [Roller ρ] in
theorem lt_of_room {c : Calculation} {limit : Nat} (hroom : m.steps + c.size ≤ limit) :
    m.steps < limit := by
  have hpos := c.size_pos
  omega

theorem eval_of_literal {c : Calculation} (hc : c.Proper scope) {v : Value}
    (h : c.expr = .literal v) (hlimit : m.steps < scope.limit) :
    eval scope c.expr m = (.ok v, { m with steps := m.steps + 1 }) ∧ c.ComesTo scope (.ok v) := by
  obtain ⟨n, rfl, hexact, hfault, hfits, -⟩ := literal_of_expr hc h
  have hnull : ¬ c.IsNull scope := by
    rintro ⟨name, rfl, -⟩
    cases h
  rw [h]
  exact ⟨eval_literal hlimit _, (comesTo_of_value hfault).mpr
    ⟨_, n, rfl, hexact, hfits, rfl, nofun, fun h => absurd h hnull⟩⟩

/-- With room for all its parts, a calculation comes to what it stands for. It rolls no dice. -/
theorem eval_expr {c : Calculation} (hc : c.Proper scope) (m : Machine ρ)
    (hroom : m.steps + c.size ≤ scope.limit) :
    ∃ r k, k ≤ c.size ∧ eval scope c.expr m = (r, { m with steps := m.steps + k })
      ∧ c.ComesTo scope r := by
  induction c generalizing m with
  | literal n => exact ⟨_, 1, Nat.le_refl _, eval_of_literal hc rfl (lt_of_room hroom)⟩
  | named name =>
      obtain ⟨v, n, hlookup, hv, hfits⟩ := hc
      have hexact : integer? scope (.named name) = some n := by
        rw [integer?, hlookup]
        exact hv
      refine ⟨.ok v, 1, Nat.le_refl _, eval_ident (lt_of_room hroom) hlookup,
        (comesTo_of_value rfl).mpr ⟨v, n, rfl, hexact, hfits, hv, ?_, ?_⟩⟩
      · rintro rfl
        exact ⟨name, rfl, hlookup⟩
      · rintro ⟨_, hname, hnull⟩
        cases hname
        exact Except.ok.inj (hlookup.symm.trans hnull)
  | unary op operand ih =>
      have hlimit := lt_of_room hroom
      -- A minus that has become part of a number is no operation any more, and takes no step.
      by_cases hliteral : ∃ v, expr (.unary op operand) = .literal v
      · obtain ⟨v, hv⟩ := hliteral
        exact ⟨.ok v, 1, size_pos _, eval_of_literal hc hv hlimit⟩
      · simp only [not_exists] at hliteral
        simp only [size] at hroom ⊢
        obtain ⟨r, k, hk, heval, hcomes⟩ :=
          ih hc { m with steps := m.steps + 1 } (by dsimp only; omega)
        rw [Nat.add_assoc] at heval
        exact ⟨_, 1 + k, by omega, eval_tree hlimit op hliteral heval, hcomes.unary op⟩
  | binary op lhs rhs hlhs hrhs =>
      have hlimit := lt_of_room hroom
      simp only [size] at hroom ⊢
      obtain ⟨r, k, hk, hleft, hcomes⟩ :=
        hlhs hc.1 { m with steps := m.steps + 1 } (by dsimp only; omega)
      rw [Nat.add_assoc] at hleft
      cases r with
      | error err =>
          exact ⟨_, 1 + k, by omega, eval_binary_of_error hlimit op.op hleft,
            hcomes.binary_of_error op rhs⟩
      | ok a =>
          obtain ⟨r, k', hk', hright, hcomes'⟩ :=
            hrhs hc.2 { m with steps := m.steps + (1 + k) } (by dsimp only; omega)
          rw [Nat.add_assoc] at hright
          exact ⟨_, 1 + k + k', by omega,
            eval_binary_of_ok hlimit op.op_ne.1 op.op_ne.2 hleft hright, hcomes.binary hcomes' op⟩

end

/-! ## Where a calculation fails -/

/-- A calculation and all those it is made of. -/
def within : Calculation → List Calculation
  | .literal n => [.literal n]
  | .named name => [.named name]
  | .unary op operand => .unary op operand :: operand.within
  | .binary op lhs rhs => .binary op lhs rhs :: (lhs.within ++ rhs.within)

/-- The number that has to fit: of a remainder the quotient, of `mod` what is halved, and otherwise
the exact value. -/
def measured? (scope : Scope) : Calculation → Option Int
  | .unary op operand => (operand.integer? scope).map op.measured
  | .binary op lhs rhs =>
    (lhs.integer? scope).bind fun x => (rhs.integer? scope).map (op.measured x)
  | c => c.integer? scope

/-- The numbers that have to fit are those of the calculations within. -/
theorem exists_of_fits_mem {c : Calculation} {n : Int} (h : .fits n ∈ c.demands scope) :
    ∃ part ∈ c.within, part.measured? scope = some n := by
  induction c with
  | literal | named => cases h
  | unary op operand ih =>
      rcases List.mem_append.mp h with h | h
      · obtain ⟨part, hpart, hn⟩ := ih h
        exact ⟨part, List.mem_cons_of_mem _ hpart, hn⟩
      · refine ⟨_, List.mem_cons_self .., ?_⟩
        cases hx : operand.integer? scope with
        | none => simp [hx] at h
        | some x =>
            obtain rfl : n = op.measured x := by simpa [hx, Unary.demands] using h
            simp [measured?, hx]
  | binary op lhs rhs hlhs hrhs =>
      rcases List.mem_append.mp h with h | h
      · rcases List.mem_append.mp h with h | h
        · obtain ⟨part, hpart, hn⟩ := hlhs h
          exact ⟨part, List.mem_cons_of_mem _ (List.mem_append_left _ hpart), hn⟩
        · obtain ⟨part, hpart, hn⟩ := hrhs h
          exact ⟨part, List.mem_cons_of_mem _ (List.mem_append_right _ hpart), hn⟩
      · refine ⟨_, List.mem_cons_self .., ?_⟩
        cases hx : lhs.integer? scope with
        | none => simp [hx] at h
        | some x =>
            cases hy : rhs.integer? scope with
            | none => simp [hx, hy] at h
            | some y =>
                obtain rfl : n = op.measured x y := by
                  cases op <;> simpa [hx, hy, Binary.demands] using h
                simp [measured?, hx, hy]

theorem exists_of_overflow {c : Calculation} (h : c.firstFault? scope = some .overflow) :
    ∃ part ∈ c.within, ∃ n, part.measured? scope = some n ∧ ¬ Fits n := by
  obtain ⟨demand, hmem, hfault⟩ := List.exists_of_findSome?_eq_some h
  cases demand with
  | nonzero divisor =>
      rw [Demand.fault?] at hfault
      split at hfault <;> cases hfault
  | fits n =>
      have hn : ¬ Fits n := by
        intro hfits
        simp [Demand.fault?, hfits] at hfault
      obtain ⟨part, hpart, hmeasured⟩ := exists_of_fits_mem hmem
      exact ⟨part, hpart, n, hmeasured, hn⟩

theorem fault_of_firstFault? {c : Calculation} {err : FormulaError}
    (h : c.firstFault? scope = some err) : err = .divisionByZero ∨ err = .overflow := by
  obtain ⟨demand, -, hfault⟩ := List.exists_of_findSome?_eq_some h
  cases demand with
  | nonzero divisor =>
      rw [Demand.fault?] at hfault
      split at hfault <;> cases hfault
      exact .inl rfl
  | fits n =>
      rw [Demand.fault?] at hfault
      split at hfault <;> cases hfault
      exact .inr rfl

/-- A calculation with integers is exact. Its tokens are read to its tree, in
which numbers have taken up the signs in front of them, unless they nest too
deep. With room for all its parts the tree is evaluated to the exact integer, or
to null for a name alone that stands for null; or, if a demand made on the way
is not met, to the error of the first such demand from left to right: a division
by zero, or an overflow, and then a number does not fit into 64 bits that has
to. No dice are rolled. -/
theorem integer_calculations_are_exact {ρ : Type} [Roller ρ] {c : Calculation}
    (hc : c.Proper scope) {m : Machine ρ} (hroom : m.steps + c.size ≤ scope.limit) :
    (∀ lexemes : List Lexeme, lexemes.map (·.token) = c.tokens ++ [.eof] →
        parse lexemes = .ok c.expr
          ∨ maxDepth < c.tokens.length ∧ ∃ limit, parse lexemes = .error (.tooDeep limit))
      ∧ ∃ r steps, eval scope c.expr m = (r, ⟨m.roller, m.rolls, steps⟩)
        ∧ c.ComesTo scope r
        ∧ ∀ err, r = .error err → err = .divisionByZero ∨ err = .overflow
          ∧ ∃ part ∈ c.within, ∃ n, part.measured? scope = some n ∧ ¬ Fits n := by
  refine ⟨fun lexemes htokens => parse_of_derives htokens (expression_tokens c), ?_⟩
  obtain ⟨r, k, -, heval, hcomes⟩ := eval_expr hc m hroom
  refine ⟨r, m.steps + k, heval, hcomes, ?_⟩
  rintro err rfl
  cases hfault : c.firstFault? scope with
  | none =>
      obtain ⟨_, _, herror, -⟩ := (comesTo_of_value hfault).mp hcomes
      cases herror
  | some err' =>
      obtain rfl := Except.error.inj ((comesTo_of_error hfault).mp hcomes)
      rcases fault_of_firstFault? hfault with rfl | rfl
      · exact .inl rfl
      · exact .inr ⟨rfl, exists_of_overflow hfault⟩

/-- With a strength of 7 and no bonus, `mod(strength) + -7 / 2 + bonus` is -5:
`mod` is rounded down and the quotient is cut off. The remainder of the least
integer divided by -1 would be 0, but the quotient does not fit. -/
theorem integer_calculations_are_exact_rounding :
    let scope : Scope := ⟨[], .ofList [("bonus", .null), ("strength", .int 7)], 9⟩
    let sum : Calculation := .binary .add
      (.binary .add (.unary .mod (.named "strength"))
        (.binary .div (.unary .neg (.literal 7)) (.literal 2)))
      (.named "bonus")
    let remainder : Calculation := .binary .rem
      (.binary .sub (.unary .neg (.literal 9223372036854775807)) (.literal 1))
      (.unary .neg (.literal 1))
    let m : Machine DiceCup := ⟨.scripted [], [], 0⟩
    sum.Proper scope ∧ m.steps + sum.size ≤ scope.limit
      ∧ (eval scope sum.expr m).1 = .ok (.int (-5))
      ∧ remainder.Proper scope ∧ m.steps + remainder.size ≤ scope.limit
      ∧ remainder.integer? scope = some 0
      ∧ (eval scope remainder.expr m).1 = .error .overflow := by
  intro scope sum remainder m
  have hliteral (n : Nat) (h : (n : Int) ≤ maxInteger) : Proper scope (.literal n) := h
  have hsum : sum.Proper scope :=
    ⟨⟨⟨_, 7, rfl, rfl, by decide⟩, hliteral 7 (by decide), hliteral 2 (by decide)⟩,
      _, 0, rfl, rfl, by decide⟩
  have hremainder : remainder.Proper scope :=
    ⟨⟨hliteral _ (by decide), hliteral 1 (by decide)⟩, hliteral 1 (by decide)⟩
  obtain ⟨-, r, _, heval, hcomes, -⟩ := integer_calculations_are_exact (m := m) hsum (by decide)
  obtain ⟨-, r', _, heval', hcomes', -⟩ :=
    integer_calculations_are_exact (m := m) hremainder (by decide)
  refine ⟨hsum, by decide, ?_, hremainder, by decide, by rfl, ?_⟩
  · obtain ⟨v, n, rfl, hexact, -, hv, -⟩ := (comesTo_of_value (by rfl)).mp hcomes
    obtain rfl : -5 = n := Option.some.inj hexact
    rw [heval]
    cases v <;> cases hv
    rfl
  · rw [heval']
    exact (comesTo_of_error (by rfl)).mp hcomes'

end Calculation

end GameTable.Formula
