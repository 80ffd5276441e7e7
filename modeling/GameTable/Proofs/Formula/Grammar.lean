import GameTable.Formula.Parser

/-!
# The grammar of formulas

Which tokens are a formula, and of which tree, without a word on how they are
read. `Phrase.Expression ts e` says that the tokens `ts` derive the tree `e`:

```
expression  := or ['?' or ':' expression]
or          := chain of and's           by ||
and         := chain of relations       by &&
relation    := chain of sums            by == != < <= > >= in
sum         := chain of products        by + -
product     := chain of operands        by * / %
operand     := ('!' | '-') operand | selection
selection   := primary, then any number of .name, .name(items), [expression]
primary     := literal | name | name(items) | (expression) | [items] | {entries}
```

The chains are one relation with the list of levels as a parameter, the loosest
level first. Parentheses leave nothing in the tree, and a minus in front of a
number becomes part of the number (`applySign`).

Every phrase has a token, begins with one that ends nothing, and holds no end
of the tokens (`Phrase.Shape`). Where it derives an integer, this is one of its
tokens, up to the sign. Items and entries are both sequences with commas
(`Phrase.Separated`).
-/

namespace GameTable.Formula

/-! ## Tokens -/

/-- The value of a token that stands for itself. -/
def Token.literal? : Token → Option Value
  | .int n => some (.int n)
  | .double x => some (.double x)
  | .str s => some (.str s)
  | .true => some (.bool Bool.true)
  | .false => some (.bool Bool.false)
  | .null => some .null
  | _ => none

/-- The tokens that may stand behind an expression. No expression begins with one of them. -/
def Token.delimits : Token → Bool
  | .rParen | .rBracket | .rBrace | .comma | .colon | .eof => Bool.true
  | _ => Bool.false

def signs : List (Token × UnaryOp) := [(.bang, .not), (.minus, .neg)]

/-- The operators of one precedence. -/
abbrev Level := List (Token × BinaryOp)

/-- The binary operators, the loosest first. -/
def levels : List Level :=
  [[(.orOr, .or)],
   [(.andAnd, .and)],
   [(.eqEq, .eq), (.notEq, .ne), (.lt, .lt), (.le, .le), (.gt, .gt), (.ge, .ge), (.in, .in)],
   [(.plus, .add), (.minus, .sub)],
   [(.star, .mul), (.slash, .div), (.percent, .rem)]]

/-! ## Phrases -/

namespace Phrase

mutual

/-- A chain of all levels, or a conditional. -/
inductive Expression : List Token → Expr → Prop
  | plain {ts : List Token} {e : Expr} : Chain levels ts e → Expression ts e
  | conditional {ts us vs : List Token} {cond yes no : Expr} :
      Chain levels ts cond → Chain levels us yes → Expression vs no →
      Expression (ts ++ .question :: us ++ .colon :: vs) (.conditional cond yes no)

/-- Operands that are joined by operators of some levels, grouped to the left. -/
inductive Chain : List Level → List Token → Expr → Prop
  | operand {ts : List Token} {e : Expr} : Operand ts e → Chain [] ts e
  | tighter {level : Level} {levels : List Level} {ts : List Token} {e : Expr} :
      Chain levels ts e → Chain (level :: levels) ts e
  | link {level : Level} {levels : List Level} {ts us : List Token} {t : Token} {op : BinaryOp}
      {lhs rhs : Expr} : Chain (level :: levels) ts lhs → (t, op) ∈ level → Chain levels us rhs →
      Chain (level :: levels) (ts ++ t :: us) (.binary op lhs rhs)

/-- A sign in front of an operand, or a primary with its selections. -/
inductive Operand : List Token → Expr → Prop
  | signed {t : Token} {op : UnaryOp} {ts : List Token} {e : Expr} :
      (t, op) ∈ signs → Operand ts e → Operand (t :: ts) (applySign op e)
  | plain {ts : List Token} {e : Expr} : Selection ts e → Operand ts e

/-- A primary with fields, method calls and indexes behind it. The methods that have the name of a
comprehension need a variable and a body. -/
inductive Selection : List Token → Expr → Prop
  | primary {ts : List Token} {e : Expr} : Primary ts e → Selection ts e
  | member {ts : List Token} {e : Expr} {name : String} :
      Selection ts e → Selection (ts ++ [.dot, .ident name]) (.member e name)
  | method {ts us : List Token} {e : Expr} {name : String} {args : List Expr} :
      Selection ts e → Comprehension.named? name = none → Items us args →
      Selection (ts ++ .dot :: .ident name :: .lParen :: us ++ [.rParen]) (.method e name args)
  | comprehension {ts us : List Token} {e body : Expr} {kind : Comprehension} {var : String} :
      Selection ts e → Items us [.ident var, body] →
      Selection (ts ++ .dot :: .ident kind.name :: .lParen :: us ++ [.rParen])
        (.comprehension e kind var body)
  | index {ts us : List Token} {e position : Expr} :
      Selection ts e → Expression us position →
      Selection (ts ++ .lBracket :: us ++ [.rBracket]) (.index e position)

inductive Primary : List Token → Expr → Prop
  | literal {t : Token} {v : Value} : t.literal? = some v → Primary [t] (.literal v)
  | name {name : String} : Primary [.ident name] (.ident name)
  | call {name : String} {ts : List Token} {args : List Expr} :
      Items ts args → Primary (.ident name :: .lParen :: ts ++ [.rParen]) (.call name args)
  | parenthesis {ts : List Token} {e : Expr} :
      Expression ts e → Primary (.lParen :: ts ++ [.rParen]) e
  | list {ts : List Token} {items : List Expr} :
      Items ts items → Primary (.lBracket :: ts ++ [.rBracket]) (.list items)
  | map {ts : List Token} {entries : List (Expr × Expr)} :
      Entries ts entries → Primary (.lBrace :: ts ++ [.rBrace]) (.map entries)

/-- Expressions with commas between them. One more comma may stand behind the last. -/
inductive Items : List Token → List Expr → Prop
  | none : Items [] []
  | last {ts : List Token} {e : Expr} : Expression ts e → Items ts [e]
  | more {ts us : List Token} {e : Expr} {items : List Expr} :
      Expression ts e → Items us items → Items (ts ++ .comma :: us) (e :: items)

/-- Keys with their values, with commas as in items. -/
inductive Entries : List Token → List (Expr × Expr) → Prop
  | none : Entries [] []
  | last {ts us : List Token} {key value : Expr} :
      Expression ts key → Expression us value → Entries (ts ++ .colon :: us) [(key, value)]
  | more {ts us vs : List Token} {key value : Expr} {entries : List (Expr × Expr)} :
      Expression ts key → Expression us value → Entries vs entries →
      Entries (ts ++ .colon :: us ++ .comma :: vs) ((key, value) :: entries)

end

/-- An operand is a chain without operators. -/
theorem Chain.of_operand {ts : List Token} {e : Expr} (h : Operand ts e) :
    ∀ ls : List Level, Chain ls ts e
  | [] => .operand h
  | _ :: ls => .tighter (of_operand h ls)

theorem Expression.of_operand {ts : List Token} {e : Expr} (h : Operand ts e) : Expression ts e :=
  .plain (.of_operand h levels)

/-! ## The shape of a phrase -/

/-- The first token is one of some tokens. -/
def Begins (p : Token → Prop) (ts : List Token) : Prop := ∃ t us, ts = t :: us ∧ p t

/-- Begins with a token that ends nothing, and goes on before the end of the tokens. -/
structure Opens (ts : List Token) : Prop where
  begins : Begins (·.delimits = false) ts
  eof_not_mem : .eof ∉ ts

/-- An integer of the tree that stands alone is a token, up to the sign. -/
def Counted (ts : List Token) (e : Expr) : Prop :=
  ∀ n, e = .literal (.int n) → ∃ m, .int m ∈ ts ∧ (n = m ∨ n = -m)

structure Shape (ts : List Token) (e : Expr) : Prop extends Opens ts where
  counted : Counted ts e

theorem Begins.append {p : Token → Prop} {ts : List Token} (h : Begins p ts) (us : List Token) :
    Begins p (ts ++ us) := by
  obtain ⟨t, rest, rfl, ht⟩ := h
  exact ⟨t, rest ++ us, rfl, ht⟩

theorem Begins.length_pos {p : Token → Prop} {ts : List Token} (h : Begins p ts) :
    0 < ts.length := by
  obtain ⟨t, us, rfl, -⟩ := h
  exact Nat.succ_pos _

theorem Opens.append {ts us : List Token} (h : Opens ts) (hus : .eof ∉ us) : Opens (ts ++ us) :=
  ⟨h.begins.append us, fun heof => (List.mem_append.mp heof).elim h.eof_not_mem hus⟩

theorem Opens.cons {t : Token} {ts : List Token} (ht : t.delimits = false) (hts : .eof ∉ ts) :
    Opens (t :: ts) := by
  refine ⟨⟨t, ts, rfl, ht⟩, ?_⟩
  rintro (_ | ⟨_, heof⟩)
  · cases ht
  · exact hts heof

theorem delimits_of_literal {t : Token} {v : Value} (h : t.literal? = some v) :
    t.delimits = false := by
  cases t <;> first | rfl | cases h

theorem delimits_of_sign {t : Token} {op : UnaryOp} (h : (t, op) ∈ signs) :
    t.delimits = false := by
  simp only [signs, List.mem_cons, Prod.mk.injEq, List.not_mem_nil, or_false] at h
  obtain ⟨rfl, -⟩ | ⟨rfl, -⟩ := h <;> rfl

theorem operators_ne_eof : ∀ level ∈ levels, ∀ o ∈ level, o.1 ≠ .eof := by decide

/-- A minus takes an integer that stands alone to its opposite, and no sign makes another one. -/
theorem Counted.applySign {ts : List Token} {e : Expr} (h : Counted ts e) (t : Token)
    (op : UnaryOp) : Counted (t :: ts) (applySign op e) := by
  intro n hn
  rw [applySign.eq_def] at hn
  split at hn
  · rename_i m
    obtain ⟨k, hk, hm⟩ := h m rfl
    obtain rfl : -m = n := by simpa using hn
    refine ⟨k, List.mem_cons_of_mem t hk, ?_⟩
    omega
  · cases hn
  · cases hn

/-! The claims go by the derivation, with one case for each rule. -/

mutual

theorem Expression.shape {ts : List Token} {e : Expr} : Expression ts e → Shape ts e
  | .plain h => h.shape (List.Subset.refl levels)
  | .conditional hcond hyes hno => by
      have hcond := hcond.shape (List.Subset.refl levels)
      have hyes := hyes.shape (List.Subset.refl levels)
      refine ⟨(hcond.append ?_).append ?_, nofun⟩
      · simp [hyes.eof_not_mem]
      · simp [hno.shape.eof_not_mem]

theorem Chain.shape {ls : List Level} (hls : ls ⊆ levels) {ts : List Token} {e : Expr} :
    Chain ls ts e → Shape ts e
  | .operand h => h.shape
  | .tighter h => h.shape (List.subset_of_cons_subset hls)
  | .link hlhs hop hrhs => by
      have hlhs := hlhs.shape hls
      have hrhs := hrhs.shape (List.subset_of_cons_subset hls)
      have heof := operators_ne_eof _ (hls (List.mem_cons_self ..)) _ hop
      refine ⟨hlhs.append ?_, nofun⟩
      simp [hrhs.eof_not_mem, heof.symm]

theorem Operand.shape {ts : List Token} {e : Expr} : Operand ts e → Shape ts e
  | .signed hop h =>
    ⟨.cons (delimits_of_sign hop) h.shape.eof_not_mem, h.shape.counted.applySign _ _⟩
  | .plain h => h.shape

theorem Selection.shape {ts : List Token} {e : Expr} : Selection ts e → Shape ts e
  | .primary h => h.shape
  | .member h => ⟨h.shape.append (by simp), nofun⟩
  | .method h _ hargs =>
    ⟨(h.shape.append (by simp [hargs.eof_not_mem])).append (by simp), nofun⟩
  | .comprehension h hargs =>
    ⟨(h.shape.append (by simp [hargs.eof_not_mem])).append (by simp), nofun⟩
  | .index h hposition =>
    ⟨(h.shape.append (by simp [hposition.shape.eof_not_mem])).append (by simp), nofun⟩

theorem Primary.shape {ts : List Token} {e : Expr} : Primary ts e → Shape ts e
  | .literal (t := t) h => by
      refine ⟨.cons (delimits_of_literal h) List.not_mem_nil, fun n hn => ?_⟩
      obtain rfl := Expr.literal.inj hn
      cases t <;> cases h
      exact ⟨n, List.mem_cons_self .., .inl rfl⟩
  | .name => ⟨.cons rfl List.not_mem_nil, nofun⟩
  | .call hargs => ⟨.cons rfl (by simp [hargs.eof_not_mem]), nofun⟩
  | .parenthesis h => by
      refine ⟨.cons rfl (by simp [h.shape.eof_not_mem]), fun n hn => ?_⟩
      obtain ⟨m, hm, heq⟩ := h.shape.counted n hn
      exact ⟨m, by simp [hm], heq⟩
  | .list hitems => ⟨.cons rfl (by simp [hitems.eof_not_mem]), nofun⟩
  | .map hentries => ⟨.cons rfl (by simp [hentries.eof_not_mem]), nofun⟩

theorem Items.eof_not_mem {ts : List Token} {items : List Expr} : Items ts items → .eof ∉ ts
  | .none => List.not_mem_nil
  | .last h => h.shape.eof_not_mem
  | .more h hrest => by simp [h.shape.eof_not_mem, hrest.eof_not_mem]

theorem Entries.eof_not_mem {ts : List Token} {entries : List (Expr × Expr)} :
    Entries ts entries → .eof ∉ ts
  | .none => List.not_mem_nil
  | .last hkey hvalue => by simp [hkey.shape.eof_not_mem, hvalue.shape.eof_not_mem]
  | .more hkey hvalue hrest => by
      simp [hkey.shape.eof_not_mem, hvalue.shape.eof_not_mem, hrest.eof_not_mem]

end

theorem Primary.begins {ts : List Token} {e : Expr} (h : Primary ts e) :
    Begins (signOp? · = none) ts := by
  cases h with
  | literal h =>
      rename_i t v
      exact ⟨t, [], rfl, by cases t <;> first | rfl | cases h⟩
  | _ => exact ⟨_, _, rfl, rfl⟩

/-- Induction on what the last field, call or index is selected from. -/
@[elab_as_elim]
theorem Selection.induction {motive : (ts : List Token) → (e : Expr) → Selection ts e → Prop}
    (primary : ∀ {ts : List Token} {e : Expr} (h : Primary ts e), motive ts e (.primary h))
    (member : ∀ {ts : List Token} {e : Expr} {name : String} (h : Selection ts e), motive ts e h →
      motive (ts ++ [.dot, .ident name]) (.member e name) (.member h))
    (method : ∀ {ts us : List Token} {e : Expr} {name : String} {args : List Expr}
      (h : Selection ts e) (hnamed : Comprehension.named? name = none) (hargs : Items us args),
      motive ts e h → motive (ts ++ .dot :: .ident name :: .lParen :: us ++ [.rParen])
        (.method e name args) (.method h hnamed hargs))
    (comprehension : ∀ {ts us : List Token} {e body : Expr} {kind : Comprehension} {var : String}
      (h : Selection ts e) (hargs : Items us [.ident var, body]),
      motive ts e h → motive (ts ++ .dot :: .ident kind.name :: .lParen :: us ++ [.rParen])
        (.comprehension e kind var body) (.comprehension h hargs))
    (index : ∀ {ts us : List Token} {e position : Expr} (h : Selection ts e)
      (hposition : Expression us position), motive ts e h →
      motive (ts ++ .lBracket :: us ++ [.rBracket]) (.index e position) (.index h hposition))
    {ts : List Token} {e : Expr} : (h : Selection ts e) → motive ts e h
  | .primary h => primary h
  | .member h => member h (h.induction primary member method comprehension index)
  | .method h hnamed hargs =>
    method h hnamed hargs (h.induction primary member method comprehension index)
  | .comprehension h hargs =>
    comprehension h hargs (h.induction primary member method comprehension index)
  | .index h hposition =>
    index h hposition (h.induction primary member method comprehension index)

/-- A sign does not begin a selection. -/
theorem Selection.begins {ts : List Token} {e : Expr} (h : Selection ts e) :
    Begins (signOp? · = none) ts := by
  induction h using Selection.induction with
  | primary h => exact h.begins
  | member _ ih => exact ih.append _
  | method _ _ _ ih | comprehension _ _ ih | index _ _ ih => exact (ih.append _).append _

/-! ## Sequences

Items and entries are both sequences with commas, so what is shown of a sequence need not be shown
twice. -/

/-- Items with commas between them; one more may stand behind the last. -/
inductive Separated {α : Type} (Item : List Token → α → Prop) : List Token → List α → Prop
  | none : Separated Item [] []
  | last {ts : List Token} {a : α} : Item ts a → Separated Item ts [a]
  | more {ts us : List Token} {a : α} {items : List α} :
      Item ts a → Separated Item us items → Separated Item (ts ++ .comma :: us) (a :: items)

theorem Separated.begins {α : Type} {Item : List Token → α → Prop} {first : Token → Prop}
    {ts : List Token} {items : List α} (h : Separated Item ts items)
    (hitem : ∀ ts a, Item ts a → Begins first ts) (hsome : items ≠ []) : Begins first ts := by
  cases h with
  | none => exact absurd rfl hsome
  | last ha => exact hitem _ _ ha
  | more ha _ => exact (hitem _ _ ha).append _

theorem Items.separated {ts : List Token} {items : List Expr} :
    Items ts items → Separated Expression ts items
  | .none => .none
  | .last h => .last h
  | .more h hrest => .more h hrest.separated

theorem items_iff_separated {ts : List Token} {items : List Expr} :
    Items ts items ↔ Separated Expression ts items := by
  refine ⟨Items.separated, fun h => ?_⟩
  induction h with
  | none => exact .none
  | last he => exact .last he
  | more he _ ih => exact .more he ih

/-- A key with its value. -/
def Entry (ts : List Token) (entry : Expr × Expr) : Prop :=
  ∃ us vs, ts = us ++ .colon :: vs ∧ Expression us entry.1 ∧ Expression vs entry.2

theorem Entries.separated {ts : List Token} {entries : List (Expr × Expr)} :
    Entries ts entries → Separated Entry ts entries
  | .none => .none
  | .last hkey hvalue => .last ⟨_, _, rfl, hkey, hvalue⟩
  | .more hkey hvalue hrest => .more ⟨_, _, rfl, hkey, hvalue⟩ hrest.separated

theorem entries_iff_separated {ts : List Token} {entries : List (Expr × Expr)} :
    Entries ts entries ↔ Separated Entry ts entries := by
  refine ⟨Entries.separated, fun h => ?_⟩
  induction h with
  | none => exact .none
  | last he =>
      obtain ⟨us, vs, rfl, hkey, hvalue⟩ := he
      exact .last hkey hvalue
  | more he _ ih =>
      obtain ⟨us, vs, rfl, hkey, hvalue⟩ := he
      exact .more hkey hvalue ih

theorem Expression.begins {ts : List Token} {e : Expr} (h : Expression ts e) :
    Begins (·.delimits = false) ts := h.shape.begins

theorem Entry.begins {ts : List Token} {entry : Expr × Expr} (h : Entry ts entry) :
    Begins (·.delimits = false) ts := by
  obtain ⟨us, vs, rfl, hkey, -⟩ := h
  exact hkey.begins.append _

end Phrase

end GameTable.Formula
