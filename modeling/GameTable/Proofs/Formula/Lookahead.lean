import GameTable.Proofs.Formula.Locality

/-!
# One token ahead

A parser sees the tokens one after the other, and no more of them than the one
in front of it. So what it does is settled by those that it takes and the one at
which it stops (`Settles`): in front of any tokens that begin in the same way it
reads the same, or fails with the same fault. Only the position that it reports
is another one, if the tokens stand elsewhere.

This passes from the parts of a parser to the whole (`Settled.bind`), level by
level of nesting (`grammar_settled`). Sequences are the exception. Their fuel is
the number of all tokens that are left, those behind the sequence included. But
every item takes a token, so the fuel never runs out, and the loop is one
without fuel (`sequenceFrom_eq`).

A fault is reported at the token it is about, or one token behind it if that one
has been taken already (`Fault.delay`).
-/

namespace GameTable.Formula

open Phrase

variable {α β : Type}

/-! ## Cursors side by side -/

namespace Cursor

/-- Behind some more tokens. -/
def skip (c : Cursor) (n : Nat) : Cursor := { c with rest := c.rest.drop n }

theorem skip_one (c : Cursor) : c.skip 1 = c.advance := by
  rw [skip, advance, List.drop_one]

theorem skip_skip (c : Cursor) (m n : Nat) : (c.skip m).skip n = c.skip (m + n) := by
  simp only [skip, List.drop_drop]

theorem skip_advance (c : Cursor) (n : Nat) : c.advance.skip n = c.skip (n + 1) := by
  rw [← skip_one, skip_skip, Nat.add_comm]

theorem length_tokens (c : Cursor) : c.tokens.length = c.rest.length := List.length_map _

theorem length_skip (c : Cursor) (n : Nat) : (c.skip n).rest.length = c.rest.length - n :=
  List.length_drop

/-- The same tokens stand in front of both, the one behind `n` others included. -/
def Agrees (n : Nat) (c d : Cursor) : Prop := ∀ i ≤ n, (d.skip i).peek = (c.skip i).peek

theorem Agrees.refl (n : Nat) (c : Cursor) : c.Agrees n c := fun _ _ => rfl

theorem Agrees.mono {m n : Nat} {c d : Cursor} (h : c.Agrees n d) (hle : m ≤ n) : c.Agrees m d :=
  fun i hi => h i (Nat.le_trans hi hle)

theorem Agrees.peek_eq {n : Nat} {c d : Cursor} (h : c.Agrees n d) : d.peek = c.peek :=
  h 0 (Nat.zero_le n)

theorem Agrees.skip {m n : Nat} {c d : Cursor} (h : c.Agrees (m + n) d) :
    (c.skip m).Agrees n (d.skip m) := by
  intro i hi
  rw [skip_skip, skip_skip]
  exact h (m + i) (Nat.add_le_add_left hi m)

end Cursor

/-! ## What settles the outcome -/

/-- How many tokens behind the one that it is about a fault is reported. -/
def Fault.delay : Fault → Nat
  | .unexpected _ | .unexpectedEnd => 1
  | .expected what _ => if what = "field name" then 1 else 0
  | _ => 0

/-- What comes out of a parser, wherever its tokens stand. -/
inductive Fate (α : Type) where
  | read (a : α)
  | faulty (fault : Fault)
  | tooDeep (limit : Nat)

namespace Fate

/-- The outcome of stopping somewhere. -/
def outcome (v : Fate α) (c : Cursor) : Except FormulaError (α × Cursor) :=
  match v with
  | .read a => .ok (a, c)
  | .faulty fault => .error (.malformed (c.skip fault.delay).position fault)
  | .tooDeep limit => .error (.tooDeep limit)

/-- A fault quotes no other token than the one at which the parser stops. -/
def Quotes (v : Fate α) (t : Token) : Prop :=
  ∀ fault, v = .faulty fault → ∀ quoted, fault.quoted? = some quoted → quoted = t

theorem quotes_read (a : α) (t : Token) : (Fate.read a).Quotes t := nofun

theorem quotes_tooDeep (limit : Nat) (t : Token) : (tooDeep limit : Fate α).Quotes t := nofun

theorem quotes_faulty {fault : Fault} {t : Token}
    (h : ∀ quoted, fault.quoted? = some quoted → quoted = t) :
    (faulty fault : Fate α).Quotes t := by
  rintro _ ⟨rfl⟩
  exact h

end Fate

/-- The parser takes `n` tokens, none of them the end, and stops at the next one. Wherever the same
tokens stand, this is what comes out. -/
structure Settles (x : Parse α) (c : Cursor) (n : Nat) (v : Fate α) : Prop where
  ne_eof : ∀ i < n, (c.skip i).peek ≠ .eof
  quotes : v.Quotes (c.skip n).peek
  eq_outcome : ∀ d, c.Agrees n d → x d = v.outcome (d.skip n)

/-- The outcome is settled by the tokens up to the one at which the parser stops. -/
def Settled (x : Parse α) (c : Cursor) : Prop := ∃ n v, Settles x c n v

/-- The parser takes nothing. -/
theorem Settles.here {x : Parse α} {c : Cursor} {v : Fate α} (hquotes : v.Quotes c.peek)
    (heq : ∀ d, c.Agrees 0 d → x d = v.outcome d) : Settles x c 0 v where
  ne_eof i hi := absurd hi (Nat.not_lt_zero i)
  quotes := hquotes
  eq_outcome := heq

section Steps

/-- Parsers that go on alike from where a first one stops. -/
theorem Parse.bind_congr {x : Parse α} {f g : α → Parse β} {c : Cursor}
    (h : ∀ a c', x c = .ok (a, c') → f a c' = g a c') : (x >>= f) c = (x >>= g) c := by
  change (x c >>= fun r => f r.1 r.2) = x c >>= fun r => g r.1 r.2
  cases hx : x c with
  | ok r => exact h r.1 r.2 hx
  | error err => rfl

variable {x : Parse α} {f : α → Parse β} {c : Cursor} {n : Nat}

theorem Parse.bind_of_error {err : FormulaError} (h : x c = .error err) (f : α → Parse β) :
    (x >>= f) c = .error err := by
  change (x c >>= fun r => f r.1 r.2) = _
  rw [h]
  rfl

theorem settled_pure (a : α) (c : Cursor) : Settled (pure a) c :=
  ⟨0, .read a, .here (Fate.quotes_read a _) fun _ _ => rfl⟩

theorem settled_tooDeep (limit : Nat) (c : Cursor) : Settled (tooDeep limit : Parse α) c :=
  ⟨0, .tooDeep limit, .here (Fate.quotes_tooDeep limit _) fun _ _ => rfl⟩

theorem settled_failHere (fault : Fault) (hdelay : fault.delay = 0)
    (hquoted : ∀ t, fault.quoted? = some t → t = c.peek) :
    Settled (failHere fault : Parse α) c := by
  refine ⟨0, .faulty fault, .here (Fate.quotes_faulty hquoted) fun d _ => ?_⟩
  rw [Fate.outcome, hdelay]
  rfl

theorem settled_eat (t : Token) (ht : t ≠ .eof) (c : Cursor) : Settled (eat t) c := by
  by_cases hpeek : c.peek = t
  · refine ⟨1, .read true, fun i hi => ?_, Fate.quotes_read true _, fun d hd => ?_⟩
    · obtain rfl : i = 0 := by omega
      exact fun heof => ht (hpeek.symm.trans heof)
    · rw [eat, if_pos (hd.peek_eq.trans hpeek), Cursor.skip_one]
      rfl
  · refine ⟨0, .read false, .here (Fate.quotes_read false _) fun d hd => ?_⟩
    rw [eat, if_neg (fun heq => hpeek (hd.peek_eq.symm.trans heq))]
    rfl

/-- A parser that looks ahead first. -/
theorem settled_peek_bind {f : Token → Parse β} (h : Settled (f c.peek) c) :
    Settled (peek >>= f) c := by
  obtain ⟨n, v, hsettles⟩ := h
  refine ⟨n, v, hsettles.ne_eof, hsettles.quotes, fun d hd => ?_⟩
  rw [Parse.peek_bind, hd.peek_eq]
  exact hsettles.eq_outcome d hd

/-- A parser that takes a token first, which is not the end. -/
theorem settled_advance_bind {f : Token → Parse β} {t : Token} (hpeek : c.peek = t)
    (ht : t ≠ .eof) (h : Settled (f t) c.advance) : Settled (advance >>= f) c := by
  subst hpeek
  obtain ⟨n, v, hsettles⟩ := h
  refine ⟨n + 1, v, fun i hi => ?_, ?_, fun d hd => ?_⟩
  · cases i with
    | zero => exact ht
    | succ i =>
        rw [← Cursor.skip_advance]
        exact hsettles.ne_eof i (Nat.lt_of_succ_lt_succ hi)
  · rw [← Cursor.skip_advance]
    exact hsettles.quotes
  · rw [Parse.advance_bind, hd.peek_eq, ← Cursor.skip_advance]
    refine hsettles.eq_outcome _ fun i hi => ?_
    rw [Cursor.skip_advance, Cursor.skip_advance]
    exact hd (i + 1) (Nat.succ_le_succ hi)

/-- A parser that takes a token and fails because of it. -/
theorem settled_advance_failHere {f : Token → Parse β} (fault : Fault)
    (hfail : f c.peek = failHere fault) (hdelay : fault.delay = 1)
    (hquoted : ∀ t, fault.quoted? = some t → t = c.peek) : Settled (advance >>= f) c := by
  refine ⟨0, .faulty fault, .here (Fate.quotes_faulty hquoted) fun d hd => ?_⟩
  rw [Parse.advance_bind, hd.peek_eq, hfail, Fate.outcome, hdelay, Cursor.skip_one]
  rfl

/-- Steps in a row are settled if each is where the one before has stopped. -/
theorem Settled.bind (hx : Settled x c)
    (hf : ∀ n a, x c = .ok (a, c.skip n) → Settled (f a) (c.skip n)) : Settled (x >>= f) c := by
  obtain ⟨n, v, hsettles⟩ := hx
  cases v with
  | read a =>
      obtain ⟨m, w, hnext⟩ := hf n a (hsettles.eq_outcome c (.refl n c))
      refine ⟨n + m, w, fun i hi => ?_, ?_, fun d hd => ?_⟩
      · by_cases hlt : i < n
        · exact hsettles.ne_eof i hlt
        · have heof := hnext.ne_eof (i - n) (by omega)
          rwa [Cursor.skip_skip, Nat.add_sub_cancel' (Nat.le_of_not_lt hlt)] at heof
      · rw [← Cursor.skip_skip]
        exact hnext.quotes
      · have hread := hsettles.eq_outcome d (hd.mono (Nat.le_add_right n m))
        rw [Parse.bind_of_ok hread, hnext.eq_outcome _ hd.skip, Cursor.skip_skip]
  | faulty fault =>
      have hquoted := hsettles.quotes fault rfl
      refine ⟨n, .faulty fault, hsettles.ne_eof, Fate.quotes_faulty hquoted, fun d hd => ?_⟩
      exact Parse.bind_of_error (hsettles.eq_outcome d hd) f
  | tooDeep limit =>
      refine ⟨n, .tooDeep limit, hsettles.ne_eof, Fate.quotes_tooDeep limit _, fun d hd => ?_⟩
      exact Parse.bind_of_error (hsettles.eq_outcome d hd) f

/-- The same, where the next step is settled everywhere. -/
theorem Settled.next (hx : Settled x c) (hf : ∀ a d, Settled (f a) d) : Settled (x >>= f) c :=
  hx.bind fun _ a _ => hf a _

theorem settled_expect (t : Token) (ht : t ≠ .eof) (what : String) (hwhat : what ≠ "field name")
    (c : Cursor) : Settled (expect t what) c := by
  refine (settled_eat t ht c).next fun taken d => ?_
  cases taken with
  | true => exact settled_pure () d
  | false =>
      refine settled_peek_bind (settled_failHere (.expected what d.peek) ?_ ?_)
      · simp [Fault.delay, hwhat]
      · rintro t ⟨rfl⟩
        rfl

end Steps

/-! ## Sequences -/

section Sequences

variable {item : Parse α} {close : Token}

/-- One turn of the loop, and then what is next. -/
def sequenceTurn (item : Parse α) (close : Token) (next : List α → Parse (List α))
    (read : List α) : Parse (List α) := do
  let read := read ++ [← item]
  if ← eat close then return read
  expect .comma "','"
  if ← eat close then return read
  next read

/-- The loop, with as much fuel as there are tokens. -/
def sequenceFrom (item : Parse α) (close : Token) (read : List α) : Parse (List α) :=
  fun c => sequenceRest item close (c.rest.length + 1) read c

theorem eat_length_le {t : Token} {c c' : Cursor} {taken : Bool} (h : eat t c = .ok (taken, c')) :
    c'.rest.length ≤ c.rest.length := by
  rw [eat] at h
  split at h <;> cases h
  · simp [Cursor.advance]
  · exact Nat.le_refl _

theorem expect_length_le {t : Token} {what : String} {c c' : Cursor} {u : Unit}
    (h : expect t what c = .ok (u, c')) : c'.rest.length ≤ c.rest.length := by
  obtain ⟨taken, mid, heat, h⟩ := Parse.bind_eq_ok h
  cases taken with
  | true =>
      cases h
      exact eat_length_le heat
  | false => cases h

/-- What is next has fewer tokens in front of it. -/
theorem sequenceTurn_congr (hitem : Strict item) {next next' : List α → Parse (List α)}
    {c : Cursor} (h : ∀ read d, d.rest.length < c.rest.length → next read d = next' read d)
    (read : List α) :
    sequenceTurn item close next read c = sequenceTurn item close next' read c := by
  refine Parse.bind_congr fun a mid ha => ?_
  refine Parse.bind_congr fun closed behind hclosed => ?_
  cases closed with
  | true => rfl
  | false =>
      refine Parse.bind_congr fun _ after hcomma => ?_
      refine Parse.bind_congr fun ended last hended => ?_
      cases ended with
      | true => rfl
      | false =>
          refine h _ last ?_
          calc last.rest.length
              ≤ after.rest.length := eat_length_le hended
            _ ≤ behind.rest.length := expect_length_le hcomma
            _ ≤ mid.rest.length := eat_length_le hclosed
            _ < c.rest.length := by simpa only [Cursor.length_tokens] using hitem ha

/-- More fuel than there are tokens makes no difference. -/
theorem sequenceRest_eq_of_lt (hitem : Strict item) {fuel fuel' : Nat} {read : List α} {c : Cursor}
    (hfuel : c.rest.length < fuel) (hfuel' : c.rest.length < fuel') :
    sequenceRest item close fuel read c = sequenceRest item close fuel' read c := by
  induction fuel generalizing fuel' read c with
  | zero => exact absurd hfuel (Nat.not_lt_zero _)
  | succ fuel ih =>
      obtain ⟨fuel', rfl⟩ := Nat.exists_eq_add_one_of_ne_zero (Nat.ne_zero_of_lt hfuel')
      have hnext (read : List α) (d : Cursor) (hd : d.rest.length < c.rest.length) :
          sequenceRest item close fuel read d = sequenceRest item close fuel' read d :=
        ih (by omega) (by omega)
      exact sequenceTurn_congr hitem hnext read

/-- The loop without fuel. -/
theorem sequenceFrom_eq (hitem : Strict item) (read : List α) :
    sequenceFrom item close read = sequenceTurn item close (sequenceFrom item close) read := by
  funext c
  have hnext (read : List α) (d : Cursor) (hd : d.rest.length < c.rest.length) :
      sequenceRest item close c.rest.length read d = sequenceFrom item close read d :=
    sequenceRest_eq_of_lt hitem hd (Nat.lt_succ_self _)
  exact sequenceTurn_congr hitem hnext read

theorem sequenceFrom_settled (hitem : Strict item) (hsettled : ∀ c, Settled item c)
    (hclose : close ≠ .eof) (read : List α) (c : Cursor) :
    Settled (sequenceFrom item close read) c := by
  have hcomma (d : Cursor) : Settled (expect .comma "','") d :=
    settled_expect .comma (by decide) "','" (by decide) d
  induction hlength : c.rest.length using Nat.strongRecOn generalizing read c with
  | ind length ih =>
    subst hlength
    rw [sequenceFrom_eq hitem]
    refine (hsettled c).bind fun n a ha => ?_
    refine (settled_eat close hclose _).bind fun m closed hclosed => ?_
    cases closed with
    | true => exact settled_pure _ _
    | false =>
        refine (hcomma _).bind fun k _ _ => ?_
        refine (settled_eat close hclose _).bind fun l ended hended => ?_
        cases ended with
        | true => exact settled_pure _ _
        | false =>
            refine ih _ ?_ _ _ rfl
            have hlt := hitem ha
            simp only [Cursor.length_tokens, Cursor.length_skip] at hlt ⊢
            omega

theorem parseSequence_settled (hitem : Strict item) (hsettled : ∀ c, Settled item c)
    (close : Token) (hclose : close ≠ .eof) (c : Cursor) :
    Settled (parseSequence item close) c := by
  refine (settled_eat close hclose c).next fun closed d => ?_
  cases closed with
  | true => exact settled_pure [] d
  | false => exact sequenceFrom_settled hitem hsettled hclose [] d

end Sequences

/-! ## Level by level -/

section Phrases

variable {operand deeper expression : Nat → Parse Expr}

theorem ne_eof_of_eq_some {op? : Token → Option α} (heof : op? .eof = none) {t : Token} {op : α}
    (h : op? t = some op) : t ≠ .eof := by
  rintro rfl
  rw [heof] at h
  cases h

theorem chainRest_settled {op? : Token → Option BinaryOp} (heof : op? .eof = none)
    (hoperand : ∀ links c, Settled (operand links) c) (links : Nat) (lhs : Expr) (c : Cursor) :
    Settled (chainRest op? operand links lhs) c := by
  induction links generalizing lhs c with
  | zero =>
      rw [chainRest]
      refine settled_peek_bind ?_
      cases hop : op? c.peek with
      | none => exact settled_pure lhs c
      | some op =>
          refine settled_advance_bind rfl (ne_eof_of_eq_some heof hop) ?_
          exact settled_tooDeep maxLinks _
  | succ links ih =>
      rw [chainRest]
      refine settled_peek_bind ?_
      cases hop : op? c.peek with
      | none => exact settled_pure lhs c
      | some op =>
          refine settled_advance_bind rfl (ne_eof_of_eq_some heof hop) ?_
          exact (hoperand links _).next fun rhs d => ih _ d

theorem chain_settled (op? : Token → Option BinaryOp) (heof : op? .eof = none)
    (hoperand : ∀ links c, Settled (operand links) c) (links : Nat) (c : Cursor) :
    Settled (chain op? operand links) c :=
  (hoperand links c).next (chainRest_settled heof hoperand links)

theorem disjunction_settled (hoperand : ∀ links c, Settled (operand links) c) (links : Nat)
    (c : Cursor) : Settled (disjunction operand links) c := by
  have hproducts := chain_settled productOp? rfl hoperand
  have hsums := chain_settled sumOp? rfl hproducts
  have hrelations := chain_settled relationOp? rfl hsums
  have hconjunctions := chain_settled andOp? rfl hrelations
  exact chain_settled orOp? rfl hconjunctions links c

theorem conditional_settled (hoperand : ∀ links c, Settled (operand links) c)
    (hdeeper : ∀ links c, Settled (deeper links) c) (links : Nat) (c : Cursor) :
    Settled (conditional operand deeper links) c := by
  have hcolon (d : Cursor) : Settled (expect .colon "':'") d :=
    settled_expect .colon (by decide) "':'" (by decide) d
  refine (disjunction_settled hoperand links c).next fun cond d => ?_
  refine (settled_eat .question (by decide) d).next fun asked d => ?_
  cases asked with
  | true =>
      refine (disjunction_settled hoperand links d).next fun yes d => ?_
      refine (hcolon d).next fun _ d => ?_
      exact (hdeeper links d).next fun no d => settled_pure _ d
  | false => exact settled_pure cond d

/-- A comprehension that is written wrong is a fault of its arguments; no token is quoted. -/
theorem methodCall_settled (e : Expr) (name : String) (args : List Expr) (c : Cursor) :
    Settled (methodCall e name args) c := by
  rw [methodCall]
  cases Comprehension.named? name with
  | none => exact settled_pure _ c
  | some kind =>
      dsimp only
      split
      · exact settled_pure _ c
      · exact settled_failHere (.comprehensionVariable name) rfl (by simp [Fault.quoted?])
      · exact settled_failHere (.comprehensionArguments name) rfl (by simp [Fault.quoted?])

section Inner

variable (hexpression : ∀ links c, Settled (expression links) c)
  (hsound : ∀ links, Sound Expression (expression links))

include hexpression hsound

theorem arguments_settled (links : Nat) (close : Token) (hclose : close ≠ .eof) (c : Cursor) :
    Settled (parseSequence (expression links) close) c := by
  have hstrict : Strict (expression links) :=
    (hsound links).strict fun _ _ => (·.begins.length_pos)
  exact parseSequence_settled hstrict (hexpression links) close hclose c

theorem entries_settled (links : Nat) (c : Cursor) :
    Settled (parseSequence (entryOf expression links) .rBrace) c := by
  have hstrict : Strict (entryOf expression links) :=
    (entryOf_sound (hsound links)).strict fun _ _ => (·.begins.length_pos)
  refine parseSequence_settled hstrict (fun d => ?_) .rBrace (by decide) c
  have hcolon (d : Cursor) : Settled (expect .colon "':'") d :=
    settled_expect .colon (by decide) "':'" (by decide) d
  refine (hexpression links d).next fun key d => ?_
  refine (hcolon d).next fun _ d => ?_
  exact (hexpression links d).next fun value d => settled_pure _ d

theorem primary_settled (links : Nat) (c : Cursor) : Settled (primary expression links) c := by
  have hclose (d : Cursor) : Settled (expect .rParen "')'") d :=
    settled_expect .rParen (by decide) "')'" (by decide) d
  rw [primary]
  cases hpeek : c.peek with
  | ident name =>
      refine settled_advance_bind hpeek (by simp) ?_
      refine (settled_eat .lParen (by decide) _).next fun called d => ?_
      cases called with
      | true =>
          have hargs := arguments_settled hexpression hsound links .rParen (by decide) d
          exact hargs.next fun args d => settled_pure _ d
      | false => exact settled_pure _ d
  | lParen =>
      refine settled_advance_bind hpeek (by decide) ?_
      refine (hexpression links _).next fun inner d => ?_
      exact (hclose d).next fun _ d => settled_pure inner d
  | lBracket =>
      refine settled_advance_bind hpeek (by decide) ?_
      have hitems := arguments_settled hexpression hsound links .rBracket (by decide) c.advance
      exact hitems.next fun items d => settled_pure _ d
  | lBrace =>
      refine settled_advance_bind hpeek (by decide) ?_
      have hentries := entries_settled hexpression hsound links c.advance
      exact hentries.next fun entries d => settled_pure _ d
  | int n | double n | str s | true | false | null =>
      exact settled_advance_bind hpeek (by simp) (settled_pure _ _)
  | eof =>
      refine settled_advance_failHere .unexpectedEnd ?_ rfl (by simp [Fault.quoted?])
      rw [hpeek]
  | _ =>
      refine settled_advance_failHere (.unexpected c.peek) ?_ rfl ?_
      · rw [hpeek]
      · rintro t ⟨rfl⟩
        rfl

theorem selections_settled (links : Nat) (e : Expr) (c : Cursor) :
    Settled (selections expression links e) c := by
  have hclose (d : Cursor) : Settled (expect .rBracket "']'") d :=
    settled_expect .rBracket (by decide) "']'" (by decide) d
  induction links generalizing e c with
  | zero =>
      rw [selections]
      refine (settled_eat .dot (by decide) c).next fun dotted d => ?_
      cases dotted with
      | true => exact settled_tooDeep maxLinks d
      | false =>
          refine (settled_eat .lBracket (by decide) d).next fun indexed d => ?_
          cases indexed with
          | true => exact settled_tooDeep maxLinks d
          | false => exact settled_pure e d
  | succ links ih =>
      rw [selections]
      refine (settled_eat .dot (by decide) c).next fun dotted d => ?_
      cases dotted with
      | true =>
          cases hpeek : d.peek with
          | ident name =>
              refine settled_advance_bind hpeek (by simp) ?_
              refine (settled_eat .lParen (by decide) _).next fun called d => ?_
              cases called with
              | true =>
                  have hargs := arguments_settled hexpression hsound links .rParen (by decide) d
                  refine hargs.next fun args d => ?_
                  exact (methodCall_settled e name args d).next fun e d => ih e d
              | false => exact ih (.member e name) d
          | _ =>
              refine settled_advance_failHere (.expected "field name" d.peek) ?_ rfl ?_
              · rw [hpeek]
              · rintro t ⟨rfl⟩
                rfl
      | false =>
          refine (settled_eat .lBracket (by decide) d).next fun indexed d => ?_
          cases indexed with
          | true =>
              refine (hexpression links d).next fun position d => ?_
              exact (hclose d).next fun _ d => ih (.index e position) d
          | false => exact settled_pure e d

theorem signed_settled (hdeeper : ∀ links c, Settled (deeper links) c) (links : Nat) (c : Cursor) :
    Settled (signed deeper expression links) c := by
  rw [signed]
  refine settled_peek_bind ?_
  cases hop : signOp? c.peek with
  | some op =>
      refine settled_advance_bind rfl (ne_eof_of_eq_some rfl hop) ?_
      exact (hdeeper links _).next fun e d => settled_pure _ d
  | none =>
      have hprimary := primary_settled hexpression hsound links c
      exact hprimary.next fun e d => selections_settled hexpression hsound links e d

end Inner

end Phrases

/-- Whatever depth is left, what operands and expressions are is settled one token ahead. -/
theorem grammar_settled (depth : Nat) :
    (∀ links c, Settled ((grammar depth).expression links) c)
      ∧ ∀ links c, Settled ((grammar depth).operand links) c := by
  induction depth with
  | zero =>
      have hrefused (links : Nat) (c : Cursor) :
          Settled ((fun _ => tooDeep maxDepth : Nat → Parse Expr) links) c :=
        settled_tooDeep maxDepth c
      exact ⟨hrefused, signed_settled hrefused (grammar_sound 0).1 hrefused⟩
  | succ depth ih =>
      have hexpression := conditional_settled ih.2 ih.1
      exact ⟨hexpression, signed_settled hexpression (grammar_sound (depth + 1)).1 ih.2⟩

/-! ## A whole formula -/

/-- Reads an expression and then the end. -/
def formula : Parse Expr := do
  let e ← (grammar maxDepth).expression maxLinks
  match ← peek with
  | .eof => return e
  | other => failHere (.trailing other)

theorem parse_eq (tokens : List Lexeme) :
    parse tokens = (·.1) <$> formula (.ofTokens tokens) := by
  rw [parse]
  cases hread : (grammar maxDepth).expression maxLinks (.ofTokens tokens) with
  | error err =>
      rw [formula, Parse.bind_of_error hread]
      rfl
  | ok r =>
      rw [formula, Parse.bind_of_ok hread, Parse.peek_bind]
      cases hpeek : r.2.peek <;> simp only [ok_bind, hpeek] <;> rfl

theorem formula_settled (c : Cursor) : Settled formula c := by
  refine ((grammar_settled maxDepth).1 maxLinks c).next fun e d => ?_
  refine settled_peek_bind ?_
  cases hpeek : d.peek with
  | eof => exact settled_pure e d
  | _ =>
      refine settled_failHere (.trailing _) rfl ?_
      rintro t ⟨rfl⟩
      exact hpeek.symm

end GameTable.Formula
