import GameTable.Proofs.Formula.Parsing

/-!
# Whatever is derived is read

A phrase is read as a whole and to the right tree in front of every token that
may follow it (`Complete`). The parsers look ahead by one token, so it has to be
known which tokens these are. Behind an expression there is one that delimits
it; a chain ends in front of these, and of the operators of all looser levels
(`Ends`); a selection ends in front of what is not an opening parenthesis, which
would make a call of it.

A parser gives up only for want of room. A token takes at most one level of
nesting and at most one link, so there is room for a phrase of no more tokens
than there are levels and links left (`grammar_complete`).

Derivations of chains and selections grow to the right, but the loops that read
them begin at the left. `Continues` turns this around: reading a phrase and
going on comes to the same as going on behind the phrase, and `Turn` is what
one turn of the loop adds.
-/

namespace GameTable.Formula

open Phrase

variable {α β : Type}

/-! ## Outcomes -/

/-- A value is read and some tokens are left; or else there was no room, and it is too deep. -/
def Yields (room : Prop) (result : Except FormulaError (α × Cursor)) (a : α)
    (rest : List Token) : Prop :=
  (∃ c, result = .ok (a, c) ∧ c.tokens = rest)
    ∨ ¬ room ∧ ∃ limit, result = .error (.tooDeep limit)

theorem yields_ok (room : Prop) (a : α) (c : Cursor) : Yields room (.ok (a, c)) a c.tokens :=
  .inl ⟨c, rfl, rfl⟩

theorem yields_tooDeep {room : Prop} (h : ¬ room) (limit : Nat) (a : α) (rest : List Token) :
    Yields room (.error (.tooDeep limit)) a rest := .inr ⟨h, limit, rfl⟩

theorem Yields.mono {room more : Prop} {result : Except FormulaError (α × Cursor)} {a : α}
    {rest : List Token} (h : Yields room result a rest) (hroom : more → room) :
    Yields more result a rest :=
  h.imp_right fun h => ⟨fun hmore => h.1 (hroom hmore), h.2⟩

/-- Steps in a row yield what the last yields. Where there is room for all there is for each. -/
theorem Yields.bind {room part : Prop} {p : Parse α} {next : α → Parse β} {c : Cursor} {a : α}
    {mid rest : List Token} {b : β} (h : Yields part (p c) a mid) (hroom : room → part)
    (hnext : ∀ c', c'.tokens = mid → Yields room (next a c') b rest) :
    Yields room ((p >>= next) c) b rest := by
  change Yields room (p c >>= fun r => next r.1 r.2) b rest
  obtain ⟨c', hp, hmid⟩ | ⟨hno, limit, hp⟩ := h
  · rw [hp]
    exact hnext c' hmid
  · rw [hp]
    exact yields_tooDeep (fun h => hno (hroom h)) ..

/-! ## What may follow a phrase -/

/-- The tokens that go on with what has just been read, as a selection or a call. -/
def Token.selects : Token → Bool
  | .dot | .lBracket | .lParen => Bool.true
  | _ => Bool.false

/-- A token in front of which a chain of some levels ends. -/
structure Ends (ls : List Level) (t : Token) : Prop where
  selects : t.selects = false
  operators : ∀ level ∈ ls, ∀ o ∈ level, o.1 ≠ t

theorem Ends.ne {ls : List Level} {t u : Token} (h : Ends ls t) (hu : u.selects = true) :
    t ≠ u := by
  rintro rfl
  cases h.selects.symm.trans hu

theorem Ends.tighter {level : Level} {ls : List Level} {t : Token} (h : Ends (level :: ls) t) :
    Ends ls t :=
  ⟨h.selects, fun l hl => h.operators l (List.mem_cons_of_mem _ hl)⟩

/-- There is no operator of the level where its chain ends. -/
theorem Finds.eq_none {op? : Token → Option BinaryOp} {level : Level} {ls : List Level} {t : Token}
    (hop : Finds op? level) (h : Ends (level :: ls) t) : op? t = none := by
  refine Option.eq_none_iff_forall_ne_some.mpr fun op hsome => ?_
  exact h.operators level (List.mem_cons_self ..) _ ((hop _ _).mp hsome) rfl

theorem ends_of_delimits {t : Token} (h : t.delimits = true) : Ends levels t := by
  cases t with
  | rParen | rBracket | rBrace | comma | colon | eof => exact ⟨rfl, by decide⟩
  | _ => cases h

/-- No operator of a level is one of a tighter level, and none selects. -/
theorem levels_apart :
    levels.Pairwise (fun level tighter => ∀ o ∈ level, ∀ o' ∈ tighter, o'.1 ≠ o.1)
      ∧ ∀ level ∈ levels, ∀ o ∈ level, o.1.selects = false := by
  decide

/-- Reads whatever is derived, in front of any token that may follow, if it has no more tokens than
there is room for. -/
def Complete (R : List Token → α → Prop) (follows : Token → Prop) (size : Nat) (p : Parse α) :
    Prop :=
  ∀ ⦃ts a⦄, R ts a → ∀ rest, follows (front rest) → ∀ c : Cursor, c.tokens = ts ++ rest →
    Yields (ts.length ≤ size) (p c) a rest

/-- Reads phrases with some depth left, whatever the number of links. -/
def CompleteAt (R : List Token → α → Prop) (follows : Token → Prop) (depth : Nat)
    (p : Nat → Parse α) : Prop :=
  ∀ links, Complete R follows (min depth links) (p links)

/-! ## Loops

A chain and a selection are read by loops that carry along what has been read. To read a phrase
and go on is to go on behind it. -/

/-- Whatever the loop yields behind the phrase, `p` yields in front of it. The links that are gone
by then are at most the tokens of the phrase. -/
def Continues (loop : Nat → Expr → Parse Expr) (p : Nat → Parse Expr) (depth : Nat)
    (follows : Token → Prop) (ts : List Token) (e : Expr) : Prop :=
  ∀ ⦃rest⦄, follows (front rest) → ∀ (links : Nat) (c : Cursor), c.tokens = ts ++ rest →
    ∀ (room : Prop) (a : Expr) (final : List Token), (room → ts.length ≤ min depth links) →
      (∀ left c', c'.tokens = rest → links ≤ left + ts.length →
        Yields room (loop left e c') a final) →
      Yields room (p links c) a final

/-- One turn of the loop takes the tokens `us`, and a link if one is left. -/
structure Turn (loop : Nat → Expr → Parse Expr) (depth : Nat) (us rest : List Token)
    (e e' : Expr) : Prop where
  ne_nil : us ≠ []
  refused {c : Cursor} : c.tokens = us ++ rest → ∃ limit, loop 0 e c = .error (.tooDeep limit)
  taken {left : Nat} {c : Cursor} : c.tokens = us ++ rest →
    ∀ {room : Prop} {a : Expr} {final : List Token}, (room → us.length ≤ min depth (left + 1)) →
      (∀ c', c'.tokens = rest → Yields room (loop left e' c') a final) →
      Yields room (loop (left + 1) e c) a final

section Loops

variable {loop : Nat → Expr → Parse Expr} {p : Nat → Parse Expr} {depth : Nat}
  {follows more : Token → Prop} {ts us : List Token} {e e' : Expr}

theorem Continues.turn (h : Continues loop p depth follows ts e)
    (hfollows : ∀ rest, follows (front (us ++ rest)))
    (hturn : ∀ rest, more (front rest) → Turn loop depth us rest e e') :
    Continues loop p depth more (ts ++ us) e' := by
  intro rest hrest links c hc room a final hroom hgo
  have hturn := hturn rest hrest
  have hpos := List.length_pos_iff.mpr hturn.ne_nil
  rw [List.length_append] at hroom hgo
  rw [List.append_assoc] at hc
  refine h (hfollows rest) links c hc room a final (fun hwide => ?_) fun left c' hc' hleft => ?_
  · have := hroom hwide
    omega
  · cases left with
    | zero =>
        obtain ⟨limit, hrefused⟩ := hturn.refused hc'
        rw [hrefused]
        refine yields_tooDeep (fun hwide => ?_) ..
        have := hroom hwide
        omega
    | succ left =>
        refine hturn.taken hc' (fun hwide => ?_) fun c'' hc'' => ?_
        · have := hroom hwide
          omega
        · exact hgo left c'' hc'' (by omega)

/-- A phrase is read where the loop stops behind it. -/
theorem Continues.yields (h : Continues loop p depth follows ts e) {rest : List Token}
    (hrest : follows (front rest))
    (hstop : ∀ left c, c.peek = front rest → loop left e c = .ok (e, c)) (links : Nat) {c : Cursor}
    (hc : c.tokens = ts ++ rest) : Yields (ts.length ≤ min depth links) (p links c) e rest := by
  refine h hrest links c hc _ e rest id fun left c' hc' _ => ?_
  rw [hstop left c' (Cursor.peek_of_tokens hc'), ← hc']
  exact yields_ok ..

end Loops

/-! ## Chains -/

section Chains

variable {op? : Token → Option BinaryOp} {level : Level} {ls : List Level} {depth : Nat}
  {next : Nat → Parse Expr}

theorem chain_continues (hop : Finds op? level) (hends : ∀ o ∈ level, Ends ls o.1)
    (hnext : CompleteAt (Chain ls) (Ends ls) depth next) {ts : List Token} {e : Expr} :
    Chain (level :: ls) ts e →
    Continues (chainRest op? next) (chain op? next) depth (Ends ls) ts e
  | .tighter h => by
      intro rest hrest links c hc room a final hroom hgo
      exact (hnext links h rest hrest c hc).bind hroom fun c' hc' =>
        hgo links c' hc' (Nat.le_add_right ..)
  | @Chain.link _ _ _ _ t op _ _ hlhs hmem hrhs => by
      have hlhs := chain_continues hop hends hnext hlhs
      refine hlhs.turn (fun _ => hends _ hmem) fun rest hrest => ?_
      have hpeek {c : Cursor} {us : List Token} (hc : c.tokens = t :: us) :
          op? c.peek = some op := by
        rw [Cursor.peek_of_tokens hc]
        exact (hop _ _).mpr hmem
      refine ⟨List.cons_ne_nil _ _, fun hc => ?_, fun {left c} hc {room a final} hroom hgo => ?_⟩
      · exact ⟨_, chainRest_zero_of_some (hpeek hc) ..⟩
      · rw [chainRest_of_some (hpeek hc)]
        refine (hnext left hrhs _ hrest _ (Cursor.advance_of_tokens hc)).bind (fun hwide => ?_) hgo
        have := hroom hwide
        rw [List.length_cons] at this
        omega

theorem chain_complete (hop : Finds op? level) (hends : ∀ o ∈ level, Ends ls o.1)
    (hnext : CompleteAt (Chain ls) (Ends ls) depth next) :
    CompleteAt (Chain (level :: ls)) (Ends (level :: ls)) depth (chain op? next) := by
  intro links ts e h rest hrest c hc
  refine (chain_continues hop hends hnext h).yields hrest.tighter (fun left c' hpeek => ?_) links hc
  exact chainRest_of_none (hpeek ▸ hop.eq_none hrest) ..

/-- Level by level from the tightest: the operators of a level may stand behind a chain of the
tighter ones. -/
theorem levels_induction {motive : List (Token → Option BinaryOp) → List Level → Prop}
    (nil : motive [] [])
    (cons : ∀ {op? level ops ls}, Finds op? level → (∀ o ∈ level, Ends ls o.1) → motive ops ls →
      motive (op? :: ops) (level :: ls)) : motive readers levels := by
  suffices h : ∀ {ops : List (Token → Option BinaryOp)} {ls : List Level},
      List.Forall₂ Finds ops ls →
      ls.Pairwise (fun level tighter => ∀ o ∈ level, ∀ o' ∈ tighter, o'.1 ≠ o.1) →
      (∀ level ∈ ls, ∀ o ∈ level, o.1.selects = false) → motive ops ls from
    h finds_readers levels_apart.1 levels_apart.2
  intro ops ls hfinds hapart hselects
  induction hfinds with
  | nil => exact nil
  | cons hop _ ih =>
      obtain ⟨hlevel, hapart⟩ := List.pairwise_cons.mp hapart
      rw [List.forall_mem_cons] at hselects
      refine cons hop (fun o ho => ⟨hselects.1 o ho, ?_⟩) (ih hapart hselects.2)
      exact fun tighter htighter o' ho' => hlevel tighter htighter o ho o' ho'

theorem disjunction_complete {operand : Nat → Parse Expr}
    (hoperand : CompleteAt Operand (Ends []) depth operand) :
    CompleteAt (Chain levels) (Ends levels) depth (disjunction operand) := by
  refine levels_induction (motive := fun ops ls =>
    CompleteAt (Chain ls) (Ends ls) depth (ops.foldr chain operand)) ?_ fun hop hends ih => ?_
  · intro links ts e h rest hrest c hc
    cases h with
    | operand h => exact hoperand links h rest hrest c hc
  · exact chain_complete hop hends ih

end Chains

/-! ## Sequences -/

section Sequences

variable {Item : List Token → α → Prop} {item : Parse α} {size : Nat} {close : Token}

/-- A comma is followed by another item, or it is the last token in front of the end. -/
theorem sequenceRest_yields (hitem : Complete Item (·.delimits = true) size item)
    (hbegins : ∀ ts a, Item ts a → Begins (·.delimits = false) ts)
    (hclose : close.delimits = true) (hcomma : close ≠ .comma) {ts : List Token} {items : List α}
    (h : Separated Item ts items) (hsome : items ≠ []) {fuel : Nat} {read : List α} {c : Cursor}
    {rest : List Token} (hc : c.tokens = ts ++ close :: rest) (hfuel : ts.length ≤ fuel) :
    Yields (ts.length ≤ size) (sequenceRest item close fuel read c) (read ++ items) rest := by
  induction h generalizing fuel read c with
  | none => exact absurd rfl hsome
  | @last ts a ha =>
      have hpos := (hbegins ts a ha).length_pos
      obtain ⟨fuel, rfl⟩ : ∃ n, fuel = n + 1 := ⟨fuel - 1, by omega⟩
      rw [sequenceRest]
      refine (hitem ha (close :: rest) hclose c hc).bind id fun c' hc' => ?_
      rw [Parse.eat_bind_of_eq (Cursor.peek_of_cons hc'), ← Cursor.advance_of_tokens hc']
      exact yields_ok ..
  | @more ts us a items ha hitems ih =>
      rw [List.length_append, List.length_cons] at hfuel ⊢
      obtain ⟨fuel, rfl⟩ : ∃ n, fuel = n + 1 := ⟨fuel - 1, by omega⟩
      rw [List.append_assoc] at hc
      rw [sequenceRest]
      refine (hitem ha (.comma :: us ++ close :: rest) rfl c hc).bind (by omega)
        fun c' hc' => ?_
      have hnext := Cursor.advance_of_tokens hc'
      rw [Parse.eat_bind_of_ne (Cursor.peek_of_cons hc' ▸ hcomma.symm), if_neg Bool.false_ne_true,
        Parse.expect_bind_of_eq (Cursor.peek_of_cons hc')]
      cases items with
      | nil =>
          cases hitems
          rw [Parse.eat_bind_of_eq (Cursor.peek_of_cons hnext), ← Cursor.advance_of_tokens hnext]
          exact yields_ok ..
      | cons b items =>
          obtain ⟨t, vs, rfl, ht⟩ := hitems.begins hbegins (List.cons_ne_nil _ _)
          have hne : c'.advance.peek ≠ close := by
            rw [Cursor.peek_of_cons hnext]
            rintro rfl
            cases ht.symm.trans hclose
          rw [Parse.eat_bind_of_ne hne, if_neg Bool.false_ne_true,
            List.append_cons read a (b :: items)]
          have hrest : Yields _ (sequenceRest item close fuel (read ++ [a]) c'.advance) _ rest :=
            ih (List.cons_ne_nil _ _) hnext (by omega)
          refine hrest.mono ?_
          omega

variable (close) in
theorem parseSequence_yields (hitem : Complete Item (·.delimits = true) size item)
    (hbegins : ∀ ts a, Item ts a → Begins (·.delimits = false) ts)
    (hclose : close.delimits = true) (hcomma : close ≠ .comma) {ts : List Token} {items : List α}
    (h : Separated Item ts items) {c : Cursor} {rest : List Token}
    (hc : c.tokens = ts ++ close :: rest) :
    Yields (ts.length ≤ size) (parseSequence item close c) items rest := by
  rw [parseSequence]
  cases items with
  | nil =>
      cases h
      rw [Parse.eat_bind_of_eq (Cursor.peek_of_cons hc), ← Cursor.advance_of_tokens hc]
      exact yields_ok ..
  | cons a items =>
      have hfuel : ts.length ≤ c.rest.length + 1 := by
        have hlength := congrArg List.length hc
        rw [Cursor.tokens, List.length_map, List.length_append] at hlength
        omega
      have hne : c.peek ≠ close := by
        obtain ⟨t, vs, rfl, ht⟩ := h.begins hbegins (List.cons_ne_nil _ _)
        rw [Cursor.peek_of_cons hc]
        rintro rfl
        cases ht.symm.trans hclose
      rw [Parse.eat_bind_of_ne hne]
      exact sequenceRest_yields hitem hbegins hclose hcomma h (List.cons_ne_nil _ _) hc hfuel

end Sequences

/-! ## Operands -/

section Operands

variable {depth : Nat} {expression : Nat → Parse Expr}

/-- A field is selected. An opening parenthesis behind it would make a call of it. -/
theorem selections_field {name : String} {rest : List Token} (hrest : front rest ≠ .lParen)
    {c : Cursor} (hc : c.tokens = .dot :: .ident name :: rest) (links : Nat) (e : Expr) :
    selections expression (links + 1) e c
      = selections expression links (.member e name) c.advance.advance := by
  have hname := Cursor.advance_of_tokens hc
  have hpeek : c.advance.advance.peek ≠ .lParen :=
    Cursor.peek_of_tokens (Cursor.advance_of_tokens hname) ▸ hrest
  rw [selections_dot (Cursor.peek_of_cons hc), Parse.advance_bind, Cursor.peek_of_cons hname]
  dsimp only
  rw [Parse.eat_bind_of_ne hpeek]
  rfl

/-- A field behind what has been read. -/
theorem field_turn {name : String} {e : Expr} {rest : List Token} (hrest : front rest ≠ .lParen) :
    Turn (selections expression) depth [.dot, .ident name] rest e (.member e name) where
  ne_nil := List.cons_ne_nil _ _
  refused hc := ⟨_, selections_zero (.inl (Cursor.peek_of_cons hc)) ..⟩
  taken {left c} hc {room a final} hroom hgo := by
    rw [selections_field hrest hc]
    exact hgo _ (Cursor.advance_of_tokens (Cursor.advance_of_tokens hc))

theorem primary_name {name : String} {rest : List Token} (hrest : front rest ≠ .lParen)
    {c : Cursor} (hc : c.tokens = .ident name :: rest) (room : Prop) (links : Nat) :
    Yields room (primary expression links c) (.ident name) rest := by
  have hnext : c.advance.tokens = rest := Cursor.advance_of_tokens hc
  have hpeek : c.advance.peek ≠ .lParen := Cursor.peek_of_tokens hnext ▸ hrest
  rw [primary, Parse.advance_bind, Cursor.peek_of_cons hc]
  dsimp only
  rw [Parse.eat_bind_of_ne hpeek, ← hnext]
  exact yields_ok ..

theorem primary_list {ts : List Token} {c : Cursor} (hc : c.tokens = .lBracket :: ts)
    {room : Prop} {links : Nat} {items : List Expr} {rest : List Token}
    (hitems : Yields room (parseSequence (expression links) .rBracket c.advance) items rest) :
    Yields room (primary expression links c) (.list items) rest := by
  rw [primary, Parse.advance_bind, Cursor.peek_of_cons hc]
  refine hitems.bind id fun c' hc' => ?_
  rw [← hc']
  exact yields_ok ..

variable (hexpression : CompleteAt Expression (·.delimits = true) depth expression)

include hexpression

theorem items_yields (close : Token) (hclose : close.delimits = true) (hcomma : close ≠ .comma)
    {ts : List Token} {items : List Expr} (h : Items ts items) {links : Nat} {c : Cursor}
    {rest : List Token} (hc : c.tokens = ts ++ close :: rest) :
    Yields (ts.length ≤ min depth links) (parseSequence (expression links) close c) items rest :=
  parseSequence_yields close (hexpression links) (fun _ _ => (·.begins)) hclose hcomma h.separated
    hc

theorem entryOf_complete :
    CompleteAt Entry (·.delimits = true) depth (entryOf expression) := by
  rintro links _ ⟨key, value⟩ ⟨us, vs, rfl, hkey, hvalue⟩ rest hrest c hc
  rw [List.length_append, List.length_cons]
  rw [List.append_assoc] at hc
  refine (hexpression links hkey (.colon :: vs ++ rest) rfl c hc).bind (by omega)
    fun c' hc' => ?_
  rw [Parse.expect_bind_of_eq (Cursor.peek_of_cons hc')]
  refine (hexpression links hvalue rest hrest _ (Cursor.advance_of_tokens hc')).bind (by omega)
    fun c'' hc'' => ?_
  rw [← hc'']
  exact yields_ok ..

theorem primary_complete :
    CompleteAt Primary (· ≠ .lParen) (depth + 1) (primary expression) := by
  intro links ts e h rest hrest c hc
  cases h with
  | @literal t v h =>
      have hnext : c.advance.tokens = rest := Cursor.advance_of_tokens hc
      rw [primary, Parse.advance_bind, Cursor.peek_of_cons hc, ← hnext]
      cases t <;> cases h <;> exact yields_ok ..
  | name => exact primary_name hrest hc ..
  | @call name ts args hargs =>
      have hcall : c.tokens = .ident name :: .lParen :: (ts ++ .rParen :: rest) := by simpa using hc
      have hnext := Cursor.advance_of_tokens hcall
      have hargs : Yields _ (parseSequence (expression links) .rParen c.advance.advance) _ _ :=
        items_yields hexpression .rParen rfl nofun hargs (Cursor.advance_of_tokens hnext)
      rw [primary, Parse.advance_bind, Cursor.peek_of_cons hcall]
      dsimp only
      rw [Parse.eat_bind_of_eq (Cursor.peek_of_cons hnext), if_pos rfl]
      refine hargs.bind ?_ fun c' hc' => ?_
      · simp
        omega
      · rw [← hc']
        exact yields_ok ..
  | @parenthesis ts e h =>
      have hopen : c.tokens = .lParen :: (ts ++ .rParen :: rest) := by simpa using hc
      have hnext := Cursor.advance_of_tokens hopen
      rw [primary, Parse.advance_bind, Cursor.peek_of_cons hopen]
      dsimp only
      refine (hexpression links h (.rParen :: rest) rfl _ hnext).bind ?_ fun c' hc' => ?_
      · simp
        omega
      · rw [Parse.expect_bind_of_eq (Cursor.peek_of_cons hc'), ← Cursor.advance_of_tokens hc']
        exact yields_ok ..
  | @list ts items hitems =>
      have hopen : c.tokens = .lBracket :: (ts ++ .rBracket :: rest) := by simpa using hc
      have hitems : Yields _ (parseSequence (expression links) .rBracket c.advance) _ _ :=
        items_yields hexpression .rBracket rfl nofun hitems (Cursor.advance_of_tokens hopen)
      refine (primary_list hopen hitems).mono ?_
      simp
      omega
  | @map ts entries hentries =>
      have hopen : c.tokens = .lBrace :: (ts ++ .rBrace :: rest) := by simpa using hc
      have hentries : Yields _ (parseSequence (entryOf expression links) .rBrace c.advance) _ _ :=
        parseSequence_yields .rBrace (entryOf_complete hexpression links) (fun _ _ => (·.begins))
          rfl nofun hentries.separated (Cursor.advance_of_tokens hopen)
      rw [primary, Parse.advance_bind, Cursor.peek_of_cons hopen]
      refine hentries.bind ?_ fun c' hc' => ?_
      · simp
        omega
      · rw [← hc']
        exact yields_ok ..

/-- A call behind what has been read, of a method or a comprehension. -/
theorem call_turn {us : List Token} {args : List Expr} (hargs : Items us args)
    {name : String} {e e' : Expr} (hcall : ∀ c, methodCall e name args c = .ok (e', c))
    (rest : List Token) :
    Turn (selections expression) (depth + 1) (.dot :: .ident name :: .lParen :: us ++ [.rParen])
      rest e e' where
  ne_nil := List.cons_ne_nil _ _
  refused hc := ⟨_, selections_zero (.inl (Cursor.peek_of_cons hc)) ..⟩
  taken {left c} hc {room a final} hroom hgo := by
    have hdot : c.tokens = .dot :: .ident name :: .lParen :: (us ++ .rParen :: rest) := by
      simpa using hc
    have hname := Cursor.advance_of_tokens hdot
    have hparen := Cursor.advance_of_tokens hname
    have hargs : Yields _ (parseSequence (expression left) .rParen c.advance.advance.advance) _ _ :=
      items_yields hexpression .rParen rfl nofun hargs (Cursor.advance_of_tokens hparen)
    rw [selections_dot (Cursor.peek_of_cons hdot), Parse.advance_bind, Cursor.peek_of_cons hname]
    dsimp only
    rw [Parse.eat_bind_of_eq (Cursor.peek_of_cons hparen), if_pos rfl]
    refine hargs.bind (fun hwide => ?_) fun c' hc' => ?_
    · have hlength := hroom hwide
      simp only [List.length_append, List.length_cons, List.length_nil] at hlength
      omega
    · change Yields room (methodCall e name args c' >>= fun r => selections expression left r.1 r.2)
        a final
      rw [hcall c']
      exact hgo c' hc'

/-- An index behind what has been read. -/
theorem index_turn {us : List Token} {e position : Expr} (hposition : Expression us position)
    (rest : List Token) :
    Turn (selections expression) (depth + 1) (.lBracket :: us ++ [.rBracket]) rest e
      (.index e position) where
  ne_nil := List.cons_ne_nil _ _
  refused hc := ⟨_, selections_zero (.inr (Cursor.peek_of_cons hc)) ..⟩
  taken {left c} hc {room a final} hroom hgo := by
    have hopen : c.tokens = .lBracket :: (us ++ .rBracket :: rest) := by simpa using hc
    have hnext := Cursor.advance_of_tokens hopen
    have hposition := hexpression left hposition (.rBracket :: rest) rfl _ hnext
    rw [selections_bracket (Cursor.peek_of_cons hopen)]
    refine hposition.bind (fun hwide => ?_) fun c' hc' => ?_
    · have hlength := hroom hwide
      simp only [List.length_append, List.length_cons, List.length_nil] at hlength
      omega
    · rw [Parse.expect_bind_of_eq (Cursor.peek_of_cons hc')]
      exact hgo _ (Cursor.advance_of_tokens hc')

theorem postfixed_continues {ts : List Token} {e : Expr} (h : Selection ts e) :
    Continues (selections expression) (postfixed expression) (depth + 1) (· ≠ .lParen) ts e := by
  induction h using Selection.induction with
  | primary h =>
      intro rest hrest links c hc room a final hroom hgo
      exact (primary_complete hexpression links h rest hrest c hc).bind hroom fun c' hc' =>
        hgo links c' hc' (Nat.le_add_right ..)
  | member _ ih => exact ih.turn (fun _ => by simp) fun _ hrest => field_turn hrest
  | method _ hnamed hargs ih =>
      rw [List.append_assoc]
      exact ih.turn (fun _ => by simp) fun rest _ =>
        call_turn hexpression hargs (methodCall_of_none hnamed _ _) rest
  | comprehension _ hargs ih =>
      rw [List.append_assoc]
      exact ih.turn (fun _ => by simp) fun rest _ =>
        call_turn hexpression hargs (methodCall_of_some (Comprehension.named?_name _) _ _ _) rest
  | index _ hposition ih =>
      rw [List.append_assoc]
      exact ih.turn (fun _ => by simp) fun rest _ => index_turn hexpression hposition rest

theorem signed_complete {deeper : Nat → Parse Expr}
    (hdeeper : CompleteAt Operand (Ends []) depth deeper) :
    CompleteAt Operand (Ends []) (depth + 1) (signed deeper expression) := by
  intro links ts e h rest hrest c hc
  cases h with
  | @signed t op ts e hop h =>
      have hpeek : signOp? c.peek = some op := by
        rw [Cursor.peek_of_cons hc]
        exact (signOp?_eq_some_iff t op).mpr hop
      rw [signed_of_some hpeek]
      refine (hdeeper links h rest hrest _ (Cursor.advance_of_tokens hc)).bind ?_ fun c' hc' => ?_
      · rw [List.length_cons]
        omega
      · rw [← hc']
        exact yields_ok ..
  | plain h =>
      have hpeek : signOp? c.peek = none := by
        obtain ⟨t, us, rfl, ht⟩ := h.begins
        rw [Cursor.peek_of_cons hc, ht]
      rw [signed_of_none hpeek]
      have hstop (left : Nat) (c : Cursor) (hc : c.peek = front rest) :
          selections expression left e c = .ok (e, c) :=
        selections_of_ne (hc ▸ hrest.ne rfl) (hc ▸ hrest.ne rfl) expression left e
      exact (postfixed_continues hexpression h).yields (hrest.ne rfl) hstop links hc

end Operands

/-! ## Expressions -/

section Conditionals

variable {operand deeper : Nat → Parse Expr} {links : Nat} {room : Prop} {c : Cursor}
  {rest : List Token}

theorem conditional_plain (hrest : (front rest).delimits = true) {e : Expr}
    (h : Yields room (disjunction operand links c) e rest) :
    Yields room (conditional operand deeper links c) e rest := by
  refine h.bind id fun c' hc' => ?_
  have hpeek : c'.peek ≠ .question := by
    rw [Cursor.peek_of_tokens hc']
    intro heq
    rw [heq] at hrest
    cases hrest
  rw [Parse.eat_bind_of_ne hpeek, ← hc']
  exact yields_ok ..

theorem conditional_whole {us vs : List Token} {cond yes no : Expr}
    (hcond : Yields room (disjunction operand links c) cond (.question :: us))
    (hyes : ∀ c', c'.tokens = us → Yields room (disjunction operand links c') yes (.colon :: vs))
    (hno : ∀ c', c'.tokens = vs → Yields room (deeper links c') no rest) :
    Yields room (conditional operand deeper links c) (.conditional cond yes no) rest := by
  refine hcond.bind id fun c₁ hc₁ => ?_
  rw [Parse.eat_bind_of_eq (Cursor.peek_of_cons hc₁)]
  refine (hyes _ (Cursor.advance_of_tokens hc₁)).bind id fun c₂ hc₂ => ?_
  rw [Parse.expect_bind_of_eq (Cursor.peek_of_cons hc₂)]
  refine (hno _ (Cursor.advance_of_tokens hc₂)).bind id fun c₃ hc₃ => ?_
  rw [← hc₃]
  exact yields_ok ..

theorem conditional_complete {depth : Nat}
    (hoperand : CompleteAt Operand (Ends []) (depth + 1) operand)
    (hdeeper : CompleteAt Expression (·.delimits = true) depth deeper) :
    CompleteAt Expression (·.delimits = true) (depth + 1) (conditional operand deeper) := by
  intro links ts e h rest hrest c hc
  have hchain := disjunction_complete hoperand links
  cases h with
  | plain h => exact conditional_plain hrest (hchain h rest (ends_of_delimits hrest) c hc)
  | @conditional ts us vs cond yes no hcond hyes hno =>
      have hends : Ends levels .question := ⟨rfl, by decide⟩
      have htokens : c.tokens = ts ++ .question :: (us ++ .colon :: (vs ++ rest)) := by
        simpa using hc
      have hlength : (ts ++ .question :: us ++ .colon :: vs).length
          = ts.length + us.length + vs.length + 2 := by
        simp
        omega
      rw [hlength]
      have hcond := hchain hcond (.question :: (us ++ .colon :: (vs ++ rest))) hends c htokens
      refine conditional_whole (hcond.mono (by omega)) (fun c' hc' => ?_)
        fun c' (hc' : c'.tokens = vs ++ rest) => ?_
      · exact (hchain hyes (.colon :: (vs ++ rest)) (ends_of_delimits rfl) c' hc').mono (by omega)
      · exact (hdeeper links hno rest hrest c' hc').mono (by omega)

end Conditionals

/-- With some depth left, an expression of as many tokens is read, and an operand of one more. -/
theorem grammar_complete (depth : Nat) :
    CompleteAt Expression (·.delimits = true) depth (grammar depth).expression
      ∧ CompleteAt Operand (Ends []) (depth + 1) (grammar depth).operand := by
  induction depth with
  | zero =>
      have hexpression : CompleteAt Expression (·.delimits = true) 0 fun _ => tooDeep maxDepth := by
        intro links ts e h rest _ c _
        have hpos := h.begins.length_pos
        exact yields_tooDeep (by omega) ..
      have hoperand : CompleteAt Operand (Ends []) 0 fun _ => tooDeep maxDepth := by
        intro links ts e h rest _ c _
        have hpos := h.shape.begins.length_pos
        exact yields_tooDeep (by omega) ..
      exact ⟨hexpression, signed_complete hexpression hoperand⟩
  | succ depth ih =>
      have hexpression := conditional_complete ih.2 ih.1
      exact ⟨hexpression, signed_complete hexpression ih.2⟩

end GameTable.Formula
