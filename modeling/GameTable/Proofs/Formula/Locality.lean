import GameTable.Proofs.Formula.Soundness
import GameTable.Proofs.Formula.Taking

/-!
# A phrase is read alike wherever it stands

A parser knows of the tokens behind a phrase no more than that the first of them
ends it. Two texts that begin with the same tokens and go on differently, each
of them with a token that delimits, are read alike as far as they are the same
(`Local`): if nothing of the rest is taken in the one, the same is read in the
other, and its own rest is left. This includes the room that is needed. So a
phrase that was read once is read everywhere (`takes_of_read`).

Where two texts part a parser may ask for a token that does not delimit, as the
answer is no in both. It may ask for one that does, a closing bracket for
instance, only if it takes some token at any rate, since then nothing is said of
what it does there.
-/

namespace GameTable.Formula

open Phrase

variable {α β : Type}

/-- Reads the tokens in front of `rest` as it does in front of `rest'`. -/
structure Local (rest rest' : List Token) (p : Parse α) : Prop where
  takes : ∀ ⦃c a c'⦄, p c = .ok (a, c') → c'.tokens <:+ c.tokens
  moves : ∀ ⦃c d ts a c' us⦄, c.tokens = ts ++ rest → d.tokens = ts ++ rest' →
    p c = .ok (a, c') → c'.tokens = us ++ rest → ∃ d', p d = .ok (a, d') ∧ d'.tokens = us ++ rest'

/-- Takes at least one token. -/
def Strict (p : Parse α) : Prop :=
  ∀ ⦃c a c'⦄, p c = .ok (a, c') → c'.tokens.length < c.tokens.length

/-- In front of `rest` no more is taken than leaves it as it is. -/
theorem Strict.elim {p : Parse α} (h : Strict p) {c c' : Cursor} {a : α} {us rest : List Token}
    (hp : p c = .ok (a, c')) (hc : c.tokens = rest) (hc' : c'.tokens = us ++ rest) : False := by
  have hlength := h hp
  rw [hc, hc', List.length_append] at hlength
  omega

theorem Sound.strict {R : List Token → α → Prop} {p : Parse α} (h : Sound R p)
    (hpos : ∀ ts a, R ts a → 0 < ts.length) : Strict p := by
  intro c a c' hp
  obtain ⟨ts, hts, ha⟩ := h hp
  have htspos := hpos ts a ha
  rw [hts, List.length_append]
  omega

section Steps

variable {rest rest' : List Token}

theorem local_pure (a : α) : Local rest rest' (pure a : Parse α) where
  takes c b c' h := by
    obtain ⟨-, rfl⟩ := Prod.mk.inj (Except.ok.inj h)
    exact List.suffix_rfl
  moves c d ts b c' us hc hd h hc' := by
    obtain ⟨rfl, rfl⟩ := Prod.mk.inj (Except.ok.inj h)
    obtain rfl := List.append_cancel_right (hc.symm.trans hc')
    exact ⟨d, rfl, hd⟩

theorem local_of_fails {p : Parse α} (h : ∀ c a c', p c ≠ .ok (a, c')) : Local rest rest' p where
  takes _ _ _ hp := (h _ _ _ hp).elim
  moves _ _ _ _ _ _ _ _ hp := (h _ _ _ hp).elim

theorem local_failHere (fault : Fault) : Local rest rest' (failHere fault : Parse α) :=
  local_of_fails fun _ _ _ => nofun

theorem local_tooDeep (limit : Nat) : Local rest rest' (tooDeep limit : Parse α) :=
  local_of_fails fun _ _ _ => nofun

theorem Local.bind {p : Parse α} {next : α → Parse β} (hp : Local rest rest' p)
    (hnext : ∀ a, Local rest rest' (next a)) : Local rest rest' (p >>= next) where
  takes c b c' h := by
    obtain ⟨a, mid, ha, hb⟩ := Parse.bind_eq_ok h
    exact ((hnext a).takes hb).trans (hp.takes ha)
  moves c d ts b c' us hc hd h hc' := by
    obtain ⟨a, mid, ha, hb⟩ := Parse.bind_eq_ok h
    -- What is left in the end was left in between.
    obtain ⟨vs, hvs⟩ := (hnext a).takes hb
    have hmid : mid.tokens = (vs ++ us) ++ rest := by rw [← hvs, hc', List.append_assoc]
    obtain ⟨mid', ha', hmid'⟩ := hp.moves hc hd ha hmid
    obtain ⟨d', hb', hd'⟩ := (hnext a).moves hmid hmid' hb hc'
    refine ⟨d', ?_, hd'⟩
    change (p d >>= fun r => next r.1 r.2) = _
    rw [ha']
    exact hb'

end Steps

/-! ## Single tokens -/

/-- The ends of two texts, both of which begin with a token that delimits. -/
structure Ending (rest rest' : List Token) : Prop where
  ne_nil : rest ≠ []
  delimits : (front rest).delimits = true
  delimits' : (front rest').delimits = true

section Tokens

variable {rest rest' : List Token} {t : Token}

theorem Ending.front_ne (h : Ending rest rest') (ht : t.delimits = false) :
    front rest ≠ t ∧ front rest' ≠ t := by
  constructor
  · rintro rfl
    cases ht.symm.trans h.delimits
  · rintro rfl
    cases ht.symm.trans h.delimits'

theorem local_advance (h : Ending rest rest') : Local rest rest' advance where
  takes c a c' hadvance := by
    cases hadvance
    rw [Cursor.tokens_advance]
    exact List.tail_suffix _
  moves c d ts a c' us hc hd hadvance hc' := by
    cases hadvance
    cases ts with
    | nil =>
        rw [Cursor.tokens_advance, hc, List.nil_append] at hc'
        have hlength := congrArg List.length hc'
        rw [List.length_tail, List.length_append] at hlength
        have hpos := List.length_pos_iff.mpr h.ne_nil
        omega
    | cons t ts =>
        obtain rfl := List.append_cancel_right ((Cursor.advance_of_tokens hc).symm.trans hc')
        refine ⟨d.advance, ?_, Cursor.advance_of_tokens hd⟩
        rw [Cursor.peek_of_cons hc, ← Cursor.peek_of_cons hd]
        rfl

/-- To go by the next token is to do the same in front of both ends. -/
theorem local_peek_bind (h : Ending rest rest') (stop : Parse α) {next : Token → Parse α}
    (hnext : ∀ t, Local rest rest' (next t)) (hstop : ∀ t, t.delimits = true → next t = stop) :
    Local rest rest' (peek >>= next) where
  takes c a c' hread := (hnext c.peek).takes hread
  moves c d ts a c' us hc hd hread hc' := by
    have hsame : next d.peek = next c.peek := by
      cases ts with
      | nil =>
          rw [Cursor.peek_of_tokens hc, Cursor.peek_of_tokens hd, List.nil_append,
            List.nil_append, hstop _ h.delimits, hstop _ h.delimits']
      | cons t ts => rw [Cursor.peek_of_cons hc, Cursor.peek_of_cons hd]
    obtain ⟨d', hread', hd'⟩ := (hnext c.peek).moves hc hd hread hc'
    refine ⟨d', ?_, hd'⟩
    rw [Parse.peek_bind, hsame]
    exact hread'

/-- A token that does not delimit stands at the beginning of neither end. -/
theorem local_eat (h : Ending rest rest') (ht : t.delimits = false) :
    Local rest rest' (eat t) where
  takes c a c' heat := by
    rw [eat] at heat
    split at heat
    · cases heat
      rw [Cursor.tokens_advance]
      exact List.tail_suffix _
    · cases heat
      exact List.suffix_rfl
  moves c d ts a c' us hc hd heat hc' := by
    rw [eat] at heat ⊢
    cases ts with
    | nil =>
        have hne := h.front_ne ht
        have hpeek : c.peek ≠ t := Cursor.peek_of_tokens hc ▸ hne.1
        have hpeek' : d.peek ≠ t := Cursor.peek_of_tokens hd ▸ hne.2
        rw [if_neg hpeek] at heat
        rw [if_neg hpeek']
        cases heat
        obtain rfl := List.append_cancel_right (hc.symm.trans hc')
        exact ⟨d, rfl, hd⟩
    | cons u ts =>
        rw [Cursor.peek_of_cons hc] at heat
        rw [Cursor.peek_of_cons hd]
        by_cases hu : u = t
        · rw [if_pos hu] at heat ⊢
          cases heat
          obtain rfl := List.append_cancel_right ((Cursor.advance_of_tokens hc).symm.trans hc')
          exact ⟨d.advance, rfl, Cursor.advance_of_tokens hd⟩
        · rw [if_neg hu] at heat ⊢
          cases heat
          obtain rfl := List.append_cancel_right (hc.symm.trans hc')
          exact ⟨d, rfl, hd⟩

/-- Whether a token is the next one may be asked where some token is taken in any case. -/
theorem local_eat_bind (h : Ending rest rest') (ht : t ≠ .eof) {next : Bool → Parse α}
    (hnext : ∀ b, Local rest rest' (next b)) (hstrict : Strict (next false)) :
    Local rest rest' (eat t >>= next) where
  takes c a c' hread := by
    obtain ⟨mid, hmid, hread⟩ | hread := Parse.eat_bind_eq_ok ht hread
    · rw [hmid]
      exact ((hnext _).takes hread).trans (List.suffix_cons ..)
    · exact (hnext _).takes hread
  moves c d ts a c' us hc hd hread hc' := by
    by_cases hpeek : c.peek = t
    · rw [Parse.eat_bind_of_eq hpeek] at hread
      cases ts with
      | nil =>
          have hlength := ((hnext _).takes hread).length_le
          have hpos := List.length_pos_iff.mpr h.ne_nil
          rw [hc', Cursor.tokens_advance, hc, List.length_append, List.nil_append,
            List.length_tail] at hlength
          omega
      | cons u ts =>
          obtain rfl : u = t := (Cursor.peek_of_cons hc).symm.trans hpeek
          rw [Parse.eat_bind_of_eq (Cursor.peek_of_cons hd)]
          exact (hnext _).moves (Cursor.advance_of_tokens hc) (Cursor.advance_of_tokens hd) hread
            hc'
    · rw [Parse.eat_bind_of_ne hpeek] at hread
      cases ts with
      | nil => exact (hstrict.elim hread hc hc').elim
      | cons u ts =>
          have hpeek' : d.peek ≠ t := by
            rwa [Cursor.peek_of_cons hd, ← Cursor.peek_of_cons hc]
          rw [Parse.eat_bind_of_ne hpeek']
          exact (hnext _).moves hc hd hread hc'

theorem strict_of_fails {p : Parse α} (h : ∀ c a c', p c ≠ .ok (a, c')) : Strict p :=
  fun _ _ _ hp => (h _ _ _ hp).elim

variable (t) in
theorem local_expect (h : Ending rest rest') (ht : t ≠ .eof) (what : String) :
    Local rest rest' (expect t what) := by
  refine local_eat_bind h ht (fun b => ?_) (strict_of_fails fun _ _ _ => nofun)
  cases b with
  | true => exact local_pure _
  | false => exact local_of_fails fun _ _ _ => nofun

end Tokens

/-! ## Sequences -/

section Sequences

variable {Item : List Token → α → Prop} {item : Parse α} {close : Token} {rest rest' : List Token}

/-- Each of the two runs has its own fuel, which suffices as every item takes a token. -/
theorem sequenceRest_moves (hlocal : Local rest rest' item) (hitem : Sound Item item)
    (hpos : ∀ ts a, Item ts a → 0 < ts.length) (hclose : close ≠ .eof) (hcomma : close ≠ .comma)
    {fuel fuel' : Nat} {read items : List α} {c d c' : Cursor} {ts us : List Token}
    (hfuel : c.tokens.length < fuel) (hfuel' : d.tokens.length < fuel')
    (hc : c.tokens = ts ++ rest) (hd : d.tokens = ts ++ rest')
    (hread : sequenceRest item close fuel read c = .ok (items, c'))
    (hc' : c'.tokens = us ++ rest) :
    ∃ d', sequenceRest item close fuel' read d = .ok (items, d') ∧ d'.tokens = us ++ rest' := by
  have hstrict := hitem.strict hpos
  induction fuel generalizing fuel' read c d ts with
  | zero => exact absurd hfuel (Nat.not_lt_zero _)
  | succ fuel ih =>
      obtain ⟨fuel', rfl⟩ : ∃ n, fuel' = n + 1 := ⟨fuel' - 1, by omega⟩
      have hfirst := hread
      rw [sequenceRest] at hfirst
      obtain ⟨a, mid, ha, -⟩ := Parse.bind_eq_ok hfirst
      by_cases hpeek : mid.peek = close
      · rw [sequenceRest_close ha hpeek] at hread
        cases hread
        have hmid : mid.tokens = (close :: us) ++ rest := by
          rw [Cursor.tokens_eq_cons (hpeek ▸ hclose), hpeek, hc', List.cons_append]
        obtain ⟨mid', ha', hmid'⟩ := hlocal.moves hc hd ha hmid
        exact ⟨_, sequenceRest_close ha' (Cursor.peek_of_cons hmid') fuel' read,
          Cursor.advance_of_tokens hmid'⟩
      by_cases hnext : mid.peek = .comma
      · have hafter : mid.tokens = .comma :: mid.advance.tokens := by
          rw [← hnext]
          exact Cursor.tokens_eq_cons (by simp [hnext])
        by_cases hlast : mid.advance.peek = close
        · rw [sequenceRest_comma_close ha hnext hcomma hlast] at hread
          cases hread
          have hmid : mid.tokens = (.comma :: close :: us) ++ rest := by
            rw [hafter, Cursor.tokens_eq_cons (hlast ▸ hclose), hlast, hc']
            rfl
          obtain ⟨mid', ha', hmid'⟩ := hlocal.moves hc hd ha hmid
          have hafter' := Cursor.advance_of_tokens hmid'
          exact ⟨_, sequenceRest_comma_close ha' (Cursor.peek_of_cons hmid') hcomma
            (Cursor.peek_of_cons hafter') fuel' read, Cursor.advance_of_tokens hafter'⟩
        · rw [sequenceRest_comma ha hnext hcomma hlast] at hread
          have hlong : mid.advance.tokens.length < fuel := by
            have hshort := hstrict ha
            rw [hafter, List.length_cons] at hshort
            omega
          -- The closing token is still to come, so the runs have not parted yet.
          obtain ⟨t, vs, hvs⟩ : ∃ t vs, mid.advance.tokens = (t :: vs) ++ rest := by
            obtain ⟨vs, more, hvs, -⟩ := sequenceRest_sound hitem hpos hclose hlong hread
            rw [hvs, hc']
            cases vs with
            | nil => exact ⟨close, us, rfl⟩
            | cons t vs => exact ⟨t, vs ++ close :: us, by simp⟩
          have hmid : mid.tokens = (.comma :: t :: vs) ++ rest := by
            rw [hafter, hvs]
            rfl
          obtain ⟨mid', ha', hmid'⟩ := hlocal.moves hc hd ha hmid
          have hvs' : mid'.advance.tokens = (t :: vs) ++ rest' := Cursor.advance_of_tokens hmid'
          have hlast' : mid'.advance.peek ≠ close := by
            rwa [Cursor.peek_of_cons hvs', ← Cursor.peek_of_cons hvs]
          have hlong' : mid'.advance.tokens.length < fuel' := by
            have hshort := hstrict ha'
            rw [hmid', List.cons_append, List.length_cons, ← hvs'] at hshort
            omega
          rw [sequenceRest_comma ha' (Cursor.peek_of_cons hmid') hcomma hlast']
          exact ih hlong hlong' hvs hvs' hread
      · obtain ⟨err, hfail⟩ := sequenceRest_other ha hnext hpeek fuel read
        cases hfail.symm.trans hread

theorem local_parseSequence (h : Ending rest rest') (hlocal : Local rest rest' item)
    (hitem : Sound Item item) (hpos : ∀ ts a, Item ts a → 0 < ts.length) (hclose : close ≠ .eof)
    (hcomma : close ≠ .comma) : Local rest rest' (parseSequence item close) := by
  have hfuel (c : Cursor) : c.tokens.length < c.rest.length + 1 := by
    rw [Cursor.tokens, List.length_map]
    exact Nat.lt_succ_self _
  have hsound {c c' : Cursor} {items : List α}
      (hread : sequenceRest item close (c.rest.length + 1) [] c = .ok (items, c')) :
      ∃ ts, c.tokens = ts ++ close :: c'.tokens := by
    obtain ⟨ts, more, hts, -⟩ := sequenceRest_sound hitem hpos hclose (hfuel c) hread
    exact ⟨ts, hts⟩
  refine local_eat_bind h hclose (fun b => ?_) ?_
  · cases b with
    | true => exact local_pure _
    | false =>
        constructor
        · intro c items c' hread
          obtain ⟨ts, hts⟩ := hsound hread
          rw [hts]
          exact (List.suffix_cons ..).trans (List.suffix_append ..)
        · intro c d ts items c' us hc hd hread hc'
          exact sequenceRest_moves hlocal hitem hpos hclose hcomma (hfuel c) (hfuel d) hc hd hread
            hc'
  · intro c items c' hread
    obtain ⟨ts, hts⟩ := hsound hread
    rw [hts, List.length_append, List.length_cons]
    omega

end Sequences

/-! ## Phrase by phrase -/

theorem eq_none_of_delimits {op? : Token → Option BinaryOp} (hop : op? ∈ readers) {t : Token}
    (ht : t.delimits = true) : op? t = none := by
  simp only [readers, List.mem_cons, List.not_mem_nil, or_false] at hop
  rcases hop with rfl | rfl | rfl | rfl | rfl <;> cases t <;> first | rfl | cases ht

section Phrases

variable {rest rest' : List Token} (h : Ending rest rest') {links : Nat}

include h

theorem local_chainRest {op? : Token → Option BinaryOp}
    (hop : ∀ t, t.delimits = true → op? t = none) {next : Nat → Parse Expr}
    (hnext : ∀ links, Local rest rest' (next links)) (lhs : Expr) :
    Local rest rest' (chainRest op? next links lhs) := by
  induction links generalizing lhs with
  | zero =>
      rw [chainRest]
      refine local_peek_bind h (pure lhs) (fun t => ?_) fun t ht => by rw [hop t ht]
      cases op? t with
      | none => exact local_pure _
      | some op => exact (local_advance h).bind fun _ => local_tooDeep _
  | succ links ih =>
      rw [chainRest]
      refine local_peek_bind h (pure lhs) (fun t => ?_) fun t ht => by rw [hop t ht]
      cases op? t with
      | none => exact local_pure _
      | some op => exact (local_advance h).bind fun _ => (hnext links).bind fun rhs => ih _

theorem local_chain {op? : Token → Option BinaryOp}
    (hop : ∀ t, t.delimits = true → op? t = none) {next : Nat → Parse Expr}
    (hnext : ∀ links, Local rest rest' (next links)) (links : Nat) :
    Local rest rest' (chain op? next links) :=
  (hnext links).bind fun lhs => local_chainRest h hop hnext lhs

theorem local_disjunction {operand : Nat → Parse Expr}
    (hoperand : ∀ links, Local rest rest' (operand links)) (links : Nat) :
    Local rest rest' (disjunction operand links) := by
  suffices hall : ∀ ops ⊆ readers, ∀ links, Local rest rest' (ops.foldr chain operand links) from
    hall readers (List.Subset.refl readers) links
  intro ops hops
  induction ops with
  | nil => exact hoperand
  | cons op? ops ih =>
      rw [List.cons_subset] at hops
      exact local_chain h (fun t ht => eq_none_of_delimits hops.1 ht) (ih hops.2)

section Operands

variable {expression : Nat → Parse Expr} (hlocal : ∀ links, Local rest rest' (expression links))
  (hsound : ∀ links, Sound Expression (expression links))

include hlocal hsound

theorem local_items (close : Token) (hclose : close ≠ .eof) (hcomma : close ≠ .comma) :
    Local rest rest' (parseSequence (expression links) close) :=
  local_parseSequence h (hlocal links) (hsound links) (fun _ _ => (·.begins.length_pos)) hclose
    hcomma

omit hsound in
theorem local_entryOf : Local rest rest' (entryOf expression links) :=
  (hlocal links).bind fun _ => (local_expect .colon h nofun _).bind fun _ =>
    (hlocal links).bind fun _ => local_pure _

theorem local_primary : Local rest rest' (primary expression links) := by
  refine (local_advance h).bind fun t => ?_
  cases t with
  | int | double | str | true | false | null => exact local_pure _
  | ident name =>
      refine (local_eat h rfl).bind fun called => ?_
      cases called with
      | true => exact (local_items h hlocal hsound .rParen nofun nofun).bind fun _ => local_pure _
      | false => exact local_pure _
  | lParen =>
      exact (hlocal links).bind fun _ => (local_expect .rParen h nofun _).bind fun _ => local_pure _
  | lBracket => exact (local_items h hlocal hsound .rBracket nofun nofun).bind fun _ => local_pure _
  | lBrace =>
      have hentries : Local rest rest' (parseSequence (entryOf expression links) .rBrace) :=
        local_parseSequence h (local_entryOf h hlocal) (entryOf_sound (hsound links))
          (fun _ _ => (·.begins.length_pos)) nofun nofun
      exact hentries.bind fun _ => local_pure _
  | _ => exact local_failHere _

omit h hlocal hsound in
theorem local_methodCall (target : Expr) (name : String) (args : List Expr) :
    Local rest rest' (methodCall target name args) := by
  rw [methodCall]
  split
  · exact local_pure _
  · split
    · exact local_pure _
    · exact local_failHere _
    · exact local_failHere _

theorem local_selections (e : Expr) : Local rest rest' (selections expression links e) := by
  induction links generalizing e with
  | zero =>
      rw [selections]
      refine (local_eat h rfl).bind fun dot => ?_
      cases dot with
      | true => exact local_tooDeep _
      | false =>
          refine (local_eat h rfl).bind fun bracket => ?_
          cases bracket with
          | true => exact local_tooDeep _
          | false => exact local_pure _
  | succ links ih =>
      rw [selections]
      refine (local_eat h rfl).bind fun dot => ?_
      cases dot with
      | true =>
          refine (local_advance h).bind fun t => ?_
          cases t with
          | ident name =>
              refine (local_eat h rfl).bind fun called => ?_
              cases called with
              | true =>
                  exact (local_items h hlocal hsound .rParen (by decide) (by decide)).bind fun _ =>
                    (local_methodCall ..).bind fun _ => ih _
              | false => exact ih _
          | _ => exact local_failHere _
      | false =>
          refine (local_eat h rfl).bind fun bracket => ?_
          cases bracket with
          | true =>
              exact (hlocal links).bind fun _ =>
                (local_expect .rBracket h (by decide) _).bind fun _ => ih _
          | false => exact local_pure _

theorem local_signed {deeper : Nat → Parse Expr}
    (hdeeper : ∀ links, Local rest rest' (deeper links)) (links : Nat) :
    Local rest rest' (signed deeper expression links) := by
  refine local_peek_bind h (postfixed expression links) (fun t => ?_) fun t ht => ?_
  · cases signOp? t with
    | some op => exact (local_advance h).bind fun _ => (hdeeper links).bind fun _ => local_pure _
    | none => exact (local_primary h hlocal hsound).bind fun e => local_selections h hlocal hsound e
  · cases t <;> first | rfl | cases ht

end Operands

theorem local_conditional {operand deeper : Nat → Parse Expr}
    (hoperand : ∀ links, Local rest rest' (operand links))
    (hdeeper : ∀ links, Local rest rest' (deeper links)) (links : Nat) :
    Local rest rest' (conditional operand deeper links) := by
  have hdisjunction := local_disjunction h hoperand links
  refine hdisjunction.bind fun cond => (local_eat h rfl).bind fun asked => ?_
  cases asked with
  | true =>
      exact hdisjunction.bind fun _ => (local_expect .colon h nofun _).bind fun _ =>
        (hdeeper links).bind fun _ => local_pure _
  | false => exact local_pure _

/-- Whatever depth is left, two texts are read alike as far as they are the same. -/
theorem grammar_local (depth : Nat) :
    (∀ links, Local rest rest' ((grammar depth).expression links))
      ∧ ∀ links, Local rest rest' ((grammar depth).operand links) := by
  induction depth with
  | zero =>
      have hrefused (links : Nat) :
          Local rest rest' ((fun _ => tooDeep maxDepth : Nat → Parse Expr) links) := local_tooDeep _
      have hsound (links : Nat) :
          Sound Expression ((fun _ => tooDeep maxDepth : Nat → Parse Expr) links) :=
        fun _ _ _ hread => by cases hread
      exact ⟨hrefused, local_signed h hrefused hsound hrefused⟩
  | succ depth ih =>
      have hexpression := local_conditional h ih.2 ih.1
      exact ⟨hexpression, local_signed h hexpression (grammar_sound (depth + 1)).1 ih.2⟩

end Phrases

/-- An expression that was read once, in front of a token that delimits, is read in front of all
of them. -/
theorem takes_of_read {depth links : Nat} {ts rest : List Token} {e : Expr} {c c' : Cursor}
    (hrest : rest ≠ []) (hdelimits : (front rest).delimits = true) (hc : c.tokens = ts ++ rest)
    (hread : (grammar depth).expression links c = .ok (e, c')) (hc' : c'.tokens = rest) :
    Takes (·.delimits = true) ((grammar depth).expression links) ts e := by
  intro rest' hrest' d hd
  have hlocal := (grammar_local ⟨hrest, hdelimits, hrest'⟩ depth).1 links
  have hnothing : c'.tokens = [] ++ rest := hc'
  obtain ⟨d', hread', hd'⟩ := hlocal.moves hc hd hread hnothing
  exact .inl ⟨d', hread', hd'⟩

end GameTable.Formula
