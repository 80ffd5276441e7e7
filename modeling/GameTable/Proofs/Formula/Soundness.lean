import GameTable.Proofs.Formula.Parsing

/-!
# Nothing is read that is not derived

Where a parser succeeds, the tokens that it has taken derive what it answers
(`Sound`). A parser of phrases is sound if the parsers that it is made of are.
So the levels of nesting are sound one after the other (`grammar_sound`): at
depth zero nothing is read but operands without expressions inside.

A loop carries along what has been read so far. Its claim is about this and
what it takes besides, since neither is a phrase of the same kind alone.
-/

namespace GameTable.Formula

open Phrase

variable {α β : Type}

/-! ## Parsers that read phrases -/

/-- What is read is derived by the tokens that are taken. -/
def Sound (R : List Token → α → Prop) (p : Parse α) : Prop :=
  ∀ ⦃c a c'⦄, p c = .ok (a, c') → ∃ ts, c.tokens = ts ++ c'.tokens ∧ R ts a

theorem chainRest_sound {op? : Token → Option BinaryOp} {level : Level} {ls : List Level}
    (hop : Finds op? level) (hlevel : ∀ o ∈ level, o.1 ≠ .eof) {next : Nat → Parse Expr}
    (hnext : ∀ links, Sound (Chain ls) (next links)) {links : Nat} {lhs e : Expr}
    {ts : List Token} (hlhs : Chain (level :: ls) ts lhs) {c c' : Cursor}
    (h : chainRest op? next links lhs c = .ok (e, c')) :
    ∃ us, c.tokens = us ++ c'.tokens ∧ Chain (level :: ls) (ts ++ us) e := by
  induction links generalizing lhs ts c with
  | zero =>
      cases hpeek : op? c.peek with
      | none =>
          cases (chainRest_of_none hpeek next 0 lhs).symm.trans h
          exact ⟨[], rfl, by rwa [List.append_nil]⟩
      | some op => cases (chainRest_zero_of_some hpeek next lhs).symm.trans h
  | succ links ih =>
      cases hpeek : op? c.peek with
      | none =>
          cases (chainRest_of_none hpeek next (links + 1) lhs).symm.trans h
          exact ⟨[], rfl, by rwa [List.append_nil]⟩
      | some op =>
          have hmem := (hop _ _).mp hpeek
          rw [chainRest_of_some hpeek] at h
          obtain ⟨rhs, mid, hrhs, hrest⟩ := Parse.bind_eq_ok h
          obtain ⟨us, hus, hrhs⟩ := hnext links hrhs
          obtain ⟨vs, hvs, he⟩ := ih (.link hlhs hmem hrhs) hrest
          refine ⟨c.peek :: us ++ vs, ?_, ?_⟩
          · rw [Cursor.tokens_eq_cons (hlevel _ hmem), hus, hvs, List.cons_append,
              List.cons_append, List.append_assoc]
          · rwa [← List.append_assoc]

theorem chain_sound {op? : Token → Option BinaryOp} {level : Level} {ls : List Level}
    (hop : Finds op? level) (hlevel : ∀ o ∈ level, o.1 ≠ .eof) {next : Nat → Parse Expr}
    (hnext : ∀ links, Sound (Chain ls) (next links)) (links : Nat) :
    Sound (Chain (level :: ls)) (chain op? next links) := by
  intro c e c' h
  obtain ⟨lhs, mid, hlhs, hrest⟩ := Parse.bind_eq_ok h
  obtain ⟨ts, hts, hlhs⟩ := hnext links hlhs
  obtain ⟨us, hus, he⟩ := chainRest_sound hop hlevel hnext (.tighter hlhs) hrest
  exact ⟨ts ++ us, by rw [hts, hus, List.append_assoc], he⟩

/-! ## Sequences -/

theorem sequenceRest_sound {Item : List Token → α → Prop} {item : Parse α}
    (hitem : Sound Item item) (hpos : ∀ ts a, Item ts a → 0 < ts.length) {close : Token}
    (hclose : close ≠ .eof) {fuel : Nat} {read items : List α} {c c' : Cursor}
    (hfuel : c.tokens.length < fuel)
    (h : sequenceRest item close fuel read c = .ok (items, c')) :
    ∃ ts more, c.tokens = ts ++ close :: c'.tokens ∧ items = read ++ more
      ∧ Separated Item ts more := by
  induction fuel generalizing read c with
  | zero => exact absurd hfuel (Nat.not_lt_zero _)
  | succ fuel ih =>
      rw [sequenceRest] at h
      obtain ⟨a, mid, ha, h⟩ := Parse.bind_eq_ok h
      obtain ⟨ts, hts, ha⟩ := hitem ha
      have hlength := congrArg List.length hts
      have htspos := hpos ts a ha
      rw [List.length_append] at hlength
      rcases Parse.eat_bind_eq_ok hclose h with ⟨last, hlast, h⟩ | h
      · cases h
        exact ⟨ts, [a], by rw [hts, hlast], rfl, .last ha⟩
      · rw [if_neg Bool.false_ne_true] at h
        obtain ⟨after, hafter, h⟩ := Parse.expect_bind_eq_ok (t := .comma) (by decide) h
        rw [hafter, List.length_cons] at hlength
        rcases Parse.eat_bind_eq_ok hclose h with ⟨last, hlast, h⟩ | h
        · cases h
          exact ⟨ts ++ [.comma], [a], by rw [hts, hafter, hlast, List.append_assoc]; rfl, rfl,
            .more ha .none⟩
        · obtain ⟨us, more, hus, rfl, hmore⟩ := ih (by omega) h
          exact ⟨ts ++ .comma :: us, a :: more, by rw [hts, hafter, hus, List.append_assoc]; rfl,
            List.append_cons .. |>.symm, .more ha hmore⟩

theorem parseSequence_sound {Item : List Token → α → Prop} {item : Parse α}
    (hitem : Sound Item item) (hpos : ∀ ts a, Item ts a → 0 < ts.length) {close : Token}
    {items : List α} {c c' : Cursor} (h : parseSequence item close c = .ok (items, c'))
    (hclose : close ≠ .eof) :
    ∃ ts, c.tokens = ts ++ close :: c'.tokens ∧ Separated Item ts items := by
  rw [parseSequence] at h
  rcases Parse.eat_bind_eq_ok hclose h with ⟨mid, hmid, h⟩ | h
  · cases h
    exact ⟨[], hmid, .none⟩
  · have hfuel : c.tokens.length < c.rest.length + 1 := by
      rw [Cursor.tokens, List.length_map]
      exact Nat.lt_succ_self _
    obtain ⟨ts, more, hts, rfl, hmore⟩ := sequenceRest_sound hitem hpos hclose hfuel h
    exact ⟨ts, hts, hmore⟩

/-! ## Phrase by phrase -/

section Phrases

variable {expression : Nat → Parse Expr} {links : Nat} {c c' : Cursor}

theorem parseItems_sound (hexpression : Sound Expression (expression links)) {close : Token}
    {items : List Expr} (h : parseSequence (expression links) close c = .ok (items, c'))
    (hclose : close ≠ .eof) :
    ∃ ts, c.tokens = ts ++ close :: c'.tokens ∧ Items ts items := by
  obtain ⟨ts, hts, hitems⟩ := parseSequence_sound hexpression
    (fun _ _ => (·.begins.length_pos)) h hclose
  exact ⟨ts, hts, items_iff_separated.mpr hitems⟩

theorem entryOf_sound (hexpression : Sound Expression (expression links)) :
    Sound Entry (entryOf expression links) := by
  intro c entry c' h
  obtain ⟨key, mid, hkey, h⟩ := Parse.bind_eq_ok h
  obtain ⟨after, hafter, h⟩ := Parse.expect_bind_eq_ok (t := .colon) nofun h
  obtain ⟨value, last, hvalue, h⟩ := Parse.bind_eq_ok h
  cases h
  obtain ⟨us, hus, hkey⟩ := hexpression hkey
  obtain ⟨vs, hvs, hvalue⟩ := hexpression hvalue
  exact ⟨us ++ .colon :: vs, by simp [hus, hafter, hvs], us, vs, rfl, hkey, hvalue⟩

theorem primary_sound (hexpression : Sound Expression (expression links)) :
    Sound Primary (primary expression links) := by
  intro c e c' h
  rw [primary, Parse.advance_bind] at h
  have htokens : c.peek ≠ .eof → c.tokens = c.peek :: c.advance.tokens := Cursor.tokens_eq_cons
  cases hpeek : c.peek with
  | ident name =>
      rw [hpeek] at h htokens
      have htokens := htokens nofun
      rcases Parse.eat_bind_eq_ok (t := .lParen) nofun h with ⟨mid, hmid, h⟩ | h
      · obtain ⟨args, last, hargs, h⟩ := Parse.bind_eq_ok h
        cases h
        obtain ⟨ts, hts, hargs⟩ := parseItems_sound hexpression hargs nofun
        exact ⟨_, by simp [htokens, hmid, hts], .call hargs⟩
      · cases h
        exact ⟨[.ident name], htokens, .name⟩
  | lParen =>
      rw [hpeek] at h htokens
      obtain ⟨inner, mid, hinner, h⟩ := Parse.bind_eq_ok h
      obtain ⟨last, hlast, h⟩ := Parse.expect_bind_eq_ok (t := .rParen) nofun h
      cases h
      obtain ⟨ts, hts, hinner⟩ := hexpression hinner
      exact ⟨_, by simp [htokens, hts, hlast], .parenthesis hinner⟩
  | lBracket =>
      rw [hpeek] at h htokens
      obtain ⟨items, mid, hitems, h⟩ := Parse.bind_eq_ok h
      cases h
      obtain ⟨ts, hts, hitems⟩ := parseItems_sound hexpression hitems nofun
      exact ⟨_, by simp [htokens, hts], .list hitems⟩
  | lBrace =>
      rw [hpeek] at h htokens
      obtain ⟨entries, mid, hentries, h⟩ := Parse.bind_eq_ok h
      cases h
      obtain ⟨ts, hts, hentries⟩ := parseSequence_sound (entryOf_sound hexpression)
        (fun _ _ => (·.begins.length_pos)) hentries nofun
      exact ⟨_, by simp [htokens, hts], .map (entries_iff_separated.mpr hentries)⟩
  | int n | double n | str s | true | false | null =>
      rw [hpeek] at h htokens
      cases h
      exact ⟨[_], htokens nofun, .literal rfl⟩
  | _ =>
      rw [hpeek] at h
      cases h

/-- A method is called, or a comprehension is made, behind what was read before. -/
theorem methodCall_sound {ts us : List Token} {e e' : Expr} {name : String} {args : List Expr}
    (he : Selection ts e) (hargs : Items us args) (h : methodCall e name args c = .ok (e', c')) :
    c' = c ∧ Selection (ts ++ .dot :: .ident name :: .lParen :: us ++ [.rParen]) e' := by
  cases hnamed : Comprehension.named? name with
  | none =>
      cases (methodCall_of_none hnamed e args c).symm.trans h
      exact ⟨rfl, .method he hnamed hargs⟩
  | some kind =>
      obtain rfl := Comprehension.name_of_named? hnamed
      obtain ⟨var, body, rfl⟩ : ∃ var body, args = [.ident var, body] := by
        rw [methodCall, hnamed] at h
        rcases args with _ | ⟨first, _ | ⟨body, _ | ⟨_, _⟩⟩⟩
        · cases h
        · simp [failHere, malformed] at h
        · cases first with
          | ident var => exact ⟨var, body, rfl⟩
          | _ => cases h
        · simp [failHere, malformed] at h
      cases (methodCall_of_some hnamed e var body c).symm.trans h
      exact ⟨rfl, .comprehension he hargs⟩

theorem selections_sound (hexpression : ∀ links, Sound Expression (expression links))
    {e e' : Expr} {ts : List Token} (he : Selection ts e)
    (h : selections expression links e c = .ok (e', c')) :
    ∃ us, c.tokens = us ++ c'.tokens ∧ Selection (ts ++ us) e' := by
  induction links generalizing e ts c with
  | zero =>
      by_cases hpeek : c.peek = .dot ∨ c.peek = .lBracket
      · cases (selections_zero hpeek expression e).symm.trans h
      · have hne := not_or.mp hpeek
        cases (selections_of_ne hne.1 hne.2 expression 0 e).symm.trans h
        exact ⟨[], rfl, by rwa [List.append_nil]⟩
  | succ links ih =>
      by_cases hdot : c.peek = .dot
      · have hc : c.tokens = .dot :: c.advance.tokens := hdot ▸ Cursor.tokens_eq_cons (hdot ▸ nofun)
        rw [selections_dot hdot, Parse.advance_bind] at h
        have hname : c.advance.peek ≠ .eof →
            c.advance.tokens = c.advance.peek :: c.advance.advance.tokens := Cursor.tokens_eq_cons
        cases hpeek : c.advance.peek with
        | ident name =>
            rw [hpeek] at h hname
            have hname := hname nofun
            rcases Parse.eat_bind_eq_ok (t := .lParen) nofun h with ⟨mid, hmid, h⟩ | h
            · rw [if_pos rfl] at h
              obtain ⟨args, last, hargs, h⟩ := Parse.bind_eq_ok h
              obtain ⟨us, hus, hargs⟩ :=
                parseItems_sound (hexpression links) hargs nofun
              obtain ⟨call, same, hcall, hrest⟩ := Parse.bind_eq_ok h
              obtain ⟨rfl, hselection⟩ := methodCall_sound he hargs hcall
              obtain ⟨vs, hvs, he'⟩ := ih hselection hrest
              refine ⟨.dot :: .ident name :: .lParen :: us ++ .rParen :: vs, ?_, by simpa using he'⟩
              simp [hc, hname, hmid, hus, hvs]
            · obtain ⟨us, hus, he'⟩ := ih (.member he) h
              exact ⟨.dot :: .ident name :: us, by simp [hc, hname, hus], by simpa using he'⟩
        | _ =>
            rw [hpeek] at h
            cases h
      · by_cases hbracket : c.peek = .lBracket
        · have hc : c.tokens = .lBracket :: c.advance.tokens :=
            hbracket ▸ Cursor.tokens_eq_cons (hbracket ▸ nofun)
          rw [selections_bracket hbracket] at h
          obtain ⟨position, after, hposition, h⟩ := Parse.bind_eq_ok h
          obtain ⟨us, hus, hposition⟩ := hexpression links hposition
          obtain ⟨last, hlast, h⟩ := Parse.expect_bind_eq_ok (t := .rBracket) nofun h
          obtain ⟨vs, hvs, he'⟩ := ih (.index he hposition) h
          refine ⟨.lBracket :: us ++ .rBracket :: vs, ?_, by simpa using he'⟩
          simp [hc, hus, hlast, hvs]
        · cases (selections_of_ne hdot hbracket expression (links + 1) e).symm.trans h
          exact ⟨[], rfl, by rwa [List.append_nil]⟩

theorem signed_sound {deeper : Nat → Parse Expr} (hdeeper : ∀ links, Sound Operand (deeper links))
    (hexpression : ∀ links, Sound Expression (expression links)) (links : Nat) :
    Sound Operand (signed deeper expression links) := by
  intro c e c' h
  cases hop : signOp? c.peek with
  | some op =>
      have hmem := (signOp?_eq_some_iff _ _).mp hop
      have hpeek : c.peek ≠ .eof := fun heof => by
        rw [heof] at hop
        cases hop
      rw [signed_of_some hop] at h
      obtain ⟨inner, mid, hinner, h⟩ := Parse.bind_eq_ok h
      cases h
      obtain ⟨ts, hts, hinner⟩ := hdeeper links hinner
      exact ⟨c.peek :: ts, by rw [Cursor.tokens_eq_cons hpeek, hts, List.cons_append],
        .signed hmem hinner⟩
  | none =>
      rw [signed_of_none hop] at h
      obtain ⟨e₀, mid, hprimary, h⟩ := Parse.bind_eq_ok h
      obtain ⟨ts, hts, hprimary⟩ := primary_sound (hexpression links) hprimary
      obtain ⟨us, hus, he⟩ := selections_sound hexpression (.primary hprimary) h
      exact ⟨ts ++ us, by rw [hts, hus, List.append_assoc], .plain he⟩

theorem disjunction_sound {operand : Nat → Parse Expr}
    (hoperand : ∀ links, Sound Operand (operand links)) (links : Nat) :
    Sound (Chain levels) (disjunction operand links) := by
  suffices h : ∀ {ops : List (Token → Option BinaryOp)} {ls : List Level},
      List.Forall₂ Finds ops ls → ls ⊆ levels →
      ∀ links, Sound (Chain ls) (ops.foldr chain operand links) from
    h finds_readers (List.Subset.refl levels) links
  intro ops ls hfinds
  induction hfinds with
  | nil =>
      intro _ links c e c' h
      obtain ⟨ts, hts, he⟩ := hoperand links h
      exact ⟨ts, hts, .operand he⟩
  | cons hop _ ih =>
      intro hls
      exact chain_sound hop (operators_ne_eof _ (hls (List.mem_cons_self ..)))
        (ih (List.subset_of_cons_subset hls))

theorem conditional_sound {operand deeper : Nat → Parse Expr}
    (hoperand : ∀ links, Sound Operand (operand links))
    (hdeeper : ∀ links, Sound Expression (deeper links)) (links : Nat) :
    Sound Expression (conditional operand deeper links) := by
  intro c e c' h
  obtain ⟨cond, mid, hcond, h⟩ := Parse.bind_eq_ok h
  obtain ⟨ts, hts, hcond⟩ := disjunction_sound hoperand links hcond
  rcases Parse.eat_bind_eq_ok (t := .question) nofun h with ⟨after, hafter, h⟩ | h
  · rw [if_pos rfl] at h
    obtain ⟨yes, colon, hyes, h⟩ := Parse.bind_eq_ok h
    obtain ⟨us, hus, hyes⟩ := disjunction_sound hoperand links hyes
    obtain ⟨last, hlast, h⟩ := Parse.expect_bind_eq_ok (t := .colon) nofun h
    obtain ⟨no, final, hno, h⟩ := Parse.bind_eq_ok h
    cases h
    obtain ⟨vs, hvs, hno⟩ := hdeeper links hno
    exact ⟨_, by simp [hts, hafter, hus, hlast, hvs], .conditional hcond hyes hno⟩
  · obtain ⟨rfl, rfl⟩ := Prod.mk.inj (Except.ok.inj h)
    exact ⟨ts, hts, .plain hcond⟩

end Phrases

/-- Whatever depth is left, operands and expressions are read only where the tokens derive them. -/
theorem grammar_sound (depth : Nat) :
    (∀ links, Sound Expression ((grammar depth).expression links))
      ∧ ∀ links, Sound Operand ((grammar depth).operand links) := by
  induction depth with
  | zero =>
      have hrefused {R : List Token → Expr → Prop} (links : Nat) :
          Sound R ((fun _ => tooDeep maxDepth : Nat → Parse Expr) links) := by
        intro c e c' h
        cases h
      exact ⟨hrefused, signed_sound hrefused hrefused⟩
  | succ depth ih =>
      have hexpression := conditional_sound ih.2 ih.1
      exact ⟨hexpression, signed_sound ih.2 hexpression⟩

end GameTable.Formula
