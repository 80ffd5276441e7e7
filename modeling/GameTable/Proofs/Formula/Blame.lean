import Mathlib.Order.Nat
import GameTable.Proofs.Formula.Lookahead
import GameTable.Proofs.Formula.Positions

/-!
# The token that is to blame

A message about tokens quotes one of them. The token may stand in the formula
more than once, but only one of these is to blame: the first behind which it
does not matter any more what follows (`Offends`). All tokens up to that one
make the parser fail in this way, and all that can be changed behind it is the
position that the message has.

The position is not always that of the token. Where an operand begins, and
behind a dot, the token is taken before it is looked at, so the message has the
position of the token behind it (`parse_points_at_iff`). Everywhere else the
parser looks first. The tokens of a text all start at different places, so there
the message is wrong unless the token is the end
(`Offends.position_eq_iff_of_tokenize`).
-/

namespace GameTable.Formula

/-! ## Tokens and where they stand -/

/-- A token by its place; behind the last one there is only the end. -/
def tokenAt (tokens : List Lexeme) (i : Nat) : Token := (tokens[i]?.map (·.token)).getD .eof

/-- Where a token starts; behind the last one, where that starts. -/
def positionAt (tokens : List Lexeme) (i : Nat) : Nat :=
  (tokens[i]?.map (·.position)).getD ((tokens.getLast?.map (·.position)).getD 0)

/-- The same tokens up to a place, that one included. -/
def AlikeUpTo (k : Nat) (tokens others : List Lexeme) : Prop :=
  ∀ i ≤ k, tokenAt others i = tokenAt tokens i

theorem AlikeUpTo.mono {j k : Nat} {tokens others : List Lexeme} (h : AlikeUpTo k tokens others)
    (hle : j ≤ k) : AlikeUpTo j tokens others :=
  fun i hi => h i (Nat.le_trans hi hle)

theorem AlikeUpTo.symm {k : Nat} {tokens others : List Lexeme} (h : AlikeUpTo k tokens others) :
    AlikeUpTo k others tokens :=
  fun i hi => (h i hi).symm

theorem AlikeUpTo.trans {k : Nat} {tokens others more : List Lexeme}
    (h : AlikeUpTo k tokens others) (hmore : AlikeUpTo k others more) : AlikeUpTo k tokens more :=
  fun i hi => (hmore i hi).trans (h i hi)

/-- What is cut off are the tokens behind a place. -/
theorem alikeUpTo_take (tokens : List Lexeme) (k : Nat) :
    AlikeUpTo k tokens (tokens.take (k + 1)) := by
  intro i hi
  rw [tokenAt, List.getElem?_take_of_lt (by omega), tokenAt]

theorem tokenAt_take_of_lt {tokens : List Lexeme} {i k : Nat} (h : k < i) :
    tokenAt (tokens.take (k + 1)) i = .eof := by
  rw [tokenAt, List.getElem?_take_eq_none (by omega)]
  rfl

theorem peek_skip (tokens : List Lexeme) (i : Nat) :
    ((Cursor.ofTokens tokens).skip i).peek = tokenAt tokens i := by
  change Cursor.peek ⟨tokens.drop i, _⟩ = _
  rw [tokenAt, ← List.head?_drop]
  cases tokens.drop i <;> rfl

theorem position_skip (tokens : List Lexeme) (i : Nat) :
    ((Cursor.ofTokens tokens).skip i).position = positionAt tokens i := by
  change Cursor.position ⟨tokens.drop i, _⟩ = _
  rw [positionAt, ← List.head?_drop]
  cases tokens.drop i <;> rfl

/-! ## Blame -/

theorem Fault.delay_eq_zero_or_one (fault : Fault) : fault.delay = 0 ∨ fault.delay = 1 := by
  cases fault <;> grind [delay]

/-- The tokens up to a place are enough to make the parser fail in this way. -/
def Condemns (tokens : List Lexeme) (fault : Fault) (k : Nat) : Prop :=
  ∀ others, AlikeUpTo k tokens others →
    ∃ position, parse others = .error (.malformed position fault)

/-- The token that a message is about: the one that it quotes, and the first of its kind with which
the failure can no longer be averted. -/
structure Offends (tokens : List Lexeme) (fault : Fault) (k : Nat) : Prop where
  quoted : fault.quoted? = some (tokenAt tokens k)
  condemns : Condemns tokens fault k
  first : ∀ j < k, fault.quoted? = some (tokenAt tokens j) → ¬ Condemns tokens fault j

theorem Offends.eq {tokens : List Lexeme} {fault : Fault} {j k : Nat} (hj : Offends tokens fault j)
    (hk : Offends tokens fault k) : j = k := by
  rcases Nat.lt_trichotomy j k with hlt | heq | hlt
  · exact absurd hj.condemns (hk.first j hlt hj.quoted)
  · exact heq
  · exact absurd hk.condemns (hj.first k hlt hk.quoted)

theorem exists_offends {tokens : List Lexeme} {fault : Fault} {k : Nat}
    (hquoted : fault.quoted? = some (tokenAt tokens k)) (hcondemns : Condemns tokens fault k) :
    ∃ j, Offends tokens fault j := by
  classical
  have hex : ∃ j, fault.quoted? = some (tokenAt tokens j) ∧ Condemns tokens fault j :=
    ⟨k, hquoted, hcondemns⟩
  obtain ⟨hfound, hcondemns'⟩ := Nat.find_spec hex
  refine ⟨Nat.find hex, hfound, hcondemns', ?_⟩
  exact fun j hlt hj hc => Nat.find_min hex hlt ⟨hj, hc⟩

/-! ## Where the parser stops -/

/-- The parser fails at a token with no end in front of it. Wherever the same tokens stand, it
reports the position of that one, or of the one behind. -/
theorem exists_stop {tokens : List Lexeme} {position : Nat} {fault : Fault}
    (h : parse tokens = .error (.malformed position fault)) :
    ∃ k, (∀ i < k, tokenAt tokens i ≠ .eof)
      ∧ (∀ t, fault.quoted? = some t → t = tokenAt tokens k)
      ∧ ∀ others, AlikeUpTo k tokens others →
          parse others = .error (.malformed (positionAt others (k + fault.delay)) fault) := by
  obtain ⟨k, v, hsettles⟩ := formula_settled (.ofTokens tokens)
  have hparse {others : List Lexeme} (halike : AlikeUpTo k tokens others) :
      parse others = (·.1) <$> v.outcome ((Cursor.ofTokens others).skip k) := by
    rw [parse_eq, hsettles.eq_outcome]
    intro i hi
    rw [peek_skip, peek_skip]
    exact halike i hi
  have hself := hparse fun _ _ => rfl
  rw [h] at hself
  cases v with
  | read e => cases hself
  | tooDeep limit => cases hself
  | faulty fault' =>
      obtain ⟨rfl, rfl⟩ := FormulaError.malformed.inj (Except.error.inj hself)
      refine ⟨k, fun i hi => ?_, fun t ht => ?_, fun others halike => ?_⟩
      · rw [← peek_skip]
        exact hsettles.ne_eof i hi
      · rw [← peek_skip]
        exact hsettles.quotes fault rfl t ht
      · rw [hparse halike, ← position_skip, ← Cursor.skip_skip]
        rfl

/-- A message that quotes a token has one to blame. -/
theorem exists_offends_of_parse_eq_error {tokens : List Lexeme} {position : Nat} {fault : Fault}
    {t : Token} (h : parse tokens = .error (.malformed position fault))
    (hquoted : fault.quoted? = some t) : ∃ k, Offends tokens fault k := by
  obtain ⟨stop, _, hstop, hfails⟩ := exists_stop h
  obtain rfl := hstop t hquoted
  exact exists_offends hquoted fun others halike => ⟨_, hfails others halike⟩

/-- The message has the position of the token to blame, or of the one behind. -/
theorem Offends.position_eq {tokens : List Lexeme} {position : Nat} {fault : Fault} {k : Nat}
    (hk : Offends tokens fault k) (h : parse tokens = .error (.malformed position fault)) :
    position = positionAt tokens (k + fault.delay) := by
  obtain ⟨stop, hne, hstop, hfails⟩ := exists_stop h
  have hstop := hstop _ hk.quoted
  have hreported {j : Nat} (hj : parse tokens
      = .error (.malformed (positionAt tokens (j + fault.delay)) fault)) :
      position = positionAt tokens (j + fault.delay) :=
    (FormulaError.malformed.inj (Except.error.inj (h.symm.trans hj))).1
  have hle : k ≤ stop := by
    by_contra hlt
    refine hk.first stop (by omega) (hstop ▸ hk.quoted) fun others halike => ?_
    exact ⟨_, hfails others halike⟩
  rcases Nat.lt_or_eq_of_le hle with hlt | rfl
  · -- The tokens are cut off behind the one to blame, so that the parser stops there at last.
    obtain ⟨_, hcut⟩ := hk.condemns (tokens.take (k + 1)) (alikeUpTo_take tokens k)
    obtain ⟨last, _, hlast, hfails⟩ := exists_stop hcut
    have hlast := hlast _ hk.quoted
    have hlastle : last ≤ k := by
      by_contra hgt
      rw [tokenAt_take_of_lt (by omega)] at hlast
      exact hne k hlt hlast
    have hback := (alikeUpTo_take tokens k).mono hlastle
    have hcondemns : Condemns tokens fault last := fun others halike =>
      ⟨_, hfails others (hback.symm.trans halike)⟩
    rw [hback last (Nat.le_refl last)] at hlast
    obtain rfl : last = k := by
      by_contra hlastne
      exact hk.first last (by omega) (hlast ▸ hk.quoted) hcondemns
    exact hreported (hfails tokens hback.symm)
  · exact hreported (hfails tokens fun _ _ => rfl)

/-- That is the position of the token itself exactly if the fault was found before the token was
taken, or the token behind it starts at the same place. -/
theorem Offends.position_eq_iff {tokens : List Lexeme} {position : Nat} {fault : Fault} {k : Nat}
    (hk : Offends tokens fault k) (h : parse tokens = .error (.malformed position fault)) :
    position = positionAt tokens k
      ↔ fault.delay = 0 ∨ positionAt tokens (k + 1) = positionAt tokens k := by
  rw [hk.position_eq h]
  rcases fault.delay_eq_zero_or_one with hdelay | hdelay <;> simp [hdelay]

/-- A message that quotes a token is about one token of the list. It has the position of that one
exactly if the fault was found before the token was taken, or the next one starts at the same
place; otherwise it has the position of the next one. -/
theorem parse_points_at_iff {tokens : List Lexeme} {position : Nat} {fault : Fault} {t : Token}
    (h : parse tokens = .error (.malformed position fault)) (hquoted : fault.quoted? = some t) :
    ∃ k, Offends tokens fault k ∧ (∀ j, Offends tokens fault j → j = k)
      ∧ tokenAt tokens k = t
      ∧ position = positionAt tokens (k + fault.delay)
      ∧ (position = positionAt tokens k
          ↔ fault.delay = 0 ∨ positionAt tokens (k + 1) = positionAt tokens k) := by
  obtain ⟨k, hk⟩ := exists_offends_of_parse_eq_error h hquoted
  have ht : tokenAt tokens k = t := Option.some.inj (hk.quoted.symm.trans hquoted)
  exact ⟨k, hk, fun j hj => hj.eq hk, ht, hk.position_eq h, hk.position_eq_iff h⟩

/-- The tokens of a call that is not closed. -/
def unclosed : List Lexeme :=
  [⟨.ident "max", 0⟩, ⟨.lParen, 3⟩, ⟨.int 1, 4⟩, ⟨.ident "x", 6⟩, ⟨.eof, 7⟩]

theorem unclosed_points_at_name :
    parse unclosed = .error (.malformed 6 (.expected "','" (.ident "x")))
      ∧ ∃ k, Offends unclosed (.expected "','" (.ident "x")) k
        ∧ (∀ j, Offends unclosed (.expected "','" (.ident "x")) j → j = k)
        ∧ tokenAt unclosed k = .ident "x"
        ∧ 6 = positionAt unclosed (k + Fault.delay (.expected "','" (.ident "x")))
        ∧ (6 = positionAt unclosed k
            ↔ Fault.delay (.expected "','" (.ident "x")) = 0
              ∨ positionAt unclosed (k + 1) = positionAt unclosed k) := by
  have h : parse unclosed = .error (.malformed 6 (.expected "','" (.ident "x"))) := by
    decide +kernel
  exact ⟨h, parse_points_at_iff h rfl⟩

/-- The tokens of `x + )`. -/
def unopened : List Lexeme := [⟨.ident "x", 0⟩, ⟨.plus, 2⟩, ⟨.rParen, 4⟩, ⟨.eof, 5⟩]

theorem unopened_points_behind :
    tokenize "x + )" = .ok unopened
      ∧ parse unopened = .error (.malformed 5 (.unexpected .rParen))
      ∧ Offends unopened (.unexpected .rParen) 2 ∧ positionAt unopened 2 = 4 := by
  have h : parse unopened = .error (.malformed 5 (.unexpected .rParen)) := by
    decide +kernel
  obtain ⟨k, hk⟩ := exists_offends_of_parse_eq_error h rfl
  have hquoted : tokenAt unopened k = .rParen := Option.some.inj hk.quoted.symm
  have hlt : k < 4 := by
    by_contra hge
    rw [tokenAt, List.getElem?_eq_none (Nat.le_of_not_lt hge)] at hquoted
    cases hquoted
  have honly : ∀ i < 4, tokenAt unopened i = .rParen → i = 2 := by decide
  obtain rfl := honly k hlt hquoted
  exact ⟨by decide +kernel, h, hk, rfl⟩

/-! ## In a text -/

theorem positionAt_of_le {tokens : List Lexeme} {i : Nat} (h : tokens.length ≤ i + 1) :
    positionAt tokens i = (tokens.getLast?.map (·.position)).getD 0 := by
  rcases Nat.lt_or_eq_of_le h with hlt | heq
  · rw [positionAt, List.getElem?_eq_none (by omega)]
    rfl
  · rw [positionAt, List.getLast?_eq_getElem?, heq, Nat.add_sub_cancel]
    cases tokens[i]? <;> rfl

/-- In a text the position is that of the token exactly if the fault was found before the token
was taken, or the token is the end of the text. -/
theorem Offends.position_eq_iff_of_tokenize {source : String} {tokens : List Lexeme}
    (hsource : tokenize source = .ok tokens) {position : Nat} {fault : Fault} {k : Nat}
    (hk : Offends tokens fault k) (h : parse tokens = .error (.malformed position fault)) :
    position = positionAt tokens k ↔ fault.delay = 0 ∨ tokenAt tokens k = .eof := by
  rw [hk.position_eq_iff h]
  suffices hsame : positionAt tokens (k + 1) = positionAt tokens k ↔ tokenAt tokens k = .eof by
    rw [hsame]
  obtain ⟨ts, hts, hinner, -⟩ := exists_of_tokenize hsource
  have hlength : tokens.length = ts.length + 1 := by
    rw [← List.length_map (·.token), hts, List.length_append]
    rfl
  by_cases hlt : k < ts.length
  · have hpairwise := (tokens_in_place hsource).1
    have hless := List.pairwise_iff_getElem.mp hpairwise k (k + 1) (by omega) (by omega)
      (Nat.lt_succ_self k)
    have htoken : tokenAt tokens k = ts[k] := by
      rw [tokenAt, ← List.getElem?_map, hts, List.getElem?_append_left hlt,
        List.getElem?_eq_getElem hlt]
      rfl
    have hne : tokenAt tokens k ≠ .eof := fun heof =>
      hinner (heof ▸ htoken ▸ List.getElem_mem hlt)
    have hapart : positionAt tokens (k + 1) ≠ positionAt tokens k := by
      rw [positionAt, positionAt, List.getElem?_eq_getElem (by omega),
        List.getElem?_eq_getElem (by omega)]
      exact (Nat.ne_of_lt hless).symm
    exact ⟨fun heq => absurd heq hapart, fun heof => absurd heof hne⟩
  · have hsame : positionAt tokens (k + 1) = positionAt tokens k := by
      rw [positionAt_of_le (by omega), positionAt_of_le (by omega)]
    have heof : tokenAt tokens k = .eof := by
      rw [tokenAt, ← List.getElem?_map, hts, List.getElem?_append_right (by omega)]
      cases k - ts.length <;> rfl
    exact ⟨fun _ => heof, fun _ => hsame⟩

end GameTable.Formula
