import GameTable.Proofs.Formula.Positions

/-!
# How texts are cut next to one another

`Cut cs ts` says that the characters are cut into these tokens, whatever stands
in front of them. The lexer cuts just so (`cut_of_tokenize`, `Cut.tokenize`). A
text may also be cut on its own where a character follows that no token goes on
with (`Severs`), a comma or a closing bracket for instance. The whole text then
has the tokens of the first part and after them those of the second
(`Cut.append`).

A space is such a character, so two texts with a space between them have the
tokens of both. Those of the second stand further on by the length of the first
and the space (`tokenization_is_compositional`). Without the space a point and
the digits behind it would be one number (`point_and_digit_stay_apart`).
-/

namespace GameTable.Formula

/-! ## Where tokens end -/

/-- A character that no token goes on with, unless it is in quotes. -/
structure Severs (c : Char) : Prop where
  name : isNameChar c = false
  digit : c.isDigit = false
  ne_dot : c ≠ '.'
  pair : ∀ b, pairToken? b c = none

theorem severs_comma : Severs ',' :=
  ⟨by decide +kernel, rfl, by decide, fun _ => by simp [pairToken?]⟩

theorem severs_space : Severs ' ' :=
  ⟨by decide +kernel, rfl, by decide, fun _ => by simp [pairToken?]⟩

theorem severs_bracket : Severs ']' :=
  ⟨by decide +kernel, rfl, by decide, fun _ => by simp [pairToken?]⟩

section Tokens

variable {after : List Char} {start start' width : Nat} {c : Char} {cs rest : List Char} {t : Token}

theorem spanChars_append_of_head {p : Char → Bool} (h : ∀ d ∈ after.head?, p d = false)
    (cs : List Char) :
    spanChars p (cs ++ after) = ((spanChars p cs).1, (spanChars p cs).2 ++ after) := by
  induction cs with
  | nil =>
      cases after with
      | nil => rfl
      | cons d after =>
          have hd : p d = false := h d rfl
          simp [spanChars, hd]
  | cons c cs ih =>
      rw [List.cons_append, spanChars, spanChars, ih]
      split
      · rfl
      · rfl

theorem lexDigits_append {whole tail : List Char} (after : List Char)
    (h : (match Decimal.readInteger (.ofList whole) with
      | some n => .ok (.int n, whole.length, tail)
      | none => malformed start (.invalidNumber (.ofList whole)))
      = (.ok (t, width, rest) : Except FormulaError (Token × Nat × List Char))) :
    (match Decimal.readInteger (.ofList whole) with
      | some n => .ok (.int n, whole.length, tail ++ after)
      | none => malformed start' (.invalidNumber (.ofList whole)))
      = (.ok (t, width, rest ++ after) : Except FormulaError (Token × Nat × List Char)) := by
  split at h
  · cases h
    rfl
  · cases h

/-- Digits at the end of a text, and a point behind them if there is one, get no fraction by what
follows. -/
theorem lexNumber_append (hafter : ∀ d ∈ after.head?, Severs d)
    (h : lexNumber start cs = .ok (t, width, rest)) :
    lexNumber start' (cs ++ after) = .ok (t, width, rest ++ after) := by
  have hdigits := spanChars_append_of_head fun d hd => (hafter d hd).digit
  rw [lexNumber, hdigits]
  rw [lexNumber] at h
  dsimp only at h ⊢
  generalize (spanChars Char.isDigit cs).1 = whole at h ⊢
  generalize (spanChars Char.isDigit cs).2 = tail at h ⊢
  split at h
  · rename_i d more
    change (if d.isDigit = true then _ else _) = _
    split at h
    · rename_i hdigit
      have hfraction : spanChars Char.isDigit (d :: more.append after) = _ := hdigits (d :: more)
      rw [if_pos hdigit, hfraction]
      split at h
      · rename_i x hx
        cases h
        simp only [hx]
      · cases h
    · rename_i hdigit
      rw [if_neg hdigit]
      exact lexDigits_append after h
  · rename_i hpoint
    split
    · -- No digit behind a point belongs to the text, and what follows begins with none.
      rename_i d more heq
      have hdigit : ¬ d.isDigit = true := by
        rcases tail with _ | ⟨x, _ | ⟨e, tail⟩⟩
        · rw [List.nil_append] at heq
          exact absurd rfl (hafter '.' (heq ▸ rfl)).ne_dot
        · obtain rfl : after = d :: more := (List.cons.inj heq).2
          exact Bool.eq_false_iff.mp (hafter d rfl).digit
        · obtain rfl : x = '.' := (List.cons.inj heq).1
          exact absurd rfl (hpoint e tail)
      rw [if_neg hdigit]
      exact lexDigits_append after h
    · exact lexDigits_append after h

theorem lexText_append {quote : Char} {position position' : Nat} {text : List Char}
    (h : lexText quote start position cs = .ok (text, width, rest)) (after : List Char) :
    lexText quote start' position' (cs ++ after) = .ok (text, width, rest ++ after) := by
  fun_induction lexText quote start position cs generalizing text width position' with
  | case1 => cases h
  | case2 position cs =>
      cases h
      rw [List.cons_append, lexText.eq_def]
      exact if_pos rfl
  | case3 => cases h
  | case4 => cases h
  | case5 position e cs ch hch hne ih =>
      obtain ⟨⟨text, width, last⟩, htext, h⟩ := bind_eq_ok_iff.mp h
      cases h
      rw [List.cons_append, List.cons_append, lexText.eq_def]
      simp only [if_neg hne, hch, ih htext, ok_bind]
      rfl
  | case6 position c cs hne hescape ih =>
      obtain ⟨⟨text, width, last⟩, htext, h⟩ := bind_eq_ok_iff.mp h
      cases h
      rw [List.cons_append, lexText.eq_def]
      simp only [if_neg hne, if_neg hescape, ih htext, ok_bind]

theorem lexSingle_append {tail : List Char} (after : List Char)
    (h : (match singleToken? c with
      | some t => .ok (t, 1, tail)
      | none => malformed start (.unexpectedCharacter c))
      = (.ok (t, width, rest) : Except FormulaError (Token × Nat × List Char))) :
    (match singleToken? c with
      | some t => .ok (t, 1, tail ++ after)
      | none => malformed start' (.unexpectedCharacter c))
      = (.ok (t, width, rest ++ after) : Except FormulaError (Token × Nat × List Char)) := by
  split at h
  · cases h
    rfl
  · cases h

/-- An operator of one character at the end of a text is no part of a pair. -/
theorem lexOperator_append (hafter : ∀ d ∈ after.head?, Severs d)
    (h : lexOperator start c cs = .ok (t, width, rest)) :
    lexOperator start' c (cs ++ after) = .ok (t, width, rest ++ after) := by
  cases cs with
  | nil =>
      cases after with
      | nil => exact lexSingle_append [] h
      | cons d after =>
          rw [List.nil_append, lexOperator, (hafter d rfl).pair c]
          exact lexSingle_append (d :: after) h
  | cons d cs =>
      rw [List.cons_append, lexOperator]
      rw [lexOperator] at h
      split at h
      · cases h
        rfl
      · exact lexSingle_append after h

theorem lexToken_append (hafter : ∀ d ∈ after.head?, Severs d)
    (h : lexToken start c cs = .ok (t, width, rest)) :
    lexToken start' c (cs ++ after) = .ok (t, width, rest ++ after) := by
  rw [lexToken] at h ⊢
  split at h
  · rename_i hdigit
    rw [if_pos hdigit, ← List.cons_append]
    exact lexNumber_append hafter h
  · rename_i hdigit
    rw [if_neg hdigit]
    split at h
    · rename_i hbegins
      rw [if_pos hbegins, ← List.cons_append,
        spanChars_append_of_head fun d hd => (hafter d hd).name]
      cases h
      rfl
    · rename_i hbegins
      rw [if_neg hbegins]
      split at h
      · rename_i hquote
        rw [if_pos hquote]
        obtain ⟨⟨text, w, last⟩, htext, h⟩ := bind_eq_ok_iff.mp h
        cases h
        rw [lexText_append htext, ok_bind]
      · rename_i hquote
        rw [if_neg hquote]
        exact lexOperator_append hafter h

/-- A token is the same wherever it stands. -/
theorem lexToken_anywhere (h : lexToken start c cs = .ok (t, width, rest)) (start' : Nat) :
    lexToken start' c cs = .ok (t, width, rest) := by
  have hnothing : ∀ d ∈ ([] : List Char).head?, Severs d := by simp
  simpa using lexToken_append hnothing h

end Tokens

/-! ## Cut texts -/

/-- The characters are cut into these tokens. -/
inductive Cut : List Char → List Token → Prop
  | nil : Cut [] []
  | blank {c : Char} {cs : List Char} {ts : List Token} :
      Text.isBlank c = true → Cut cs ts → Cut (c :: cs) ts
  | token {c : Char} {cs rest : List Char} {t : Token} {width : Nat} {ts : List Token} :
      Text.isBlank c = false → (∀ start, lexToken start c cs = .ok (t, width, rest)) →
      Cut rest ts → Cut (c :: cs) (t :: ts)

section Cuts

variable {cs after : List Char} {ts us : List Token}

theorem Lexed.cut {position : Nat} {lexemes : List Lexeme} (h : Lexed position cs lexemes) :
    ∃ ts, lexemes.map (·.token) = ts ++ [.eof] ∧ Cut cs ts := by
  induction h with
  | nil => exact ⟨[], rfl, .nil⟩
  | blank hblank _ ih =>
      obtain ⟨ts, hts, hcut⟩ := ih
      exact ⟨ts, hts, .blank hblank hcut⟩
  | token hblank htoken _ ih =>
      obtain ⟨ts, hts, hcut⟩ := ih
      exact ⟨_ :: ts, by rw [List.map_cons, hts, List.cons_append],
        .token hblank (lexToken_anywhere htoken) hcut⟩

theorem Cut.lexed (h : Cut cs ts) (position : Nat) :
    ∃ lexemes, Lexed position cs lexemes ∧ lexemes.map (·.token) = ts ++ [.eof] := by
  induction h generalizing position with
  | nil => exact ⟨_, .nil, rfl⟩
  | blank hblank _ ih =>
      obtain ⟨lexemes, hlexed, hts⟩ := ih (position + 1)
      exact ⟨lexemes, .blank hblank hlexed, hts⟩
  | token hblank htoken _ ih =>
      obtain ⟨lexemes, hlexed, hts⟩ := ih (position + _)
      exact ⟨_, .token hblank (htoken position) hlexed,
        by rw [List.map_cons, hts, List.cons_append]⟩

theorem cut_of_tokenize {source : String} {lexemes : List Lexeme}
    (h : tokenize source = .ok lexemes) :
    ∃ ts, lexemes.map (·.token) = ts ++ [.eof] ∧ Cut source.toList ts :=
  (tokenize_eq_ok_iff.mp h).cut

theorem Cut.tokenize {source : String} (h : Cut source.toList ts) :
    ∃ lexemes, tokenize source = .ok lexemes ∧ lexemes.map (·.token) = ts ++ [.eof] := by
  obtain ⟨lexemes, hlexed, hts⟩ := h.lexed 0
  exact ⟨lexemes, tokenize_eq_ok_iff.mpr hlexed, hts⟩

/-- A text in front of a character that no token goes on with is cut as it is on its own. -/
theorem Cut.append (h : Cut cs ts) (hafter : ∀ d ∈ after.head?, Severs d) (hcut : Cut after us) :
    Cut (cs ++ after) (ts ++ us) := by
  induction h with
  | nil => exact hcut
  | blank hblank _ ih => exact .blank hblank ih
  | token hblank htoken _ ih =>
      exact .token hblank (fun start => lexToken_append hafter (htoken start)) ih

/-! ### Lists -/

theorem Cut.bracket (h : Cut cs ts) : Cut ('[' :: cs) (.lBracket :: ts) := by
  have hbracket (start : Nat) : lexToken start '[' cs = .ok (.lBracket, 1, cs) := by
    cases cs <;> rfl
  exact .token (by decide +kernel) hbracket h

theorem Cut.close (h : Cut cs ts) : Cut (cs ++ [']']) (ts ++ [.rBracket]) := by
  refine h.append ?_ (.token (by decide +kernel) (fun _ => rfl) .nil)
  rintro _ ⟨⟩
  exact severs_bracket

theorem Cut.comma (h : Cut cs ts) (hcut : Cut after us) :
    Cut (cs ++ ',' :: ' ' :: after) (ts ++ .comma :: us) := by
  refine h.append ?_ (.token (by decide +kernel) (fun _ => rfl) (.blank (by decide +kernel) hcut))
  rintro _ ⟨⟩
  exact severs_comma

end Cuts

/-! ## Positions in a text of two parts -/

/-- The token, so many characters further on. -/
def Lexeme.shift (n : Nat) (l : Lexeme) : Lexeme := { l with position := l.position + n }

section Parts

variable {cs after : List Char} {position : Nat} {tokens more : List Lexeme}

theorem Lexed.shift (h : Lexed position cs tokens) (n : Nat) :
    Lexed (position + n) cs (tokens.map (·.shift n)) := by
  induction h with
  | nil => exact .nil
  | blank hblank _ ih =>
      rw [Nat.add_right_comm] at ih
      exact .blank hblank ih
  | token hblank htoken _ ih =>
      rw [Nat.add_right_comm] at ih
      exact .token hblank (lexToken_anywhere htoken _) ih

/-- In front of a character that no token goes on with, a text has the tokens that it has on its
own, and after them come those of what follows. -/
theorem Lexed.append (h : Lexed position cs tokens) (hafter : ∀ d ∈ after.head?, Severs d)
    (hmore : Lexed (position + cs.length) after more) :
    Lexed position (cs ++ after) (tokens.dropLast ++ more) := by
  induction h with
  | nil => exact hmore
  | blank hblank _ ih =>
      rw [List.length_cons, ← Nat.add_assoc, Nat.add_right_comm] at hmore
      exact .blank hblank (ih hmore)
  | token hblank htoken hrest ih =>
      rw [List.length_cons, ← width_of_lexToken htoken, ← Nat.add_assoc] at hmore
      rw [hrest.dropLast_cons]
      exact .token hblank (lexToken_append hafter htoken) (ih hmore)

end Parts

/-- Two texts with a space between them have the tokens of both, those of the second further on. -/
theorem tokenize_spaced {a b : String} {as bs : List Lexeme} (ha : tokenize a = .ok as)
    (hb : tokenize b = .ok bs) :
    tokenize (a ++ " " ++ b) = .ok (as.dropLast ++ bs.map (·.shift (a.length + 1))) := by
  have hspace : ∀ d ∈ (' ' :: b.toList).head?, Severs d := by
    rintro _ ⟨⟩
    exact severs_space
  have hbehind : Lexed (0 + a.toList.length) (' ' :: b.toList)
      (bs.map (·.shift (a.length + 1))) := by
    rw [String.length_toList]
    refine .blank (by decide +kernel) ?_
    rw [Nat.add_assoc]
    exact (tokenize_eq_ok_iff.mp hb).shift (a.length + 1)
  have hboth := (tokenize_eq_ok_iff.mp ha).append hspace hbehind
  rw [tokenize_eq_ok_iff]
  simpa using hboth

/-- Texts with a space between them are cut into tokens each for itself. In every text that has
tokens these stand one behind the other up to the end, and in any other there is a character to
blame. -/
theorem tokenization_is_compositional :
    (∀ {a b : String} {as bs : List Lexeme}, tokenize a = .ok as → tokenize b = .ok bs →
        tokenize (a ++ " " ++ b) = .ok (as.dropLast ++ bs.map (·.shift (a.length + 1))))
      ∧ (∀ {source : String} {tokens : List Lexeme}, tokenize source = .ok tokens →
          tokens.Pairwise (·.position < ·.position)
            ∧ tokens.getLast? = some ⟨.eof, source.length⟩
            ∧ ∀ l ∈ tokens.dropLast, l.token ≠ .eof)
      ∧ ∀ {source : String} {err : FormulaError}, tokenize source = .error err →
          ∃ position fault, err = .malformed position fault ∧ position < source.length :=
  ⟨tokenize_spaced, tokens_in_place, position_lt_of_tokenize⟩

/-- The tokens of `n <= 1.`, whose point has no digits behind it. -/
def pointed : List Lexeme :=
  [⟨.ident "n", 0⟩, ⟨.le, 2⟩, ⟨.int 1, 5⟩, ⟨.dot, 6⟩, ⟨.eof, 7⟩]

/-- The tokens of `5 < n`. -/
def compared : List Lexeme := [⟨.int 5, 0⟩, ⟨.lt, 2⟩, ⟨.ident "n", 4⟩, ⟨.eof, 5⟩]

theorem point_and_digit_stay_apart :
    tokenize "n <= 1." = .ok pointed ∧ tokenize "5 < n" = .ok compared
      ∧ tokenize ("n <= 1." ++ " " ++ "5 < n")
          = .ok ([⟨.ident "n", 0⟩, ⟨.le, 2⟩, ⟨.int 1, 5⟩, ⟨.dot, 6⟩]
            ++ [⟨.int 5, 8⟩, ⟨.lt, 10⟩, ⟨.ident "n", 12⟩, ⟨.eof, 13⟩])
      ∧ (pointed.Pairwise (·.position < ·.position)
        ∧ pointed.getLast? = some ⟨.eof, "n <= 1.".length⟩
        ∧ ∀ l ∈ pointed.dropLast, l.token ≠ .eof)
      ∧ tokenize "1 + #" = .error (.malformed 4 (.unexpectedCharacter '#'))
      ∧ ∃ position fault,
          FormulaError.malformed 4 (.unexpectedCharacter '#') = .malformed position fault
            ∧ position < "1 + #".length := by
  have hpointed : tokenize "n <= 1." = .ok pointed := rfl
  have hcompared : tokenize "5 < n" = .ok compared := rfl
  have hstray : tokenize "1 + #" = .error (.malformed 4 (.unexpectedCharacter '#')) := rfl
  exact ⟨hpointed, hcompared, tokenization_is_compositional.1 hpointed hcompared,
    tokenization_is_compositional.2.1 hpointed, hstray, tokenization_is_compositional.2.2 hstray⟩

end GameTable.Formula
