import GameTable.Formula.Lexer
import GameTable.Proofs.Result

/-!
# Token by token

A formula is cut into tokens from left to right, and what has been cut off
does not matter for the rest: blanks are passed over, and any other character
begins a token. A token takes at least one character, and just as many as it is
wide (`pos_of_lexToken`, `width_of_lexToken`). So the fuel never runs out, and
what tokens a text has can be said without it (`Lexed`, `tokenize_eq_ok_iff`).
Whatever the text, its tokens end in their only end, and none of their integers
has a sign (`exists_of_tokenize`).

A word ends in front of the first character that may not stand in one, so what
follows it decides nothing else (`Lexed.word`). A text is an identifier as a
whole (`isName`) if its only token, the end apart, is the identifier of that
name (`isName_of_tokenize`). There can be no blanks around it then, since the
identifier would be shorter than the text.
-/

namespace GameTable.Formula

/-! ## Runs of characters -/

theorem spanChars_append (p : Char → Bool) (cs : List Char) :
    (spanChars p cs).1 ++ (spanChars p cs).2 = cs := by
  induction cs with
  | nil => rfl
  | cons c cs ih =>
      rw [spanChars]
      split
      · simp [ih]
      · rfl

theorem of_mem_spanChars {p : Char → Bool} {cs : List Char} :
    ∀ c ∈ (spanChars p cs).1, p c = true := by
  induction cs with
  | nil => simp [spanChars]
  | cons c cs ih =>
      rw [spanChars]
      split
      · rename_i hc
        simpa [hc] using ih
      · simp

/-- A run ends in front of the first character that is not of the class. -/
theorem spanChars_of_all {p : Char → Bool} {run rest : List Char} (hrun : ∀ c ∈ run, p c = true)
    (hrest : ∀ c ∈ rest.head?, p c = false) : spanChars p (run ++ rest) = (run, rest) := by
  induction run with
  | nil =>
      cases rest with
      | nil => rfl
      | cons c rest =>
          have hc : p c = false := hrest c rfl
          simp [spanChars, hc]
  | cons c run ih =>
      rw [List.forall_mem_cons] at hrun
      rw [List.cons_append, spanChars, hrun.1, ih hrun.2]
      rfl

theorem length_spanChars (p : Char → Bool) (cs : List Char) :
    (spanChars p cs).1.length + (spanChars p cs).2.length = cs.length := by
  rw [← List.length_append, spanChars_append]

theorem length_spanChars_pos {p : Char → Bool} {c : Char} {cs : List Char} (hc : p c = true) :
    0 < (spanChars p (c :: cs)).1.length := by
  rw [spanChars, if_pos hc]
  exact Nat.zero_lt_succ _

/-! ## Words -/

/-- The characters of a word: the first may begin one, and all may stand in one. -/
def isName : List Char → Bool
  | [] => false
  | c :: cs =>
    !Text.isBlank c && !c.isDigit && (Text.isLetter c || c = '_') && (c :: cs).all isNameChar

theorem lexToken_of_isName {c : Char} {cs rest : List Char} (h : isName (c :: cs) = true)
    (hrest : ∀ d ∈ rest.head?, isNameChar d = false) (position : Nat) :
    lexToken position c (cs ++ rest)
      = .ok (wordToken (.ofList (c :: cs)), (c :: cs).length, rest) := by
  simp only [isName, Bool.and_eq_true, Bool.not_eq_true', List.all_eq_true] at h
  obtain ⟨⟨⟨-, hdigit⟩, hbegins⟩, hall⟩ := h
  have hspan := spanChars_of_all hall hrest
  rw [List.cons_append] at hspan
  rw [lexToken, hdigit, if_neg Bool.false_ne_true, hbegins, if_pos rfl, hspan]

theorem wordToken_eq_ident {word name : String} (h : wordToken word = .ident name) :
    name = word := by
  simp only [wordToken] at h
  repeat' split at h
  all_goals simp_all

/-! ## Numbers and operators -/

/-- Digits that are no part of a double. -/
theorem exists_of_lexDigits {start width : Nat} {cs after rest : List Char} {t : Token}
    (h : (match Decimal.readInteger (.ofList (spanChars Char.isDigit cs).1) with
      | some n => .ok (.int n, (spanChars Char.isDigit cs).1.length, after)
      | none => malformed start (.invalidNumber (.ofList (spanChars Char.isDigit cs).1)))
      = (.ok (t, width, rest) : Except FormulaError (Token × Nat × List Char))) :
    ∃ n, t = .int n ∧ 0 ≤ n ∧ n ≤ maxInteger := by
  split at h
  · rename_i n hn
    simp only [Except.ok.injEq, Prod.mk.injEq] at h
    refine ⟨n, h.1.symm, Decimal.nonneg_of_readInteger (fun c hc => ?_) hn⟩
    have hdigit : c.isDigit = true := of_mem_spanChars c (List.mem_of_mem_head? hc)
    constructor
    · rintro rfl
      cases hdigit
    · rintro rfl
      cases hdigit
  · cases h

theorem lexNumber_eq_ok {start width : Nat} {cs rest : List Char} {t : Token}
    (h : lexNumber start cs = .ok (t, width, rest)) :
    (∃ n, t = .int n ∧ 0 ≤ n ∧ n ≤ maxInteger) ∨ ∃ x, t = .double x := by
  simp only [lexNumber] at h
  split at h
  · split at h
    · split at h
      · rename_i x _
        simp only [Except.ok.injEq, Prod.mk.injEq] at h
        exact .inr ⟨x, h.1.symm⟩
      · cases h
    · exact .inl (exists_of_lexDigits h)
  · exact .inl (exists_of_lexDigits h)

/-- A token that is neither a number nor a name nor the end. -/
structure Token.Bare (t : Token) : Prop where
  ne_eof : t ≠ .eof
  ne_int {n : Int} : t ≠ .int n
  ne_ident {name : String} : t ≠ .ident name

theorem bare_of_singleToken? {c : Char} {t : Token} (h : singleToken? c = some t) : t.Bare := by
  simp only [singleToken?] at h
  split at h <;> cases h <;> exact ⟨nofun, nofun, nofun⟩

theorem bare_of_pairToken? {c d : Char} {t : Token} (h : pairToken? c d = some t) : t.Bare := by
  simp only [pairToken?] at h
  split at h <;> cases h <;> exact ⟨nofun, nofun, nofun⟩

/-- A character that is no part of a pair. -/
theorem bare_of_lexSingle {start width : Nat} {c : Char} {after rest : List Char} {t : Token}
    (h : (match singleToken? c with
      | some t => .ok (t, 1, after)
      | none => malformed start (.unexpectedCharacter c))
      = (.ok (t, width, rest) : Except FormulaError (Token × Nat × List Char))) : t.Bare := by
  split at h
  · rename_i t' ht
    simp only [Except.ok.injEq, Prod.mk.injEq] at h
    exact h.1 ▸ bare_of_singleToken? ht
  · cases h

theorem bare_of_lexOperator {start width : Nat} {c : Char} {cs rest : List Char} {t : Token}
    (h : lexOperator start c cs = .ok (t, width, rest)) : t.Bare := by
  rw [lexOperator.eq_def] at h
  split at h
  · split at h
    · rename_i t' ht
      simp only [Except.ok.injEq, Prod.mk.injEq] at h
      exact h.1 ▸ bare_of_pairToken? ht
    · exact bare_of_lexSingle h
  · exact bare_of_lexSingle h

theorem isNameChar_of_begins {c : Char} (h : (Text.isLetter c || c = '_') = true) :
    isNameChar c = true := by
  simp only [isNameChar, Text.isAlphanumeric, Bool.or_eq_true] at h ⊢
  rcases h with h | h
  · exact .inl (.inl h)
  · exact .inr h

/-- An identifier is read where its characters stand. -/
theorem isName_of_lexToken {start width : Nat} {c : Char} {cs rest : List Char} {name : String}
    (hblank : Text.isBlank c = false)
    (h : lexToken start c cs = .ok (.ident name, width, rest)) :
    isName name.toList = true ∧ name.toList ++ rest = c :: cs ∧ wordToken name = .ident name := by
  rw [lexToken] at h
  split at h
  · rcases lexNumber_eq_ok h with ⟨n, hn, -⟩ | ⟨x, hx⟩
    · cases hn
    · cases hx
  · rename_i hdigit
    split at h
    · rename_i hbegins
      simp only [Except.ok.injEq, Prod.mk.injEq] at h
      obtain ⟨hword, -, rfl⟩ := h
      obtain rfl := wordToken_eq_ident hword
      have hchar := isNameChar_of_begins hbegins
      have hall : ∀ d ∈ (spanChars isNameChar (c :: cs)).1, isNameChar d = true := of_mem_spanChars
      have happend := spanChars_append isNameChar (c :: cs)
      rw [String.toList_ofList]
      refine ⟨?_, happend, hword⟩
      rw [spanChars, if_pos hchar] at hall ⊢
      simp only [isName, hblank, hbegins, Bool.not_eq_true _ ▸ hdigit, List.all_eq_true.mpr hall]
      rfl
    · split at h
      · obtain ⟨⟨text, w, after⟩, -, h⟩ := bind_eq_ok_iff.mp h
        simp at h
      · exact absurd rfl (bare_of_lexOperator h).ne_ident

/-! ## In front of the end -/

/-- A token in front of the end. Its integer, if it has one, is of 64 bits and has no sign. -/
structure Token.Inner (t : Token) : Prop where
  ne_eof : t ≠ .eof
  int_range {n : Int} : t = .int n → 0 ≤ n ∧ n ≤ maxInteger

theorem Token.Bare.inner {t : Token} (h : t.Bare) : t.Inner :=
  ⟨h.ne_eof, fun heq => absurd heq h.ne_int⟩

theorem inner_wordToken (word : String) : (wordToken word).Inner := by
  simp only [wordToken]
  repeat' split
  all_goals exact ⟨nofun, nofun⟩

theorem inner_of_lexToken {start width : Nat} {c : Char} {cs rest : List Char} {t : Token}
    (h : lexToken start c cs = .ok (t, width, rest)) : t.Inner := by
  rw [lexToken] at h
  split at h
  · rcases lexNumber_eq_ok h with ⟨n, rfl, hn⟩ | ⟨x, rfl⟩
    · refine ⟨nofun, fun heq => ?_⟩
      obtain rfl := Token.int.inj heq
      exact hn
    · exact ⟨nofun, nofun⟩
  · split at h
    · simp only [Except.ok.injEq, Prod.mk.injEq] at h
      exact h.1 ▸ inner_wordToken _
    · split at h
      · obtain ⟨⟨text, w, after⟩, -, h⟩ := bind_eq_ok_iff.mp h
        simp only [Except.ok.injEq, Prod.mk.injEq] at h
        exact h.1 ▸ ⟨nofun, nofun⟩
      · exact (bare_of_lexOperator h).inner

/-! ## Widths -/

section Widths

variable {start width : Nat} {c : Char} {cs rest : List Char} {t : Token}

theorem pos_of_lexNumber (hdigit : c.isDigit = true)
    (h : lexNumber start (c :: cs) = .ok (t, width, rest)) : 0 < width := by
  have hwhole : 0 < (spanChars Char.isDigit (c :: cs)).1.length := length_spanChars_pos hdigit
  simp only [lexNumber] at h
  split at h
  · split at h
    · split at h <;> cases h
      rw [List.length_append]
      omega
    · split at h <;> cases h
      exact hwhole
  · split at h <;> cases h
    exact hwhole

theorem pos_of_lexOperator (h : lexOperator start c cs = .ok (t, width, rest)) : 0 < width := by
  rw [lexOperator.eq_def] at h
  repeat' split at h
  all_goals cases h
  all_goals decide

/-- Every token is at least one character wide. -/
theorem pos_of_lexToken (h : lexToken start c cs = .ok (t, width, rest)) : 0 < width := by
  rw [lexToken] at h
  split at h
  · exact pos_of_lexNumber (by assumption) h
  · split at h
    · rename_i hbegins
      cases h
      exact length_spanChars_pos (isNameChar_of_begins hbegins)
    · split at h
      · obtain ⟨⟨text, w, last⟩, -, h⟩ := bind_eq_ok_iff.mp h
        cases h
        exact Nat.zero_lt_succ _
      · exact pos_of_lexOperator h

theorem width_of_lexNumber (h : lexNumber start cs = .ok (t, width, rest)) :
    width + rest.length = cs.length := by
  have hlength := length_spanChars Char.isDigit cs
  rw [lexNumber] at h
  dsimp only at h
  generalize (spanChars Char.isDigit cs).1 = whole at h hlength
  generalize (spanChars Char.isDigit cs).2 = tail at h hlength
  split at h
  · split at h
    · rename_i d more _
      have hfraction := length_spanChars Char.isDigit (d :: more)
      split at h <;> cases h
      simp only [List.length_append, List.length_cons] at hfraction hlength ⊢
      omega
    · split at h <;> cases h
      exact hlength
  · split at h <;> cases h
    exact hlength

theorem width_of_lexText {quote : Char} {position : Nat} {text : List Char}
    (h : lexText quote start position cs = .ok (text, width, rest)) :
    width + rest.length = cs.length := by
  fun_induction lexText quote start position cs generalizing text width with
  | case1 => cases h
  | case2 =>
      cases h
      exact Nat.add_comm ..
  | case3 => cases h
  | case4 => cases h
  | case5 position e cs ch hch hne ih =>
      obtain ⟨⟨text, width, last⟩, htext, h⟩ := bind_eq_ok_iff.mp h
      cases h
      have hwidth := ih htext
      simp only [List.length_cons]
      omega
  | case6 position c cs hne hescape ih =>
      obtain ⟨⟨text, width, last⟩, htext, h⟩ := bind_eq_ok_iff.mp h
      cases h
      have hwidth := ih htext
      simp only [List.length_cons]
      omega

theorem width_of_lexOperator (h : lexOperator start c cs = .ok (t, width, rest)) :
    width + rest.length = cs.length + 1 := by
  rw [lexOperator.eq_def] at h
  repeat' split at h
  all_goals cases h
  all_goals simp only [List.length_cons, List.length_nil]
  all_goals omega

/-- A token takes as many characters as it is wide. -/
theorem width_of_lexToken (h : lexToken start c cs = .ok (t, width, rest)) :
    width + rest.length = cs.length + 1 := by
  rw [lexToken] at h
  split at h
  · exact width_of_lexNumber h
  · split at h
    · cases h
      exact length_spanChars isNameChar (c :: cs)
    · split at h
      · obtain ⟨⟨text, w, last⟩, htext, h⟩ := bind_eq_ok_iff.mp h
        cases h
        have hwidth := width_of_lexText htext
        omega
      · exact width_of_lexOperator h

theorem length_le_of_lexToken (h : lexToken start c cs = .ok (t, width, rest)) :
    rest.length ≤ cs.length := by
  have hpos := pos_of_lexToken h
  have hwidth := width_of_lexToken h
  omega

end Widths

/-! ## The tokens of a text -/

theorem lexFrom_blank {c : Char} (hc : Text.isBlank c = true) (fuel position : Nat)
    (cs : List Char) : lexFrom (fuel + 1) position (c :: cs) = lexFrom fuel (position + 1) cs := by
  rw [lexFrom, if_pos hc]

theorem lexFrom_token {c : Char} (hc : Text.isBlank c = false) {position width : Nat}
    {cs rest : List Char} {t : Token} (h : lexToken position c cs = .ok (t, width, rest))
    (fuel : Nat) :
    lexFrom (fuel + 1) position (c :: cs)
      = (lexFrom fuel (position + width) rest).map (⟨t, position⟩ :: ·) := by
  rw [lexFrom, hc, if_neg Bool.false_ne_true, h, ok_bind]
  cases hrest : lexFrom fuel (position + width) rest <;> simp [hrest, Except.map]

/-- The characters from a place on have these tokens, the end among them. -/
inductive Lexed : Nat → List Char → List Lexeme → Prop
  | nil {position : Nat} : Lexed position [] [⟨.eof, position⟩]
  | blank {position : Nat} {c : Char} {cs : List Char} {tokens : List Lexeme} :
      Text.isBlank c = true → Lexed (position + 1) cs tokens → Lexed position (c :: cs) tokens
  | token {position width : Nat} {c : Char} {cs rest : List Char} {t : Token}
      {tokens : List Lexeme} :
      Text.isBlank c = false → lexToken position c cs = .ok (t, width, rest) →
      Lexed (position + width) rest tokens → Lexed position (c :: cs) (⟨t, position⟩ :: tokens)

section Texts

variable {cs : List Char} {fuel position : Nat} {tokens : List Lexeme}

theorem lexed_of_lexFrom (hfuel : cs.length ≤ fuel) (h : lexFrom fuel position cs = .ok tokens) :
    Lexed position cs tokens := by
  induction fuel generalizing position cs tokens with
  | zero =>
      obtain rfl := List.length_eq_zero_iff.mp (Nat.le_zero.mp hfuel)
      cases h
      exact .nil
  | succ fuel ih =>
      cases cs with
      | nil =>
          cases h
          exact .nil
      | cons c cs =>
          have hfuel : cs.length ≤ fuel := Nat.le_of_succ_le_succ hfuel
          cases hblank : Text.isBlank c with
          | true =>
              rw [lexFrom_blank hblank] at h
              exact .blank hblank (ih hfuel h)
          | false =>
              rw [lexFrom, hblank, if_neg Bool.false_ne_true] at h
              obtain ⟨⟨t, width, rest⟩, htoken, h⟩ := bind_eq_ok_iff.mp h
              obtain ⟨more, hmore, h⟩ := bind_eq_ok_iff.mp h
              cases h
              have hrest := ih (Nat.le_trans (length_le_of_lexToken htoken) hfuel) hmore
              exact .token hblank htoken hrest

theorem Lexed.lexFrom (h : Lexed position cs tokens) (hfuel : cs.length ≤ fuel) :
    lexFrom fuel position cs = .ok tokens := by
  induction h generalizing fuel with
  | nil => cases fuel <;> rfl
  | blank hblank _ ih =>
      obtain ⟨fuel, rfl⟩ : ∃ n, fuel = n + 1 := ⟨fuel - 1, by simp at hfuel; omega⟩
      rw [lexFrom_blank hblank]
      exact ih (Nat.le_of_succ_le_succ hfuel)
  | token hblank htoken _ ih =>
      obtain ⟨fuel, rfl⟩ : ∃ n, fuel = n + 1 := ⟨fuel - 1, by simp at hfuel; omega⟩
      have hle := length_le_of_lexToken htoken
      rw [lexFrom_token hblank htoken, ih (Nat.le_trans hle (Nat.le_of_succ_le_succ hfuel))]
      rfl

theorem tokenize_eq_ok_iff {source : String} :
    tokenize source = .ok tokens ↔ Lexed 0 source.toList tokens :=
  ⟨lexed_of_lexFrom (Nat.le_refl _), (·.lexFrom (Nat.le_refl _))⟩

theorem Lexed.ne_nil (h : Lexed position cs tokens) : tokens ≠ [] := by
  induction h with
  | nil => simp
  | blank _ _ ih => exact ih
  | token => simp

/-- The end stands behind the last character. -/
theorem Lexed.getLast? (h : Lexed position cs tokens) :
    tokens.getLast? = some ⟨.eof, position + cs.length⟩ := by
  induction h with
  | nil => rfl
  | blank _ _ ih => rw [ih, List.length_cons, Nat.add_right_comm, Nat.add_assoc]
  | token _ htoken _ ih =>
      rw [List.getLast?_cons, ih, Option.getD_some, Nat.add_assoc, width_of_lexToken htoken,
        List.length_cons]

theorem Lexed.dropLast_cons (h : Lexed position cs tokens) (l : Lexeme) :
    (l :: tokens).dropLast = l :: tokens.dropLast :=
  List.dropLast_cons_of_ne_nil h.ne_nil

theorem Lexed.inner (h : Lexed position cs tokens) : ∀ l ∈ tokens.dropLast, l.token.Inner := by
  induction h with
  | nil => nofun
  | blank _ _ ih => exact ih
  | token _ htoken hrest ih =>
      rw [hrest.dropLast_cons]
      exact List.forall_mem_cons.mpr ⟨inner_of_lexToken htoken, ih⟩

end Texts

/-- The tokens of a formula end in their only end, and their integers are of 64 bits without a
sign. -/
theorem exists_of_tokenize {source : String} {tokens : List Lexeme}
    (h : tokenize source = .ok tokens) :
    ∃ ts, tokens.map (·.token) = ts ++ [.eof] ∧ .eof ∉ ts
      ∧ ∀ n, .int n ∈ ts → 0 ≤ n ∧ n ≤ maxInteger := by
  have hlexed := tokenize_eq_ok_iff.mp h
  obtain ⟨front, rfl⟩ := List.getLast?_eq_some_iff.mp hlexed.getLast?
  have hinner := hlexed.inner
  rw [List.dropLast_concat] at hinner
  have hts : ∀ t ∈ front.map (·.token), t.Inner := List.forall_mem_map.mpr hinner
  refine ⟨front.map (·.token), List.map_append, fun heof => ?_, fun n hn => ?_⟩
  · exact (hts _ heof).ne_eof rfl
  · exact (hts _ hn).int_range rfl

/-! ## Names in a text -/

section Names

variable {position : Nat} {rest : List Char} {tokens : List Lexeme} {name : String}

/-- A word is cut off as a whole where no character follows that may stand in it. -/
theorem Lexed.word {word : List Char} (hword : isName word = true)
    (hrest : ∀ d ∈ rest.head?, isNameChar d = false)
    (h : Lexed (position + word.length) rest tokens) :
    Lexed position (word ++ rest) (⟨wordToken (.ofList word), position⟩ :: tokens) := by
  cases word with
  | nil => cases hword
  | cons c cs =>
      have hblank : Text.isBlank c = false := by
        simp only [isName, Bool.and_eq_true, Bool.not_eq_true'] at hword
        exact hword.1.1.1
      exact .token hblank (lexToken_of_isName hword hrest position) h

theorem Lexed.dot (h : Lexed (position + 1) rest tokens) :
    Lexed position ('.' :: rest) (⟨.dot, position⟩ :: tokens) := by
  refine .token (by decide +kernel) ?_ h
  cases rest <;> rfl

variable (hname : isName name.toList = true) (hword : wordToken name = .ident name)

include hname hword

theorem Lexed.identifier (hrest : ∀ d ∈ rest.head?, isNameChar d = false)
    (h : Lexed (position + name.toList.length) rest tokens) :
    Lexed position (name.toList ++ rest) (⟨.ident name, position⟩ :: tokens) := by
  have hlexed := Lexed.word hname hrest h
  rwa [String.ofList_toList, hword] at hlexed

/-- An identifier at the end of the text. -/
theorem lexed_identifier (position : Nat) :
    Lexed position name.toList
      [⟨.ident name, position⟩, ⟨.eof, position + name.toList.length⟩] := by
  have hlexed : Lexed position (name.toList ++ []) _ := .identifier hname hword (by simp) .nil
  rwa [List.append_nil] at hlexed

/-- An identifier in front of a dot. -/
theorem Lexed.qualifier (h : Lexed (position + name.toList.length + 1) rest tokens) :
    Lexed position (name.toList ++ '.' :: rest)
      (⟨.ident name, position⟩ :: ⟨.dot, position + name.toList.length⟩ :: tokens) := by
  refine Lexed.identifier hname hword ?_ h.dot
  rintro _ ⟨⟩
  decide +kernel

/-- An identifier that is compared with what follows. -/
theorem Lexed.compared (h : Lexed (position + name.toList.length + 3) rest tokens) :
    Lexed position (name.toList ++ ' ' :: '<' :: ' ' :: rest)
      (⟨.ident name, position⟩ :: ⟨.lt, position + name.toList.length + 1⟩ :: tokens) := by
  have hblank : Text.isBlank ' ' = true := by decide +kernel
  have hlexed : Lexed (position + name.toList.length) (' ' :: '<' :: ' ' :: rest)
      (⟨.lt, position + name.toList.length + 1⟩ :: tokens) :=
    .blank hblank (.token (by decide +kernel) rfl (.blank hblank h))
  refine Lexed.identifier hname hword ?_ hlexed
  rintro _ ⟨⟩
  decide +kernel

end Names

/-- Where a formula begins with an identifier, this is not longer than the formula, and as long
only if it is all of it. -/
theorem Lexed.length_le {position start : Nat} {cs : List Char} {name : String}
    {more : List Lexeme} (h : Lexed position cs (⟨.ident name, start⟩ :: more)) :
    name.toList.length ≤ cs.length
      ∧ (name.toList.length = cs.length → isName cs = true ∧ wordToken name = .ident name) := by
  generalize hlexemes : (⟨.ident name, start⟩ :: more : List Lexeme) = lexemes at h
  induction h with
  | nil => cases hlexemes
  | blank _ _ ih =>
      have hle := (ih hlexemes).1
      rw [List.length_cons]
      omega
  | @token _ _ c cs rest _ _ hblank htoken _ _ =>
      cases hlexemes
      obtain ⟨hname, happend, hword⟩ := isName_of_lexToken hblank htoken
      have hlength := congrArg List.length happend
      rw [List.length_append] at hlength
      refine ⟨by omega, fun heq => ⟨?_, hword⟩⟩
      have hrest : rest = [] := List.length_eq_zero_iff.mp (by omega)
      rw [← happend, hrest, List.append_nil]
      exact hname

/-- A text whose only token is the identifier of its own name is a name, and not a reserved word. -/
theorem isName_of_tokenize {name : String} {lexemes : List Lexeme}
    (h : tokenize name = .ok lexemes) (htokens : lexemes.map (·.token) = [.ident name, .eof]) :
    isName name.toList = true ∧ wordToken name = .ident name := by
  obtain ⟨⟨token, start⟩, more, rfl, htoken, -⟩ := List.map_eq_cons_iff.mp htokens
  obtain rfl : token = .ident name := htoken
  exact (tokenize_eq_ok_iff.mp h).length_le.2 rfl

end GameTable.Formula
