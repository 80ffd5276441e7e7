import GameTable.Proofs.Formula.Lexing

/-!
# Where tokens stand in a text

The tokens of a text start one behind the other, up to the end behind its last
character (`tokens_in_place`). A text without tokens has a character that is to
blame: the position of the error is that of one of its characters
(`position_lt_of_tokenize`).
-/

namespace GameTable.Formula

/-- The tokens of a text start one behind the other. -/
theorem Lexed.pairwise {position : Nat} {cs : List Char} {tokens : List Lexeme}
    (h : Lexed position cs tokens) :
    tokens.Pairwise (·.position < ·.position) ∧ ∀ l ∈ tokens, position ≤ l.position := by
  induction h with
  | nil => simp
  | blank _ _ ih => exact ⟨ih.1, fun l hl => Nat.le_of_succ_le (ih.2 l hl)⟩
  | token _ htoken _ ih =>
      have hpos := pos_of_lexToken htoken
      refine ⟨List.pairwise_cons.mpr ⟨fun l hl => ?_, ih.1⟩, ?_⟩
      · have hbehind := ih.2 l hl
        dsimp only at hbehind ⊢
        omega
      · refine List.forall_mem_cons.mpr ⟨Nat.le_refl _, fun l hl => ?_⟩
        have hbehind := ih.2 l hl
        omega

/-! ## Errors -/

section Errors

variable {start : Nat} {c : Char} {cs : List Char}

/-- The error is at one of these places. -/
def FailsWithin (first behind : Nat) (err : FormulaError) : Prop :=
  ∃ position fault, err = .malformed position fault ∧ first ≤ position ∧ position < behind

theorem FailsWithin.mono {first first' behind behind' : Nat} {err : FormulaError}
    (h : FailsWithin first behind err) (hfirst : first' ≤ first) (hbehind : behind ≤ behind') :
    FailsWithin first' behind' err := by
  obtain ⟨position, fault, rfl, hle, hlt⟩ := h
  exact ⟨position, fault, rfl, by omega, by omega⟩

theorem failsWithin_malformed {position behind : Nat} (h : position < behind) (fault : Fault) :
    FailsWithin position behind (.malformed position fault) :=
  ⟨position, fault, rfl, Nat.le_refl _, h⟩

variable {err : FormulaError}

theorem failsWithin_of_lexNumber (h : lexNumber start cs = .error err) :
    FailsWithin start (start + 1) err := by
  simp only [lexNumber] at h
  repeat' split at h
  all_goals cases h
  all_goals exact failsWithin_malformed (Nat.lt_succ_self start) _

theorem failsWithin_of_lexOperator (h : lexOperator start c cs = .error err) :
    FailsWithin start (start + 1) err := by
  rw [lexOperator.eq_def] at h
  repeat' split at h
  all_goals cases h
  all_goals exact failsWithin_malformed (Nat.lt_succ_self start) _

/-- A text without an end is blamed on its opening quote, an escape on itself. -/
theorem failsWithin_of_lexText {quote : Char} {position : Nat} (hstart : start < position)
    (h : lexText quote start position cs = .error err) :
    FailsWithin start (position + cs.length) err := by
  fun_induction lexText quote start position cs with
  | case1 position =>
      cases h
      exact failsWithin_malformed hstart _
  | case2 => cases h
  | case3 position =>
      cases h
      have hescape := failsWithin_malformed (Nat.lt_succ_self position) (.invalidEscape ' ')
      exact hescape.mono (Nat.le_of_lt hstart) (Nat.le_refl _)
  | case4 position e cs hch =>
      cases h
      have hescape := failsWithin_malformed (Nat.lt_succ_self position) (.invalidEscape e)
      exact hescape.mono (Nat.le_of_lt hstart) (by simp only [List.length_cons]; omega)
  | case5 position e cs ch hch hne ih =>
      rcases bind_eq_error h with htext | ⟨_, _, h⟩
      · exact (ih (by omega) htext).mono (Nat.le_refl _) (by simp only [List.length_cons]; omega)
      · cases h
  | case6 position c cs hne hescape ih =>
      rcases bind_eq_error h with htext | ⟨_, _, h⟩
      · exact (ih (by omega) htext).mono (Nat.le_refl _) (by simp only [List.length_cons]; omega)
      · cases h

theorem failsWithin_of_lexToken (h : lexToken start c cs = .error err) :
    FailsWithin start (start + (c :: cs).length) err := by
  have hfirst : start + 1 ≤ start + (c :: cs).length := by
    rw [List.length_cons]
    omega
  rw [lexToken] at h
  split at h
  · exact (failsWithin_of_lexNumber h).mono (Nat.le_refl _) hfirst
  · split at h
    · cases h
    · split at h
      · rcases bind_eq_error h with htext | ⟨_, _, h⟩
        · refine (failsWithin_of_lexText (Nat.lt_succ_self start) htext).mono (Nat.le_refl _) ?_
          rw [List.length_cons]
          omega
        · cases h
      · exact (failsWithin_of_lexOperator h).mono (Nat.le_refl _) hfirst

/-- A text that has no tokens fails at one of its characters. -/
theorem failsWithin_of_lexFrom {fuel position : Nat}
    (h : lexFrom fuel position cs = .error err) :
    FailsWithin position (position + cs.length) err := by
  induction fuel generalizing position cs with
  | zero => cases cs <;> cases h
  | succ fuel ih =>
      cases cs with
      | nil => cases h
      | cons c cs =>
          rw [lexFrom] at h
          split at h
          · refine (ih h).mono (Nat.le_succ position) ?_
            rw [List.length_cons]
            omega
          · rcases bind_eq_error h with htoken | ⟨⟨t, width, rest⟩, htoken, h⟩
            · exact failsWithin_of_lexToken htoken
            · rcases bind_eq_error h with hmore | ⟨_, _, h⟩
              · have hwidth := width_of_lexToken htoken
                refine (ih hmore).mono (Nat.le_add_right ..) ?_
                rw [List.length_cons]
                omega
              · cases h

end Errors

/-! ## The whole text -/

/-- The tokens of a text start one behind the other, and its only end stands behind its last
character. -/
theorem tokens_in_place {source : String} {tokens : List Lexeme}
    (h : tokenize source = .ok tokens) :
    tokens.Pairwise (·.position < ·.position)
      ∧ tokens.getLast? = some ⟨.eof, source.length⟩
      ∧ ∀ l ∈ tokens.dropLast, l.token ≠ .eof := by
  have hlexed := tokenize_eq_ok_iff.mp h
  have hlast := hlexed.getLast?
  rw [Nat.zero_add, String.length_toList] at hlast
  exact ⟨hlexed.pairwise.1, hlast, fun l hl => (hlexed.inner l hl).ne_eof⟩

theorem position_lt_of_tokenize {source : String} {err : FormulaError}
    (h : tokenize source = .error err) :
    ∃ position fault, err = .malformed position fault ∧ position < source.length := by
  obtain ⟨position, fault, rfl, -, hlt⟩ := failsWithin_of_lexFrom h
  rw [Nat.zero_add, String.length_toList] at hlt
  exact ⟨position, fault, rfl, hlt⟩

end GameTable.Formula
