import GameTable.Text.Blank
import GameTable.Text.LetterCase

/-!
# What lower-casing leaves alone

Most characters are their own lower case, and so is every character that
lower-casing yields; a text in lower case is not changed any more
(`lower_lower`). None of the characters at which a line is taken apart (blanks,
commas and underscores) is the lower case of another, so lower-casing makes no
new place to cut (`mem_lowerFrom`).

The case table has some 150 runs, and what is needed of it is checked run by
run, not character by character: where the lower cases of a run lie, as an
interval, and that this interval holds none of the characters in question.
-/

namespace GameTable.Text

/-- Lower-casing leaves the character alone, wherever it stands. -/
def IsLower (c : Char) : Prop := c ≠ 'Σ' ∧ lowerChar c = [c]

instance (c : Char) : Decidable (IsLower c) := inferInstanceAs (Decidable (_ ∧ _))

/-- The characters at which lines and names are taken apart. -/
def isSeparator (c : Char) : Bool := isBlank c || c = '_' || c = ','

/-! ## Runs of the table -/

namespace CaseRun

/-- The code of the first lower case of the run. -/
def lowest (r : CaseRun) : Nat := (r.first + r.shift).toNat

/-- The code of the last. -/
def highest (r : CaseRun) : Nat := (r.last + r.shift).toNat

/-- No lower case of the run has a code between these two. -/
def misses (r : CaseRun) (codes : Nat × Nat) : Bool :=
  r.highest < codes.1 || codes.2 < r.lowest

/-- No lower case of the run belongs to the other run: their codes lie apart, or
where they do not, they differ in being even. -/
def avoids (r q : CaseRun) : Bool :=
  r.misses (q.first, q.last)
    || (r.first == r.last || r.step == 2) && q.step == 2 && (r.lowest + q.first) % 2 == 1

theorem covers_iff {r : CaseRun} {n : Nat} :
    r.covers n = true ↔ r.first ≤ n ∧ n ≤ r.last ∧ (n - r.first) % r.step = 0 := by
  rw [covers, Bool.and_eq_true, Bool.and_eq_true, decide_eq_true_eq, decide_eq_true_eq,
    beq_iff_eq, and_assoc]

theorem not_between {r : CaseRun} {codes : Nat × Nat} (h : r.misses codes = true) {n m : Nat}
    (hn : r.covers n = true) (hm : (m : Int) = n + r.shift) : ¬ (codes.1 ≤ m ∧ m ≤ codes.2) := by
  obtain ⟨hfirst, hlast, -⟩ := covers_iff.mp hn
  rw [misses, Bool.or_eq_true, decide_eq_true_eq, decide_eq_true_eq, lowest, highest] at h
  omega

theorem covers_eq_false {r q : CaseRun} (h : r.avoids q = true) {n m : Nat}
    (hn : r.covers n = true) (hm : (m : Int) = n + r.shift) (hr : 0 ≤ r.first + r.shift) :
    q.covers m = false := by
  obtain ⟨hfirst, hlast, hstep⟩ := covers_iff.mp hn
  rw [Bool.eq_false_iff]
  intro hq
  obtain ⟨hqfirst, hqlast, hqstep⟩ := covers_iff.mp hq
  simp only [avoids, lowest, Bool.or_eq_true, Bool.and_eq_true, beq_iff_eq] at h
  rcases h with hmisses | ⟨⟨hodd, hqtwo⟩, hparity⟩
  · exact not_between hmisses hn hm ⟨hqfirst, hqlast⟩
  · rw [hqtwo] at hqstep
    rcases hodd with hone | htwo
    · omega
    · rw [htwo] at hstep
      omega

end CaseRun

/-- Codes that no lower case has: separators, the capitals from `A` to `Z`, the
two characters with a rule of their own, and the codes of no character. -/
def reservedCodes : List (Nat × Nat) :=
  [(9, 13), (0x20, 0x20), (0x2C, 0x2C), (0x41, 0x5A), (0x5F, 0x5F), (0x85, 0x85), (0xA0, 0xA0),
   (0x130, 0x130), (0x3A3, 0x3A3), (0x1680, 0x1680), (0x2000, 0x200A), (0x2028, 0x2029),
   (0x202F, 0x202F), (0x205F, 0x205F), (0x3000, 0x3000), (0xD800, 0xDFFF)]

theorem lowerRuns_miss : ∀ r ∈ lowerRuns, ∀ codes ∈ reservedCodes, r.misses codes = true := by
  decide +kernel

theorem lowerRuns_avoid : ∀ r ∈ lowerRuns, lowerRuns.all r.avoids = true := by
  decide +kernel

theorem lowerRuns_bounds : ∀ r ∈ lowerRuns,
    0 ≤ r.first + r.shift ∧ r.last + r.shift < 0x110000 := by
  decide +kernel

/-! ## Characters -/

theorem not_reserved_of_isSeparator {d : Char} (h : ∀ codes ∈ reservedCodes,
    ¬ (codes.1 ≤ d.toNat ∧ d.toNat ≤ codes.2)) : isSeparator d = false := by
  have hne : ∀ c : Char, (c.toNat, c.toNat) ∈ reservedCodes → d ≠ c := by
    rintro c hc rfl
    exact h _ hc ⟨Nat.le_refl _, Nat.le_refl _⟩
  have hcomma : d ≠ ',' := hne ',' (by decide)
  have hscore : d ≠ '_' := hne '_' (by decide)
  simp only [reservedCodes, List.forall_mem_cons] at h
  simp only [isSeparator, isBlank, hcomma, hscore, decide_false, Bool.or_false,
    Bool.or_eq_false_iff, Bool.and_eq_false_iff, decide_eq_false_iff_not, beq_eq_false_iff_ne]
  omega

/-- Only `İ` has two characters. -/
theorem lowerChar_eq (c : Char) :
    (∃ d, lowerChar c = [d]) ∨ c = 'İ' ∧ lowerChar c = ['i', '\u0307'] := by
  unfold lowerChar
  split
  · exact .inl ⟨_, rfl⟩
  · split
    · exact .inr ⟨by assumption, rfl⟩
    · exact .inl ⟨_, rfl⟩

theorem lowerChar_ne_nil (c : Char) : lowerChar c ≠ [] := by
  rcases lowerChar_eq c with ⟨d, hd⟩ | ⟨-, hd⟩
  · exact hd ▸ List.cons_ne_nil _ _
  · exact hd ▸ List.cons_ne_nil _ _

theorem isLower_of_ascii {c : Char} (h : c.toNat < 128) :
    IsLower c.toLower ∧ (isSeparator c.toLower = true → c.toLower = c) := by
  have hall : ∀ n < 128, IsLower (Char.ofNat n).toLower
      ∧ (isSeparator (Char.ofNat n).toLower = true → (Char.ofNat n).toLower = Char.ofNat n) := by
    decide +kernel
  have hc := hall c.toNat h
  rwa [Char.ofNat_toNat] at hc

theorem toLower_of_not_capital {c : Char} (h : ¬ (0x41 ≤ c.toNat ∧ c.toNat ≤ 0x5A)) :
    c.toLower = c := by
  have hcapital : ¬ (0x41 ≤ c.val ∧ c.val ≤ 0x5A) := fun hc => h hc
  exact dif_neg hcapital

theorem covers_of_find? {n : Nat} {r : CaseRun}
    (h : lowerRuns.find? (fun r => r.covers n) = some r) : r.covers n = true := by
  have hsome := List.find?_some h
  exact hsome

/-- What the table maps a character to. -/
theorem toNat_mapByRuns {c : Char} {r : CaseRun}
    (h : lowerRuns.find? (·.covers c.toNat) = some r) :
    ((mapByRuns lowerRuns c).toNat : Int) = c.toNat + r.shift := by
  have hr : r ∈ lowerRuns := List.mem_of_find?_eq_some h
  have hcovers := covers_of_find? h
  obtain ⟨hfirst, hlast, -⟩ := CaseRun.covers_iff.mp hcovers
  have hbounds := lowerRuns_bounds r hr
  have hscalar := CaseRun.not_between (lowerRuns_miss r hr (0xD800, 0xDFFF) (by decide)) hcovers
    (m := (c.toNat + r.shift).toNat) (by omega)
  have hvalid : ((c.toNat : Int) + r.shift).toNat.isValidChar := by
    simp only [Nat.isValidChar]
    omega
  have hcode : (Char.ofNat ((c.toNat : Int) + r.shift).toNat).toNat
      = ((c.toNat : Int) + r.shift).toNat := by
    rw [Char.ofNat, dif_pos hvalid]
    rfl
  rw [mapByRuns, h, hcode]
  omega

/-- A character that lower-casing yields is left alone by it, and is no
separator unless it was there before. -/
theorem isLower_of_mem_lowerChar {c d : Char} (hc : c ≠ 'Σ') (h : d ∈ lowerChar c) :
    IsLower d ∧ (isSeparator d = true → d = c) := by
  unfold lowerChar at h
  split at h
  · rename_i hascii
    obtain rfl := List.mem_singleton.mp h
    exact isLower_of_ascii hascii
  · rename_i hascii
    split at h
    · rcases List.mem_cons.mp h with rfl | h
      · exact ⟨by decide +kernel, fun hsep => absurd hsep (by decide)⟩
      · obtain rfl := List.mem_singleton.mp h
        exact ⟨by decide +kernel, fun hsep => absurd hsep (by decide)⟩
    · rename_i hdot
      obtain rfl := List.mem_singleton.mp h
      cases hfind : lowerRuns.find? (·.covers c.toNat) with
      | none =>
          have hsame : mapByRuns lowerRuns c = c := by rw [mapByRuns, hfind]
          rw [hsame]
          refine ⟨⟨hc, ?_⟩, fun _ => rfl⟩
          rw [lowerChar, if_neg hascii, if_neg hdot, hsame]
      | some r =>
          have hr : r ∈ lowerRuns := List.mem_of_find?_eq_some hfind
          have hcovers : r.covers c.toNat = true := covers_of_find? hfind
          have hcode := toNat_mapByRuns hfind
          generalize mapByRuns lowerRuns c = d at hcode
          have hreserved : ∀ codes ∈ reservedCodes, ¬ (codes.1 ≤ d.toNat ∧ d.toNat ≤ codes.2) :=
            fun codes hcodes => CaseRun.not_between (lowerRuns_miss r hr codes hcodes) hcovers hcode
          have hne : ∀ b : Char, (b.toNat, b.toNat) ∈ reservedCodes → d ≠ b := by
            rintro b hb rfl
            exact hreserved _ hb ⟨Nat.le_refl _, Nat.le_refl _⟩
          refine ⟨⟨hne 'Σ' (by decide), ?_⟩, fun hsep => ?_⟩
          · have htable : mapByRuns lowerRuns d = d := by
              rw [mapByRuns, List.find?_eq_none.mpr]
              intro q hq
              have havoids := List.all_eq_true.mp (lowerRuns_avoid r hr) q hq
              simp [CaseRun.covers_eq_false havoids hcovers hcode (lowerRuns_bounds r hr).1]
            have hcapital := hreserved (0x41, 0x5A) (by decide)
            rw [lowerChar, if_neg (hne 'İ' (by decide)), htable]
            split
            · rw [toLower_of_not_capital hcapital]
            · rfl
          · rw [not_reserved_of_isSeparator hreserved] at hsep
            cases hsep

/-! ## Texts -/

/-- A sigma becomes one of two characters, any other character what it is
mapped to on its own. -/
theorem lowerFrom_cons (before : List Char) (c : Char) (cs : List Char) :
    ∃ mapped, lowerFrom before (c :: cs) = mapped ++ lowerFrom (c :: before) cs
      ∧ (c = 'Σ' ∧ (mapped = ['ς'] ∨ mapped = ['σ']) ∨ c ≠ 'Σ' ∧ mapped = lowerChar c) := by
  refine ⟨_, rfl, ?_⟩
  by_cases hc : c = 'Σ'
  · rw [if_pos hc]
    split
    · exact .inl ⟨hc, .inl rfl⟩
    · exact .inl ⟨hc, .inr rfl⟩
  · exact .inr ⟨hc, if_neg hc⟩

theorem lowerFrom_of_isLower {cs : List Char} (h : ∀ c ∈ cs, IsLower c) (before : List Char) :
    lowerFrom before cs = cs := by
  induction cs generalizing before with
  | nil => rfl
  | cons c cs ih =>
      rw [List.forall_mem_cons] at h
      obtain ⟨mapped, heq, ⟨hsigma, -⟩ | ⟨-, rfl⟩⟩ := lowerFrom_cons before c cs
      · exact absurd hsigma h.1.1
      · rw [heq, h.1.2, ih h.2, List.singleton_append]

/-- A text that lower-casing leaves alone has nothing but such characters. -/
theorem isLower_of_lowerFrom_eq {before cs : List Char} (h : lowerFrom before cs = cs) :
    ∀ c ∈ cs, IsLower c := by
  induction cs generalizing before with
  | nil => exact nofun
  | cons c cs ih =>
      obtain ⟨mapped, heq, hmapped⟩ := lowerFrom_cons before c cs
      rw [h] at heq
      have hone : mapped = [c] := by
        rcases hmapped with ⟨rfl, rfl | rfl⟩ | ⟨-, rfl⟩
        · cases (List.cons.inj heq).1
        · cases (List.cons.inj heq).1
        · rcases lowerChar_eq c with ⟨d, hd⟩ | ⟨rfl, hd⟩
          · rw [hd] at heq ⊢
            rw [(List.cons.inj heq).1]
          · rw [hd] at heq
            cases (List.cons.inj heq).1
      subst hone
      refine List.forall_mem_cons.mpr ⟨?_, ih (List.cons.inj heq).2.symm⟩
      rcases hmapped with ⟨rfl, hsigma | hsigma⟩ | ⟨hc, hmapped⟩
      · cases (List.cons.inj hsigma).1
      · cases (List.cons.inj hsigma).1
      · exact ⟨hc, hmapped.symm⟩

/-- What lower-casing yields is in lower case, and holds no separator that was
not in the text. -/
theorem mem_lowerFrom {before cs : List Char} {d : Char} (h : d ∈ lowerFrom before cs) :
    IsLower d ∧ (isSeparator d = true → d ∈ cs) := by
  induction cs generalizing before with
  | nil => cases h
  | cons c cs ih =>
      obtain ⟨mapped, heq, hmapped⟩ := lowerFrom_cons before c cs
      rw [heq] at h
      rcases List.mem_append.mp h with hd | hd
      · rcases hmapped with ⟨-, rfl | rfl⟩ | ⟨hc, rfl⟩
        · obtain rfl := List.mem_singleton.mp hd
          exact ⟨by decide +kernel, fun hsep => absurd hsep (by decide)⟩
        · obtain rfl := List.mem_singleton.mp hd
          exact ⟨by decide +kernel, fun hsep => absurd hsep (by decide)⟩
        · obtain ⟨hlower, hsep⟩ := isLower_of_mem_lowerChar hc hd
          exact ⟨hlower, fun h => hsep h ▸ List.mem_cons_self ..⟩
      · obtain ⟨hlower, hsep⟩ := ih hd
        exact ⟨hlower, fun h => List.mem_cons_of_mem _ (hsep h)⟩

theorem toList_lower (s : String) : (lower s).toList = lowerFrom [] s.toList := String.toList_ofList

/-- A text in lower case is one of which every character is. -/
theorem lower_eq_self_iff {s : String} : lower s = s ↔ ∀ c ∈ s.toList, IsLower c := by
  rw [← String.toList_inj, toList_lower]
  exact ⟨isLower_of_lowerFrom_eq, fun h => lowerFrom_of_isLower h []⟩

/-- No character disappears. -/
theorem lower_ne_empty {s : String} (h : s ≠ "") : lower s ≠ "" := by
  obtain ⟨c, cs, hs⟩ := List.exists_cons_of_ne_nil fun hnil => h (String.toList_eq_nil_iff.mp hnil)
  obtain ⟨mapped, heq, hmapped⟩ := lowerFrom_cons [] c cs
  have hne : mapped ≠ [] := by
    rcases hmapped with ⟨-, rfl | rfl⟩ | ⟨-, rfl⟩
    · exact List.cons_ne_nil _ _
    · exact List.cons_ne_nil _ _
    · exact lowerChar_ne_nil c
  intro hempty
  have hnil : lowerFrom [] s.toList = [] := by
    rw [← toList_lower, hempty]
    rfl
  rw [hs, heq, List.append_eq_nil_iff] at hnil
  exact hne hnil.1

theorem lower_lower (s : String) : lower (lower s) = lower s := by
  rw [lower_eq_self_iff, toList_lower]
  exact fun c hc => (mem_lowerFrom hc).1

/-! ## Weights

A name in which words are joined by underscores may be cut into words in many
ways, and the underscores do not tell them apart. What is kept is how much else
there is in it. -/

/-- How many characters besides underscores the character has in lower case. -/
def letterWeight (c : Char) : Nat := if c = 'Σ' then 1 else (lowerChar c).countP (· ≠ '_')

/-- The sum of these over a text. -/
def weight : List Char → Nat
  | [] => 0
  | c :: cs => letterWeight c + weight cs

@[simp] theorem weight_nil : weight [] = 0 := rfl

@[simp] theorem weight_cons (c : Char) (cs : List Char) :
    weight (c :: cs) = letterWeight c + weight cs := rfl

@[simp] theorem weight_append (xs ys : List Char) : weight (xs ++ ys) = weight xs + weight ys := by
  induction xs with
  | nil => exact (Nat.zero_add _).symm
  | cons c xs ih => rw [List.cons_append, weight_cons, weight_cons, ih, Nat.add_assoc]

theorem letterWeight_score : letterWeight '_' = 0 := by decide +kernel

theorem letterWeight_pos {c : Char} (h : c ≠ '_') : 0 < letterWeight c := by
  rw [letterWeight]
  split
  · exact Nat.one_pos
  · rename_i hsigma
    rw [List.countP_pos_iff]
    have hne : ∀ d ∈ lowerChar c, d ≠ '_' := by
      rintro d hd rfl
      exact h ((isLower_of_mem_lowerChar hsigma hd).2 rfl).symm
    rcases lowerChar_eq c with ⟨d, hd⟩ | ⟨-, hd⟩
    · exact ⟨d, by simp [hd], by simpa using hne d (by simp [hd])⟩
    · exact ⟨'i', by simp [hd], by decide⟩

theorem weight_pos {cs : List Char} (h : ∃ c ∈ cs, c ≠ '_') : 0 < weight cs := by
  obtain ⟨c, hc, hne⟩ := h
  obtain ⟨before, after, rfl⟩ := List.append_of_mem hc
  have hpos := letterWeight_pos hne
  rw [weight_append, weight_cons]
  omega

/-- Lower-casing keeps the weight, and nothing but underscores has none. -/
theorem countP_lowerFrom (before cs : List Char) :
    (lowerFrom before cs).countP (· ≠ '_') = weight cs := by
  induction cs generalizing before with
  | nil => rfl
  | cons c cs ih =>
      obtain ⟨mapped, heq, hmapped⟩ := lowerFrom_cons before c cs
      rw [heq, List.countP_append, ih, weight_cons, letterWeight]
      rcases hmapped with ⟨rfl, rfl | rfl⟩ | ⟨hc, rfl⟩
      · rfl
      · rfl
      · rw [if_neg hc]

/-- Texts of the same lower case have the same weight. -/
theorem weight_eq_of_lower_eq {s t : String} (h : lower s = lower t) :
    weight s.toList = weight t.toList := by
  rw [← countP_lowerFrom [], ← countP_lowerFrom [] t.toList, ← toList_lower, ← toList_lower, h]

end GameTable.Text
