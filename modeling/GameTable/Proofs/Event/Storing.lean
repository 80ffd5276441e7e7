import GameTable.Proofs.Decimal.Rounding
import GameTable.Proofs.Event.Refusal

/-!
# Integers that events store

An event may set an entry of a section of numbers to an integer of its document,
which has 64 bits, with a sign or without. What fits is stored as it is. What is
too large becomes a float before it is looked at, so it is refused if the float
is no integer of 64 bits (`Entity.numberOf_int`).

But the floats are coarse there. The 1025 integers from `2 ^ 63` on all become
the float of `2 ^ 63`, which is let through, and the largest integer is stored
in the place of each of them. So such an event is not told from one that asks for
the largest integer (`Event.apply_int_eq_of_band`), and this is all that is ever
stored wrong (`Event.stores_int_iff`).
-/

namespace GameTable

/-- The number that an entity has under a name. -/
def State.number? (s : State) (actor : String) (sec : NumberSection) (key : String) : Option Int :=
  (s.entities.get? actor).bind fun x => (x.numbers sec).get? key

/-- Documents hold integers of 64 bits, with a sign or without. -/
def InDocuments (n : Int) : Prop := minInteger ≤ n ∧ n ≤ maxUnsigned

instance (n : Int) : Decidable (InDocuments n) := inferInstanceAs (Decidable (_ ∧ _))

/-! ## What is read -/

theorem Value.toInt?_ofJson_int {n : Int} (hn : InDocuments n) :
    (ofJson (.int n)).toInt? = if n ≤ maxInteger + 1025 then some (min n maxInteger) else none := by
  rw [ofJson]
  by_cases hfits : Fits n
  · have hle : n ≤ maxInteger := hfits.2
    rw [if_pos hfits, if_pos (by omega), Int.min_eq_left hle]
    rfl
  · have hlow : maxInteger < n := Int.not_le.mp fun hle => hfits ⟨hn.1, hle⟩
    rw [if_neg hfits, Int.min_eq_right (Int.le_of_lt hlow)]
    exact intOfFloat?_ofInt hlow hn.2

namespace Entity

variable {n : Int} (sec : NumberSection) (key : String)

theorem numberOf_int (hn : InDocuments n) (hle : n ≤ maxInteger + 1025) :
    numberOf sec key (.int n) = .ok (some (min n maxInteger)) :=
  numberOf_eq_ok_some_iff.mpr (by rw [Value.toInt?_ofJson_int hn, if_pos hle])

theorem numberOf_int_beyond (hn : InDocuments n) (hlt : maxInteger + 1025 < n) :
    numberOf sec key (.int n) = .error (.attributeType (.numbers sec) key (.int n)) := by
  rw [numberOf, Value.toInt?_ofJson_int hn, if_neg (Int.not_le.mpr hlt)]
  nofun

end Entity

namespace Event

variable {name : String} {sec : NumberSection} (hsec : Section.named? name = some (.numbers sec))
  (actor key : String) {n : Int} (hn : InDocuments n) (s : State)

include hsec

theorem apply_int_eq :
    (attributeChanged actor name key (.int n)).apply s
      = s.updateEntity actor (Entity.changeEntry (.numbers sec) key (.int n)) := by
  rw [apply, hsec]

include hn

/-- An integer just above the largest one is not told from it. -/
theorem apply_int_eq_of_band (hlow : maxInteger < n) (hhigh : n ≤ maxInteger + 1025) :
    (attributeChanged actor name key (.int n)).apply s
      = (attributeChanged actor name key (.int maxInteger)).apply s := by
  have hread : Entity.numberOf sec key (.int n) = Entity.numberOf sec key (.int maxInteger) := by
    have hmax : InDocuments maxInteger := by decide
    rw [Entity.numberOf_int sec key hn hhigh, Entity.numberOf_int sec key hmax (by decide),
      Int.min_eq_right (Int.le_of_lt hlow), Int.min_eq_right (Int.le_refl _)]
  have hsame : Entity.changeEntry (.numbers sec) key (.int n)
      = Entity.changeEntry (.numbers sec) key (.int maxInteger) := by
    funext x
    rw [Entity.changeEntry, Entity.changeEntry, hread]
  rw [apply_int_eq hsec, apply_int_eq hsec, hsame]

/-- What is stored is the integer, or the largest one for those just above. -/
theorem number?_of_apply_int {t : State}
    (h : (attributeChanged actor name key (.int n)).apply s = .ok t) :
    n ≤ maxInteger + 1025 ∧ t.number? actor sec key = some (min n maxInteger) := by
  rw [apply_int_eq hsec] at h
  obtain ⟨x, y, -, hy, rfl⟩ := State.updateEntity_eq_ok_iff.mp h
  obtain ⟨number, hnumber, -, rfl⟩ := Entity.changeEntry_numbers.mp hy
  by_cases hle : n ≤ maxInteger + 1025
  · rw [Entity.numberOf_int sec key hn hle] at hnumber
    obtain rfl := Except.ok.inj hnumber
    refine ⟨hle, ?_⟩
    rw [State.number?, State.setEntity, Dict.get?_insert, if_pos rfl, Option.bind_some,
      Entity.numbers_setNumbers, if_pos rfl, Entity.get?_putEntry, if_pos rfl]
  · rw [Entity.numberOf_int_beyond sec key hn (Int.not_le.mp hle)] at hnumber
    cases hnumber

/-- An event that sets a number to an integer stores this integer, the largest one in the place of
the 1025 above it, or nothing if it is larger still. So it stores what it says if it is accepted,
unless the integer is one of the 1025 and the largest one would be accepted as well. -/
theorem stores_int_iff :
    (∀ t, (attributeChanged actor name key (.int n)).apply s = .ok t →
        t.number? actor sec key = some (min n maxInteger))
      ∧ (maxInteger + 1025 < n → ∀ t, (attributeChanged actor name key (.int n)).apply s ≠ .ok t)
      ∧ ((∀ t, (attributeChanged actor name key (.int n)).apply s = .ok t →
            t.number? actor sec key = some n)
          ↔ (maxInteger < n → n ≤ maxInteger + 1025 →
            ∀ t, (attributeChanged actor name key (.int maxInteger)).apply s ≠ .ok t)) := by
  have hstored {t : State} (h : (attributeChanged actor name key (.int n)).apply s = .ok t) :=
    number?_of_apply_int hsec actor key hn s h
  refine ⟨fun t h => (hstored h).2, fun hlt t h => ?_, fun hexact hlow hhigh t h => ?_,
    fun hband t h => ?_⟩
  · exact absurd (hstored h).1 (Int.not_le.mpr hlt)
  · rw [← apply_int_eq_of_band hsec actor key hn s hlow hhigh] at h
    have hsame := (hexact t h).symm.trans (hstored h).2
    rw [Int.min_eq_right (Int.le_of_lt hlow)] at hsame
    exact Int.ne_of_gt hlow (Option.some.inj hsame)
  · obtain ⟨hhigh, hmin⟩ := hstored h
    have hle : n ≤ maxInteger := by
      by_contra hlow
      have hlow := Int.not_le.mp hlow
      rw [apply_int_eq_of_band hsec actor key hn s hlow hhigh] at h
      exact hband hlow hhigh t h
    rw [hmin, Int.min_eq_left hle]

end Event

/-- A float would have no room for the last digit of the one number. The other is too large, and
refused. -/
theorem Event.stores_int_goblin :
    let s := State.genesis [Entity.blank "goblin" "Goblin"]
    (∃ t, (attributeChanged "goblin" "Stats" "luck" (.int 9007199254740993)).apply s = .ok t
        ∧ t.number? "goblin" .stats "luck" = some 9007199254740993)
      ∧ ∀ t, (attributeChanged "goblin" "Stats" "luck" (.int maxUnsigned)).apply s ≠ .ok t := by
  intro s
  have hsec : Section.named? "Stats" = some (.numbers .stats) := by decide +kernel
  have hexact := stores_int_iff hsec "goblin" "luck" (n := 9007199254740993) (by decide) s
  have hbeyond := stores_int_iff hsec "goblin" "luck" (n := maxUnsigned) (by decide) s
  obtain ⟨t, ht⟩ : ∃ t, (attributeChanged "goblin" "Stats" "luck" (.int 9007199254740993)).apply s
      = .ok t := by
    rw [apply_int_eq hsec]
    exact ⟨_, rfl⟩
  refine ⟨⟨t, ht, hexact.2.2.mpr (fun hlow => ?_) t ht⟩, hbeyond.2.1 (by decide)⟩
  exact absurd hlow (by decide)

theorem Event.largest_is_stored_instead :
    let s := State.genesis [Entity.blank "goblin" "Goblin"]
    ∃ t, (attributeChanged "goblin" "stats" "luck" (.int 9223372036854775808)).apply s = .ok t
      ∧ t.number? "goblin" .stats "luck" = some 9223372036854775807 := by
  intro s
  have hsec : Section.named? "stats" = some (.numbers .stats) := by decide +kernel
  have hdocument : InDocuments 9223372036854775808 := by decide
  obtain ⟨t, ht⟩ : ∃ t, (attributeChanged "goblin" "stats" "luck" (.int maxInteger)).apply s
      = .ok t := by
    rw [apply_int_eq hsec]
    exact ⟨_, rfl⟩
  rw [← apply_int_eq_of_band hsec "goblin" "luck" hdocument s (by decide) (by decide)] at ht
  exact ⟨t, ht, (number?_of_apply_int hsec "goblin" "luck" hdocument s ht).2⟩

end GameTable
