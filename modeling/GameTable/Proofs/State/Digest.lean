import GameTable.Proofs.Json.RoundTrip
import GameTable.Proofs.Log.Bytes
import GameTable.Proofs.State.Reading
import GameTable.State.Digest

/-!
# What a digest says of a state

The text that is hashed gives the state back (`Snapshot.canonical_is_faithful`),
all but the last command, which is not in it. So states with one text are the
same, and states with one digest are the same unless their two texts are a
collision of the hash. Nothing is assumed of the hash: if a digest hides a
difference, the collision is there to be seen.

That different documents have different texts does not depend on how deeply they
nest (`Json.print_injective`), because a reader may be given as many levels as
they have.
-/

namespace GameTable

/-! ## Documents with one text -/

/-- Documents whose numbers are read as they are printed differ in their texts. -/
theorem Json.print_injective {j k : Json} (hj : j.Exact) (hk : k.Exact)
    (h : j.print = k.print) : j = k := by
  have hread : ∀ {i : Json}, i.Exact → i.levels ≤ max j.levels k.levels →
      value (max j.levels k.levels) i.print = some (i.written, []) := by
    intro i hi hlevels
    have hvalue := value_print_readTo (max j.levels k.levels) i [] hi nofun
    rwa [List.append_nil, readTo_of_levels_le i hlevels] at hvalue
  have hwritten : j.written = k.written := by
    have heq := (hread hj (Nat.le_max_left ..)).symm.trans
      ((congrArg _ h).trans (hread hk (Nat.le_max_right ..)))
    exact (Prod.mk.inj (Option.some.inj heq)).1
  have hsame := toJson?_written j
  rw [hwritten, toJson?_written] at hsame
  exact (Option.some.inj hsame).symm

/-! ## Digests -/

namespace Sha256

def hexDigit (c : Char) : Nat := if c.isDigit then c.toNat - 48 else c.toNat - 87

/-- The number that hexadecimal digits stand for. -/
def hexValue (cs : List Char) : Nat := cs.foldl (fun n c => 16 * n + hexDigit c) 0

theorem hexDigit_digitChar : ∀ d < 16, hexDigit d.digitChar = d := by decide

theorem hexValue_toDigits (n : Nat) : hexValue (Nat.toDigits 16 n) = n := by
  induction n using Nat.strongRecOn with
  | ind n ih =>
      rw [Nat.toDigits_eq_if (by decide)]
      split
      · rename_i hn
        rw [hexValue, List.foldl_cons, List.foldl_nil, hexDigit_digitChar n hn, Nat.mul_zero,
          Nat.zero_add]
      · rename_i hn
        have hquotient := ih (n / 16) (by omega)
        rw [hexValue] at hquotient ⊢
        rw [List.foldl_append, hquotient, List.foldl_cons, List.foldl_nil,
          hexDigit_digitChar _ (Nat.mod_lt n (by decide))]
        omega

theorem hexValue_hex8 (w : UInt32) : hexValue (hex8 w) = w.toNat := by
  have hzeros : ∀ k cs, hexValue (List.replicate k '0' ++ cs) = hexValue cs := by
    intro k cs
    induction k with
    | zero => rfl
    | succ k ih => exact ih
  exact (hzeros _ _).trans (hexValue_toDigits w.toNat)

theorem length_hex8 (w : UInt32) : (hex8 w).length = 8 := by
  have hle : (Nat.toDigits 16 w.toNat).length ≤ 8 :=
    (Nat.length_toDigits_le_iff (by decide) (by decide)).mpr w.toNat_lt
  rw [hex8, List.length_append, List.length_replicate]
  omega

/-- The digits of two lists of words are the same only if the words are. -/
theorem flatMap_hex8_injective {xs ys : List UInt32} (hlength : xs.length = ys.length)
    (h : xs.flatMap hex8 = ys.flatMap hex8) : xs = ys := by
  induction xs generalizing ys with
  | nil => exact (List.length_eq_zero_iff.mp hlength.symm).symm
  | cons x xs ih =>
      cases ys with
      | nil => cases hlength
      | cons y ys =>
          rw [List.flatMap_cons, List.flatMap_cons] at h
          obtain ⟨hword, hrest⟩ := List.append_inj h ((length_hex8 x).trans (length_hex8 y).symm)
          have hvalue : x.toNat = y.toNat := by
            rw [← hexValue_hex8, hword, hexValue_hex8]
          rw [UInt32.toNat_inj.mp hvalue, ih (Nat.succ.inj hlength) hrest]

theorem Words.toList_injective {x y : Words} (h : x.toList = y.toList) : x = y := by
  cases x
  cases y
  simpa [Words.toList] using h

/-- Texts have one digest just if their bytes have one hash. -/
theorem hexDigest_eq_iff {s t : String} :
    hexDigest s = hexDigest t ↔ hash s.toUTF8.toList = hash t.toUTF8.toList := by
  refine ⟨fun h => Words.toList_injective (flatMap_hex8_injective rfl ?_), fun h => ?_⟩
  · exact String.ofList_injective h
  · rw [hexDigest, h, hexDigest]

/-- Two messages that differ and have one hash. -/
structure Collide (a b : List UInt8) : Prop where
  differ : a ≠ b
  hash : hash a = hash b

end Sha256

/-! ## States -/

theorem Entity.exact_toJson {x : Entity} (h : x.Narrow) : x.toJson.Exact := by
  have hnumbers : ∀ sec, (numbersToJson (x.numbers sec)).Exact :=
    fun sec => Json.exact_ofDict fun key n hn => Json.exact_int (h sec key n hn)
  have htexts : ∀ sec, (textsToJson (x.texts sec)).Exact :=
    fun sec => Json.exact_ofDict fun _ _ _ => trivial
  exact ⟨trivial, trivial, Json.exact_ofStrings _, htexts .classes, hnumbers .stats,
    hnumbers .resources, hnumbers .spent, Json.exact_ofStrings _, hnumbers .proficiencies,
    htexts .statuses, hnumbers .inventory, trivial⟩

theorem Loop.exact_toJson {l : Loop} (h : l.Narrow) : l.toJson.Exact := by
  have horder : (Json.ofDict (l.order.map .int)).Exact :=
    Json.exact_ofDict fun actor n hn => Json.exact_int (h.order actor n hn)
  have hcurrent : minInteger ≤ (l.current : Int) :=
    Int.le_trans (show minInteger ≤ 0 by decide) (Int.natCast_nonneg _)
  exact ⟨trivial, Json.exact_ofStrings _, horder, trivial, ⟨hcurrent, h.current⟩, trivial⟩

namespace State

/-- The state is one that the program can hold, and the numbers in its metadata
are read as they are printed. -/
structure Regular (s : State) : Prop where
  entities : s.Narrow
  loops : ∀ name l, s.loops.get? name = some l → l.Narrow
  ordered : (Json.ofDict s.metadata).Ordered
  exact : (Json.ofDict s.metadata).Exact

theorem Regular.exact_toJson {s : State} (h : s.Regular) : s.toJson.Exact :=
  ⟨Json.exact_ofDict fun id x hx => Entity.exact_toJson (h.entities id x hx),
    Json.exact_ofDict fun name l hl => Loop.exact_toJson (h.loops name l hl), h.exact, trivial⟩

theorem Regular.read?_node {τ : Type} [DocumentTree τ] {node : Json → τ}
    (hnode : Json.Shows node) {s : State} (h : s.Regular) : read? (node s.toJson) = some s :=
  State.read?_node hnode h.entities h.loops h.ordered

/-- The document that is hashed tells states apart. -/
theorem toJson_injective {s t : State} (hs : s.Regular) (ht : t.Regular)
    (h : s.toJson = t.toJson) : s = t := by
  have hread := hs.read?_node Json.shows_id
  rw [h, ht.read?_node Json.shows_id] at hread
  exact (Option.some.inj hread).symm

/-- The text that is hashed tells states apart. -/
theorem canonical_injective {s t : State} (hs : s.Regular) (ht : t.Regular)
    (h : s.canonical = t.canonical) : s = t :=
  toJson_injective hs ht
    (Json.print_injective hs.exact_toJson ht.exact_toJson (String.ofList_injective h))

end State

/-- A state with the last command, which does not belong to the game and is not
stored. -/
structure Snapshot extends State where
  last : Option String

namespace Snapshot

/-- States are the same whatever their last commands are. -/
def Same (s t : Snapshot) : Prop := s.toState = t.toState

/-- Reads the text of a state. Nothing in it is the last command. -/
def parse? (text : String) : Option Snapshot := do
  let s ← State.read? (← Json.read text)
  return ⟨s, none⟩

theorem parse?_canonical {s : Snapshot} (h : s.Regular) (hlevels : s.toJson.levels < 128) :
    parse? s.canonical = some ⟨s.toState, none⟩ := by
  have hread : Json.read (.ofList (s.toJson.print ++ [])) = some s.toJson.written :=
    Json.read_print h.exact_toJson (Nat.le_of_lt_succ hlevels) rfl
  rw [List.append_nil] at hread
  rw [parse?, State.canonical, Json.render, hread, Option.bind_eq_bind, Option.bind_some,
    h.read?_node Json.shows_written]
  rfl

/-- Of a state that the program can hold, and in whose metadata all numbers are
read as they are printed: the text that is hashed is read as the same state
without the last command, if it does not nest too deeply. The text is that of
another such state, whatever the last commands, just if they are the same. The
digests are equal just if the states are the same or their two texts are a
collision of the hash. -/
theorem canonical_is_faithful {s : Snapshot} (hs : s.Regular) :
    (s.toJson.levels < 128 → parse? s.canonical = some ⟨s.toState, none⟩)
      ∧ ∀ t : Snapshot, t.Regular →
        (s.canonical = t.canonical ↔ s.Same t)
          ∧ (s.digest = t.digest ↔ s.Same t
            ∨ Sha256.Collide s.canonical.toUTF8.toList t.canonical.toUTF8.toList) := by
  refine ⟨parse?_canonical hs, fun t ht => ?_⟩
  have htext : s.canonical = t.canonical ↔ s.Same t :=
    ⟨State.canonical_injective hs ht, congrArg State.canonical⟩
  refine ⟨htext, ?_⟩
  rw [State.digest, State.digest, Sha256.hexDigest_eq_iff, ← htext]
  constructor
  · intro hhash
    by_cases heq : s.canonical = t.canonical
    · exact .inl heq
    · exact .inr ⟨fun hbytes => heq (toList_toUTF8_injective hbytes), hhash⟩
  · rintro (heq | hcollide)
    · rw [heq]
    · exact hcollide.hash

/-- A goblin whose turn it is, and metadata with a fraction, a text with a quote
and an empty name. -/
theorem canonical_is_faithful_goblin :
    let goblin : Entity := { Entity.blank "goblin" "Goblin \"Gob\"" with
      types := .ofNames ["humanoid"]
      stats := .ofList [("dex", 14)]
      conditions := ["prone", "blessed"] }
    let combat : Loop := ⟨true, ["goblin"], .ofList [("goblin", -3)], false, 0⟩
    let game (odds : FiniteFloat) : State := ⟨.ofList [("goblin", goblin)],
      .ofList [("combat", combat)], .ofList [("", .arr [.float odds, .null, .str "\u0001"])]⟩
    let s : Snapshot := ⟨game ⟨0.3, by decide +kernel⟩, some "attack"⟩
    let t : Snapshot := ⟨game ⟨0.7, by decide +kernel⟩, some "attack"⟩
    parse? s.canonical = some ⟨s.toState, none⟩ ∧ s.canonical ≠ t.canonical
      ∧ (s.digest = t.digest
        → Sha256.Collide s.canonical.toUTF8.toList t.canonical.toUTF8.toList) := by
  intro goblin combat game s t
  have hgoblin : goblin.Narrow := by decide +kernel
  have hcombat : combat.Narrow := by
    refine ⟨fun actor n hn => ?_, by decide⟩
    obtain rfl := (Prod.mk.inj (List.mem_singleton.mp (Dict.mem_of_get?_ofList hn))).2
    decide
  have hregular : ∀ odds : FiniteFloat, odds.ReadsBack → (game odds).Regular := by
    intro odds hodds
    refine ⟨fun id x hx => ?_, fun name l hl => ?_, ?_, ?_⟩
    · exact (Prod.mk.inj (List.mem_singleton.mp (Dict.mem_of_get?_ofList hx))).2 ▸ hgoblin
    · exact (Prod.mk.inj (List.mem_singleton.mp (Dict.mem_of_get?_ofList hl))).2 ▸ hcombat
    · exact ⟨List.pairwise_singleton .., ⟨trivial, trivial, trivial, trivial⟩, trivial⟩
    · exact ⟨⟨hodds, trivial, trivial, trivial⟩, trivial⟩
  have hs : s.Regular := hregular _ (by decide +kernel)
  have ht : t.Regular := hregular _ (by decide +kernel)
  obtain ⟨hparse, htells⟩ := canonical_is_faithful hs
  obtain ⟨htext, hdigest⟩ := htells t ht
  have hdiffer : s.toState ≠ t.toState := by decide +kernel
  exact ⟨hparse (by decide +kernel), fun heq => hdiffer (htext.mp heq),
    fun heq => (hdigest.mp heq).resolve_left hdiffer⟩

end Snapshot

end GameTable
