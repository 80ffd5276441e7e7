import Mathlib.Data.List.Induction
import GameTable.Proofs.Command.Items
import GameTable.Proofs.Command.Rereading

/-!
# What a line says

A line of words is divided by the keywords in it: some words come first, and
each keyword goes with the words up to the next one (`Division`). Every line has
such a division (`exists_division`), and whether the line is a command, and
which one, can be told from it without reading the line word by word
(`Line.parse_means`). The first words are the command. Of several clauses `by`
the last one names the actor, as the last one counts for every parameter; but
all of them have to be in order, also those that are passed over. The targets of
all clauses come one after another.
-/

namespace GameTable

open Text (IsWord isBlank)

namespace Line

/-! ## Dividing a line -/

/-- A keyword as it is spelled, and the words after it. -/
structure Part where
  spelling : String
  words : List String
deriving DecidableEq

namespace Part

def key (p : Part) : String := Text.lower p.spelling

def clause (p : Part) : Clause := ⟨p.key, p.words⟩

def items (p : Part) : List String := p.clause.items

/-- With a colon behind it, the spelling is that of a keyword. -/
def Spelled (p : Part) : Prop := p.spelling ≠ "" ∧ ∀ c ∈ p.spelling.toList, isKeyChar c = true

-- The characters of the spelling are run through, not all that there are.
instance (p : Part) : Decidable p.Spelled :=
  @instDecidableAnd _ _ inferInstance (List.decidableBAll _ _)

end Part

/-- A line of words, divided at its keywords. -/
structure Division where
  before : List String
  parts : List Part

namespace Division

/-- The words of the line. -/
def words (d : Division) : List String :=
  d.before ++ d.parts.flatMap fun p => (p.spelling ++ ":") :: p.words

/-- The line is divided where keywords are, and nowhere else. -/
structure Proper (d : Division) : Prop where
  before : ∀ w ∈ d.before, ¬ IsKeyword w
  spelled : ∀ p ∈ d.parts, p.Spelled
  within : ∀ p ∈ d.parts, ∀ w ∈ p.words, ¬ IsKeyword w

instance (d : Division) : Decidable d.Proper :=
  decidable_of_iff ((∀ w ∈ d.before, ¬ IsKeyword w)
    ∧ (∀ p ∈ d.parts, p.Spelled) ∧ ∀ p ∈ d.parts, ∀ w ∈ p.words, ¬ IsKeyword w)
    ⟨fun ⟨before, spelled, within⟩ => ⟨before, spelled, within⟩,
      fun h => ⟨h.before, h.spelled, h.within⟩⟩

end Division

theorem exists_division (ws : List String) : ∃ d : Division, d.Proper ∧ d.words = ws := by
  induction ws with
  | nil => exact ⟨⟨[], []⟩, ⟨nofun, nofun, nofun⟩, rfl⟩
  | cons w ws ih =>
      obtain ⟨d, hd, rfl⟩ := ih
      by_cases hw : IsKeyword w
      · obtain ⟨spelling, hne, hchars, rfl⟩ := hw
        refine ⟨⟨[], ⟨spelling, d.before⟩ :: d.parts⟩, ⟨nofun, ?_, ?_⟩, rfl⟩
        · exact List.forall_mem_cons.mpr ⟨⟨hne, hchars⟩, hd.spelled⟩
        · exact List.forall_mem_cons.mpr ⟨hd.before, hd.within⟩
      · refine ⟨⟨w :: d.before, d.parts⟩, ⟨?_, hd.spelled, hd.within⟩, rfl⟩
        exact List.forall_mem_cons.mpr ⟨hw, hd.before⟩

theorem clauses_parts {parts : List Part} (hspelled : ∀ p ∈ parts, p.Spelled)
    (hwithin : ∀ p ∈ parts, ∀ w ∈ p.words, ¬ IsKeyword w) :
    clauses (parts.flatMap fun p => (p.spelling ++ ":") :: p.words)
      = ([], parts.map Part.clause) := by
  induction parts with
  | nil => rfl
  | cons p parts ih =>
      rw [List.forall_mem_cons] at hspelled hwithin
      have hkey : keyword? (p.spelling ++ ":") = some p.key :=
        keyword?_eq_some_iff.mpr ⟨p.spelling, hspelled.1.1, hspelled.1.2, rfl, rfl⟩
      rw [List.flatMap_cons, List.cons_append, clauses_cons_keyword hkey,
        clauses_append fun w hw => keyword?_eq_none_iff.mpr (hwithin.1 w hw),
        ih hspelled.2 hwithin.2, List.append_nil]
      rfl

theorem Division.Proper.clauses_eq {d : Division} (h : d.Proper) :
    clauses d.words = (d.before, d.parts.map Part.clause) := by
  rw [Division.words, clauses_append fun w hw => keyword?_eq_none_iff.mpr (h.before w hw),
    clauses_parts h.spelled h.within, List.append_nil]

/-! ## One clause after another -/

/-- The keyword has items, and not more than one if it names the actor. -/
def Part.InOrder (p : Part) : Prop := p.items ≠ [] ∧ (p.key = "by" → p.items.length ≤ 1)

theorem Part.InOrder.exists_actor {p : Part} (h : p.InOrder) (hby : p.key = "by") :
    ∃ actor, p.items = [actor] :=
  List.length_eq_one_iff.mp (Nat.le_antisymm (h.2 hby) (List.length_pos_iff.mpr h.1))

/-- The input with what the part says, if it is in order. -/
def heard (input : Input) (p : Part) : Input :=
  if p.key = "by" then { input with actor := p.items.headD "" }
  else if p.key = "to" ∨ p.key = "of" then { input with targets := input.targets ++ p.items }
  else { input with params := input.params.insert p.key (itemsValue p.items) }

theorem addClause_of_inOrder {p : Part} (h : p.InOrder) (input : Input) :
    addClause input p.clause = .ok (heard input p) := by
  change (if p.items.isEmpty then _ else if p.key = "by" then _ else _) = _
  rw [heard, if_neg (by simpa using h.1)]
  by_cases hby : p.key = "by"
  · obtain ⟨actor, hitems⟩ : ∃ actor, p.clause.items = [actor] := h.exists_actor hby
    rw [if_pos hby, if_pos hby, Part.items, hitems]
    rfl
  · rw [if_neg hby, if_neg hby]
    exact (apply_ite Except.ok _ _ _).symm

theorem addClause_of_not_inOrder {p : Part} (h : ¬ p.InOrder) (input : Input) :
    ∃ err, addClause input p.clause = .error err := by
  change ∃ err, (if p.items.isEmpty then _ else if p.key = "by" then _ else _) = _
  by_cases hempty : p.items = []
  · exact ⟨_, if_pos (by simpa using hempty)⟩
  · have hby : p.key = "by" ∧ 1 < p.items.length := by
      simpa [Part.InOrder, hempty] using h
    rw [if_neg (by simpa using hempty), if_pos hby.1]
    refine ⟨.severalActors, ?_⟩
    split
    · rename_i actor hitems
      have hmany : 1 < p.clause.items.length := hby.2
      rw [hitems] at hmany
      exact absurd hmany (by simp)
    · rfl

theorem foldlM_addClause {parts : List Part} (h : ∀ p ∈ parts, p.InOrder) (input : Input) :
    (parts.map Part.clause).foldlM addClause input = .ok (parts.foldl heard input) := by
  induction parts generalizing input with
  | nil => rfl
  | cons p parts ih =>
      rw [List.forall_mem_cons] at h
      rw [List.map_cons, List.foldlM_cons, addClause_of_inOrder h.1, ok_bind, ih h.2,
        List.foldl_cons]

/-- One part that is not in order spoils the whole line. -/
theorem foldlM_addClause_eq_error {parts : List Part} (h : ∃ p ∈ parts, ¬ p.InOrder)
    (input : Input) : ∃ err, (parts.map Part.clause).foldlM addClause input = .error err := by
  induction parts generalizing input with
  | nil =>
      obtain ⟨p, hp, -⟩ := h
      cases hp
  | cons p parts ih =>
      rw [List.map_cons, List.foldlM_cons]
      by_cases hp : p.InOrder
      · rw [addClause_of_inOrder hp, ok_bind]
        obtain ⟨q, hq, hnot⟩ := h
        rcases List.mem_cons.mp hq with rfl | hq
        · exact absurd hp hnot
        · exact ih ⟨q, hq, hnot⟩ _
      · obtain ⟨err, herr⟩ := addClause_of_not_inOrder hp input
        exact ⟨err, by rw [herr, error_bind]⟩

/-! ## All clauses together -/

/-- The last of the parts with a key. -/
def lastUnder? (parts : List Part) (key : String) : Option Part :=
  (parts.filter (·.key = key)).getLast?

theorem lastUnder?_append (parts : List Part) (p : Part) (key : String) :
    lastUnder? (parts ++ [p]) key = if p.key = key then some p else lastUnder? parts key := by
  rw [lastUnder?, lastUnder?, List.filter_append]
  by_cases h : p.key = key
  · simp [h]
  · simp [h]

variable {command : String}

theorem command_foldl_heard (parts : List Part) :
    (parts.foldl heard (.ofCommand command)).command = command := by
  induction parts using List.reverseRecOn with
  | nil => rfl
  | append_singleton parts p ih =>
      rw [List.foldl_append, List.foldl_cons, List.foldl_nil, heard]
      split
      · exact ih
      · split <;> exact ih

theorem actor_foldl_heard (parts : List Part) :
    (parts.foldl heard (.ofCommand command)).actor
      = ((lastUnder? parts "by").map fun p => p.items.headD "").getD gameMaster := by
  induction parts using List.reverseRecOn with
  | nil => rfl
  | append_singleton parts p ih =>
      rw [List.foldl_append, List.foldl_cons, List.foldl_nil, heard, lastUnder?_append]
      split
      · rfl
      · split <;> exact ih

theorem targets_foldl_heard (parts : List Part) :
    (parts.foldl heard (.ofCommand command)).targets
      = (parts.filter fun p => p.key = "to" ∨ p.key = "of").flatMap Part.items := by
  induction parts using List.reverseRecOn with
  | nil => rfl
  | append_singleton parts p ih =>
      rw [List.foldl_append, List.foldl_cons, List.foldl_nil, heard, List.filter_append,
        List.flatMap_append]
      by_cases hby : p.key = "by"
      · simp [hby, ih]
      · by_cases hto : p.key = "to" ∨ p.key = "of"
        · simp [hby, hto, ih]
        · simp [hby, hto, ih]

/-- A part makes a difference to the parameter of its own key. -/
theorem params_heard (input : Input) (p : Part) (key : String) :
    (heard input p).params.get? key
      = if p.key = key ∧ key ∉ ["by", "to", "of"] then some (itemsValue p.items)
        else input.params.get? key := by
  by_cases hplain : p.key ∈ ["by", "to", "of"]
  · have hnot : ¬ (p.key = key ∧ key ∉ ["by", "to", "of"]) := fun h => h.2 (h.1 ▸ hplain)
    rw [heard, if_neg hnot]
    by_cases hby : p.key = "by"
    · rw [if_pos hby]
    · have hto : p.key = "to" ∨ p.key = "of" := by simpa [hby] using hplain
      rw [if_neg hby, if_pos hto]
  · have hby : p.key ≠ "by" := fun h => hplain (by simp [h])
    have hto : ¬ (p.key = "to" ∨ p.key = "of") := by
      rintro (h | h) <;> exact hplain (by simp [h])
    rw [heard, if_neg hby, if_neg hto, Dict.get?_insert]
    by_cases hkey : p.key = key
    · rw [if_pos hkey, if_pos ⟨hkey, hkey ▸ hplain⟩]
    · rw [if_neg hkey, if_neg fun h => hkey h.1]

theorem params_foldl_heard (parts : List Part) (key : String) :
    (parts.foldl heard (.ofCommand command)).params.get? key
      = if key ∈ ["by", "to", "of"] then none
        else (lastUnder? parts key).map fun p => itemsValue p.items := by
  induction parts using List.reverseRecOn with
  | nil => split <;> rfl
  | append_singleton parts p ih =>
      rw [List.foldl_append, List.foldl_cons, List.foldl_nil, lastUnder?_append, params_heard, ih]
      by_cases hkey : p.key = key
      · by_cases hplain : key ∈ ["by", "to", "of"]
        · rw [if_neg fun h => h.2 hplain, if_pos hplain, if_pos hplain]
        · rw [if_pos ⟨hkey, hplain⟩, if_neg hplain, if_pos hkey]
          rfl
      · rw [if_neg fun h => hkey h.1, if_neg hkey]

/-! ## The meaning of a line -/

namespace Division

/-- The line is no command: it has no words for one, a keyword without items, or
more than one actor after a keyword. -/
def Faulty (d : Division) : Prop :=
  d.before = [] ∨ (∃ p ∈ d.parts, p.items = [])
    ∨ ∃ p ∈ d.parts, p.key = "by" ∧ 2 ≤ p.items.length

/-- What the line asks for. -/
structure Means (d : Division) (r : Input) : Prop where
  command : r.command = Text.lower ("_".intercalate d.before)
  /-- The last clause `by` has one item, the actor. -/
  actor (p : Part) : lastUnder? d.parts "by" = some p → p.items = [r.actor]
  noActor : lastUnder? d.parts "by" = none → r.actor = gameMaster
  targets : r.targets = (d.parts.filter fun p => p.key = "to" ∨ p.key = "of").flatMap Part.items
  params (key : String) :
    r.params.get? key = if key ∈ ["by", "to", "of"] then none
      else (lastUnder? d.parts key).map fun p => itemsValue p.items

variable {d : Division}

theorem faulty_iff : d.Faulty ↔ d.before = [] ∨ ∃ p ∈ d.parts, ¬ p.InOrder := by
  have hpart (p : Part) :
      ¬ p.InOrder ↔ p.items = [] ∨ p.key = "by" ∧ 2 ≤ p.items.length := by
    rw [Part.InOrder, Classical.not_and_iff_not_or_not, not_not, Classical.not_imp, Nat.not_le]
    rfl
  simp only [hpart, and_or_left, exists_or]
  rfl

/-- Where every part is in order, what they say one after another is what the
line means. -/
theorem means_foldl_heard (hparts : ∀ p ∈ d.parts, p.InOrder) :
    d.Means (d.parts.foldl heard (.ofCommand (Text.lower ("_".intercalate d.before)))) where
  command := command_foldl_heard d.parts
  actor p hp := by
    have hmem : p ∈ d.parts.filter (·.key = "by") := List.mem_of_getLast? hp
    obtain ⟨hmem, hby⟩ := List.mem_filter.mp hmem
    obtain ⟨actor, hitems⟩ := (hparts p hmem).exists_actor (of_decide_eq_true hby)
    rw [actor_foldl_heard, hp, Option.map_some, Option.getD_some, hitems]
    rfl
  noActor h := by
    rw [actor_foldl_heard, h]
    rfl
  targets := targets_foldl_heard d.parts
  params := params_foldl_heard d.parts

end Division

theorem intercalate_ne_empty {ws : List String} (hne : ws ≠ []) (h : ∀ w ∈ ws, IsWord w) :
    "_".intercalate ws ≠ "" := by
  obtain ⟨w, rest, rfl⟩ := List.exists_cons_of_ne_nil hne
  cases rest with
  | nil =>
      rw [String.intercalate_singleton]
      exact (h w (List.mem_cons_self ..)).1
  | cons x rest =>
      rw [String.intercalate_cons_cons]
      simp

/-- A line is refused where its division is faulty, and read as what it means
where it is not. -/
theorem parse_of_words {d : Division} (hd : d.Proper) {line : String}
    (hline : d.words = Text.words line) :
    (d.Faulty → ∃ err, parse line = .error err)
      ∧ (¬ d.Faulty → ∃ r, parse line = .ok r ∧ d.Means r) := by
  have hclauses : clauses (Text.words line) = (d.before, d.parts.map Part.clause) :=
    hline ▸ hd.clauses_eq
  rw [Division.faulty_iff, parse, hclauses]
  dsimp only
  by_cases hbefore : d.before = []
  · rw [if_pos (by simpa using hbefore)]
    exact ⟨fun _ => ⟨_, rfl⟩, fun hsound => absurd (.inl hbefore) hsound⟩
  · rw [if_neg (by simpa using hbefore)]
    constructor
    · intro hfaulty
      exact foldlM_addClause_eq_error (hfaulty.resolve_left hbefore) _
    · intro hsound
      have hparts : ∀ p ∈ d.parts, p.InOrder := fun p hp =>
        Classical.byContradiction fun hnot => hsound (.inr ⟨p, hp, hnot⟩)
      exact ⟨_, foldlM_addClause hparts _, Division.means_foldl_heard hparts⟩

/-- Every line is divided at its keywords, and what can be known of it is known
from the division. It is refused if it is faulty, and otherwise read as what it
means; the command then has its canonical name. Items are the pieces of what
stands between keywords, and every one of them is tidy. -/
theorem parse_means (line : String) :
    (∃ d : Division, d.Proper ∧ d.words = Text.words line)
      ∧ ∀ d : Division, d.Proper → d.words = Text.words line →
        ((∃ err, parse line = .error err) ↔ d.Faulty)
          ∧ (¬ d.Faulty → ∃ r, parse line = .ok r ∧ d.Means r
            ∧ canonicalName r.command = r.command ∧ r.command ≠ "")
          ∧ ∀ p ∈ d.parts, (∃ pieces, Cuts (" ".intercalate p.words).toList pieces
              ∧ p.items = ((pieces.map Text.trimChars).filter (!·.isEmpty)).map .ofList)
            ∧ ∀ x ∈ p.items, Tidy x := by
  refine ⟨exists_division _, fun d hd hline => ?_⟩
  obtain ⟨hrefused, hread⟩ := parse_of_words hd hline
  refine ⟨⟨fun ⟨err, herr⟩ => ?_, hrefused⟩, fun hsound => ?_, fun p hp => ⟨?_, ?_⟩⟩
  · by_contra hsound
    obtain ⟨r, hr, -⟩ := hread hsound
    rw [hr] at herr
    cases herr
  · obtain ⟨r, hr, hmeans⟩ := hread hsound
    have hne : d.before ≠ [] := fun hnil => hsound (.inl hnil)
    have hwords : ∀ w ∈ d.before, IsWord w := by
      intro w hw
      have hmem : w ∈ d.words := List.mem_append_left _ hw
      rw [hline] at hmem
      exact Text.isWord_of_mem_words hmem
    refine ⟨r, hr, hmeans, ?_, ?_⟩
    · rw [hmeans.command]
      exact canonicalName_lower (not_blank_of_mem_intercalate hwords)
    · rw [hmeans.command]
      exact Text.lower_ne_empty (intercalate_ne_empty hne hwords)
  · obtain ⟨pieces, hpieces⟩ := exists_cuts (" ".intercalate p.words).toList
    exact ⟨pieces, hpieces, congrArg (List.map String.ofList) hpieces.itemsOf_eq⟩
  · exact fun x hx => Clause.tidy_of_mem_items hx

/-- Of two clauses `by` the second counts, and targets are named after two
keywords. With two actors after one keyword the line is refused. -/
theorem parse_means_grapple :
    (∃ r, parse "Grapple By: troll to: goblin, orc and and bear By: fighter of: bat" = .ok r
        ∧ r.command = "grapple" ∧ r.actor = "fighter"
        ∧ r.targets = ["goblin", "orc", "and bear", "bat"])
      ∧ ∃ err, parse "Grapple by: troll and orc" = .error err := by
  constructor
  · let d : Division := ⟨["Grapple"], [⟨"By", ["troll"]⟩,
      ⟨"to", ["goblin,", "orc", "and", "and", "bear"]⟩, ⟨"By", ["fighter"]⟩, ⟨"of", ["bat"]⟩]⟩
    have hd : d.Proper := by decide +kernel
    have hwords : d.words
        = Text.words "Grapple By: troll to: goblin, orc and and bear By: fighter of: bat" := by
      decide +kernel
    have hsound : ¬ d.Faulty := by
      rw [Division.faulty_iff]
      have hparts : ∀ p ∈ d.parts, p.items ≠ [] ∧ (p.key = "by" → p.items.length ≤ 1) := by
        decide +kernel
      exact not_or.mpr ⟨nofun, fun ⟨p, hp, hnot⟩ => hnot (hparts p hp)⟩
    obtain ⟨r, hr, hmeans, -⟩ := ((parse_means _).2 d hd hwords).2.1 hsound
    have hactor := hmeans.actor ⟨"By", ["fighter"]⟩ (by decide +kernel)
    refine ⟨r, hr, ?_, ?_, ?_⟩
    · rw [hmeans.command]
      decide +kernel
    · have hitems : Part.items ⟨"By", ["fighter"]⟩ = ["fighter"] := by decide +kernel
      exact List.singleton_inj.mp (hactor.symm.trans hitems)
    · rw [hmeans.targets]
      decide +kernel
  · let d : Division := ⟨["Grapple"], [⟨"by", ["troll", "and", "orc"]⟩]⟩
    have hd : d.Proper := by decide +kernel
    have hwords : d.words = Text.words "Grapple by: troll and orc" := by decide +kernel
    refine ((parse_means _).2 d hd hwords).1.mpr (.inr (.inr ⟨_, List.mem_singleton_self _, ?_⟩))
    decide +kernel

end Line

end GameTable
