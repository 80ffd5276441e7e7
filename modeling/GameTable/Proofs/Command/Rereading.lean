import GameTable.Proofs.Command.RoundTrip

/-!
# When a written command asks for the same

What is written of an input can be read as something else: a text with a
keyword in it begins a clause of its own, and one with a comma or `and` is cut
into items. `rereads_iff` says for which inputs that does not happen. The
inputs that are read as asking for the same are the speakable ones, so it is
enough that every part reads back by itself; no part makes up for another.

The argument goes from what was read to what was written. The items that are
read hold no commas, so the texts that were written hold none, and without
commas the words of an item are words of its clause, none of which is a
keyword. The command is told from what follows it by its weight, since in its
name blanks and underscores are the same.
-/

namespace GameTable

open Line (Unbroken itemsIn keyword? itemsValue clauses addClause Clause)
open Text (IsWord isBlank words wordsOf weight)

/-- The inputs ask for the same: the command by its canonical name, the actor
with the game master under any spelling, the targets and the parameters. -/
def Input.Agrees (a b : Input) : Prop :=
  canonicalName a.command = canonicalName b.command
    ∧ (a.actor = b.actor ∨ a.isByGM = true ∧ b.isByGM = true)
    ∧ a.targets = b.targets ∧ a.params = b.params

/-! ## Canonical names -/

theorem canonicalName_lower {s : String} (h : ∀ c ∈ s.toList, isBlank c = false) :
    canonicalName (Text.lower s) = Text.lower s := by
  by_cases hempty : Text.lower s = ""
  · rw [hempty]
    decide +kernel
  · have hword : IsWord (Text.lower s) := by
      refine ⟨hempty, fun c hc => ?_⟩
      rw [Text.toList_lower] at hc
      rw [Bool.eq_false_iff]
      intro hblank
      rw [h c ((Text.mem_lowerFrom hc).2 (by simp [Text.isSeparator, hblank]))] at hblank
      cases hblank
    rw [canonicalName, Text.words_of_isWord hword, String.intercalate_singleton, Text.lower_lower]

theorem not_blank_of_mem_intercalate {ws : List String} (h : ∀ w ∈ ws, IsWord w) :
    ∀ c ∈ ("_".intercalate ws).toList, isBlank c = false := by
  intro c hc
  rcases Line.mem_intercalate hc with hc | ⟨w, hw, hc⟩
  · obtain rfl := List.mem_singleton.mp hc
    rfl
  · exact (h w hw).2 c hc

theorem canonicalName_canonicalName (command : String) :
    canonicalName (canonicalName command) = canonicalName command :=
  canonicalName_lower (not_blank_of_mem_intercalate fun _ hw => Text.isWord_of_mem_words hw)

/-! ## The weight of a command -/

theorem weight_intercalate (ws : List String) :
    weight ("_".intercalate ws).toList = weight (ws.flatMap String.toList) := by
  induction ws with
  | nil => rfl
  | cons w ws ih =>
      cases ws with
      | nil => simp
      | cons x ws =>
          have hscore : weight "_".toList = 0 := by decide +kernel
          rw [String.intercalate_cons_cons, String.toList_append, String.toList_append,
            List.flatMap_cons, Text.weight_append, Text.weight_append, Text.weight_append, ih,
            hscore, Nat.add_zero]

theorem flatMap_words (s : String) :
    (words s).flatMap String.toList = s.toList.filter fun c => !isBlank c := by
  rw [words, List.flatMap_map, ← Text.flatten_wordsOf]
  simp

/-- Writing a command with blanks for underscores keeps its weight. -/
theorem weight_words_spaced (input : Input) :
    weight ((words input.spaced).flatMap String.toList)
      = weight ((words input.command).flatMap String.toList) := by
  rw [flatMap_words, flatMap_words, Input.toList_spaced]
  induction input.command.toList with
  | nil => rfl
  | cons c cs ih =>
      by_cases hc : c = '_'
      · subst hc
        have hscore : isBlank '_' = false := rfl
        have hspace : isBlank ' ' = true := rfl
        simp [hscore, hspace, ih, Text.letterWeight_score]
      · cases hblank : isBlank c with
        | true => simp [hc, hblank, ih]
        | false => simp [hc, hblank, ih]

/-- Words that are as heavy as all of the first part are just these, if the
second part does not begin with a word of no weight. -/
theorem takeWhile_of_weight_eq {p : String → Bool} {command rest : List String}
    (hcommand : ∀ w ∈ command, 0 < weight w.toList)
    (hrest : ∀ w, rest.head? = some w → 0 < weight w.toList)
    (h : weight (((command ++ rest).takeWhile p).flatMap String.toList)
      = weight (command.flatMap String.toList)) :
    (∀ w ∈ command, p w = true) ∧ rest.takeWhile p = [] := by
  induction command with
  | nil =>
      refine ⟨nofun, ?_⟩
      cases rest with
      | nil => rfl
      | cons w rest =>
          have hpos := hrest w rfl
          rw [List.nil_append, List.takeWhile_cons] at h
          rw [List.takeWhile_cons]
          split at h
          · rw [List.flatMap_cons, Text.weight_append] at h
            simp only [List.flatMap_nil, Text.weight_nil] at h
            omega
          · rename_i hp
            rw [if_neg hp]
  | cons w command ih =>
      rw [List.forall_mem_cons] at hcommand
      rw [List.cons_append, List.takeWhile_cons] at h
      split at h
      · rename_i hp
        rw [List.flatMap_cons, List.flatMap_cons, Text.weight_append, Text.weight_append] at h
        obtain ⟨hall, hnil⟩ := ih hcommand.2 (by omega)
        exact ⟨List.forall_mem_cons.mpr ⟨hp, hall⟩, hnil⟩
      · rw [List.flatMap_nil, List.flatMap_cons, Text.weight_append, Text.weight_nil] at h
        omega

/-- A word of a written command has a weight. -/
theorem weight_pos_of_mem_words_spaced {input : Input} {w : String}
    (h : w ∈ words input.spaced) : 0 < weight w.toList := by
  obtain ⟨c, hc⟩ := List.exists_mem_of_ne_nil w.toList
    fun hnil => (Text.isWord_of_mem_words h).1 (String.toList_eq_nil_iff.mp hnil)
  refine Text.weight_pos ⟨c, hc, ?_⟩
  rintro rfl
  obtain ⟨cs, hcs, rfl⟩ := List.mem_map.mp h
  rw [String.toList_ofList] at hc
  have hmem := Text.mem_of_mem_wordsOf hcs hc
  rw [Input.toList_spaced] at hmem
  obtain ⟨d, -, hd⟩ := List.mem_map.mp hmem
  split at hd
  · cases hd
  · rename_i hne
    exact hne hd

/-! ## Where what was read comes from -/

namespace Line

theorem addClause_eq_ok {input r : Input} {c : Clause} (h : addClause input c = .ok r) :
    (∃ actor ∈ c.items, r = { input with actor })
      ∨ r = { input with targets := input.targets ++ c.items }
      ∨ c.key ∉ ["by", "to", "of"]
        ∧ r = { input with params := input.params.insert c.key (itemsValue c.items) } := by
  simp only [addClause] at h
  split at h
  · cases h
  · split at h
    · split at h
      · rename_i actor hitems
        obtain rfl := Except.ok.inj h
        exact .inl ⟨actor, by rw [hitems]; exact List.mem_singleton_self actor, rfl⟩
      · cases h
    · rename_i hby
      split at h
      · obtain rfl := Except.ok.inj h
        exact .inr (.inl rfl)
      · rename_i hto
        obtain rfl := Except.ok.inj h
        exact .inr (.inr ⟨by simpa [hby] using hto, rfl⟩)

/-- All that is said in `r` beyond `input` is said by one of the clauses. -/
structure Says (said : List Clause) (input r : Input) : Prop where
  command : r.command = input.command
  actor : r.actor = input.actor ∨ ∃ c ∈ said, r.actor ∈ c.items
  targets : ∀ x ∈ r.targets, x ∈ input.targets ∨ ∃ c ∈ said, x ∈ c.items
  params : ∀ e ∈ r.params.toList, e ∈ input.params.toList
    ∨ ∃ c ∈ said, c.key ∉ ["by", "to", "of"] ∧ e = (c.key, itemsValue c.items)

theorem says_of_addClause {input r : Input} {c : Clause} (h : addClause input c = .ok r) :
    Says [c] input r := by
  rcases addClause_eq_ok h with ⟨actor, hactor, rfl⟩ | rfl | ⟨hkey, rfl⟩
  · exact ⟨rfl, .inr ⟨c, List.mem_singleton_self c, hactor⟩, fun _ => .inl, fun _ => .inl⟩
  · refine ⟨rfl, .inl rfl, fun x hx => ?_, fun _ => .inl⟩
    exact (List.mem_append.mp hx).imp_right fun hx => ⟨c, List.mem_singleton_self c, hx⟩
  · refine ⟨rfl, .inl rfl, fun _ => .inl, fun e he => ?_⟩
    exact (Entries.mem_insert he).symm.imp_right fun he => ⟨c, List.mem_singleton_self c, hkey, he⟩

theorem Says.trans {said more : List Clause} {input mid r : Input} (h : Says said input mid)
    (h' : Says more mid r) : Says (said ++ more) input r where
  command := h'.command.trans h.command
  actor := by
    rcases h'.actor with heq | ⟨c, hc, hactor⟩
    · rw [heq]
      exact h.actor.imp_right fun ⟨c, hc, hactor⟩ => ⟨c, List.mem_append_left more hc, hactor⟩
    · exact .inr ⟨c, List.mem_append_right said hc, hactor⟩
  targets := fun x hx => by
    rcases h'.targets x hx with hx | ⟨c, hc, hitem⟩
    · exact (h.targets x hx).imp_right fun ⟨c, hc, hitem⟩ =>
        ⟨c, List.mem_append_left more hc, hitem⟩
    · exact .inr ⟨c, List.mem_append_right said hc, hitem⟩
  params := fun e he => by
    rcases h'.params e he with he | ⟨c, hc, hparam⟩
    · exact (h.params e he).imp_right fun ⟨c, hc, hparam⟩ =>
        ⟨c, List.mem_append_left more hc, hparam⟩
    · exact .inr ⟨c, List.mem_append_right said hc, hparam⟩

theorem says_of_foldlM {said : List Clause} {input r : Input}
    (h : said.foldlM addClause input = .ok r) : Says said input r := by
  induction said generalizing input with
  | nil =>
      obtain rfl := Except.ok.inj h
      exact ⟨rfl, .inl rfl, fun _ => .inl, fun _ => .inl⟩
  | cons c said ih =>
      rw [List.foldlM_cons, bind_eq_ok_iff] at h
      obtain ⟨mid, hclause, hrest⟩ := h
      exact (says_of_addClause hclause).trans (ih hrest)

theorem parse_eq_ok {line : String} {r : Input} (h : parse line = .ok r) :
    (clauses (words line)).1 ≠ []
      ∧ Says (clauses (words line)).2
          (.ofCommand (Text.lower ("_".intercalate (clauses (words line)).1))) r := by
  rcases hclauses : clauses (words line) with ⟨command, said⟩
  simp only [parse, hclauses] at h
  split at h
  · cases h
  · rename_i hne
    exact ⟨by simpa using hne, says_of_foldlM h⟩

/-- A key that was read is in lower case, and has no blank or comma in it. -/
theorem key_of_keyword? {w key : String} (h : keyword? w = some key) :
    Text.lower key = key ∧ ∀ c ∈ key.toList, isBlank c = false ∧ c ≠ ',' := by
  obtain ⟨spelling, -, hchars, -, rfl⟩ := keyword?_eq_some_iff.mp h
  refine ⟨Text.lower_lower spelling, fun c hc => ?_⟩
  rw [Text.toList_lower] at hc
  have hsource := (Text.mem_lowerFrom hc).2
  refine ⟨?_, ?_⟩
  · rw [Bool.eq_false_iff]
    intro hblank
    have hkey := hchars c (hsource (by simp [Text.isSeparator, hblank]))
    rw [not_blank_of_isKeyChar hkey] at hblank
    cases hblank
  · rintro rfl
    exact absurd (hchars ',' (hsource rfl)) (by decide +kernel)

theorem phrase_itemsValue (items : List String) :
    (itemsValue items).phrase = " and ".intercalate items := by
  have htexts : (items.map Value.str).map Value.text = items := by
    rw [List.map_map]
    exact List.map_id _
  cases items with
  | nil => rfl
  | cons x rest =>
      cases rest with
      | nil => exact String.intercalate_singleton.symm
      | cons y rest => exact congrArg (" and ".intercalate) htexts

theorem mem_words_intercalate {items : List String} {w : String}
    (h : w ∈ words (" and ".intercalate items)) : w = "and" ∨ ∃ x ∈ items, w ∈ words x := by
  induction items with
  | nil => cases h
  | cons x items ih =>
      cases items with
      | nil => exact .inr ⟨x, List.mem_singleton_self x, by rwa [String.intercalate_singleton] at h⟩
      | cons y items =>
          have htext : " and ".intercalate (x :: y :: items)
              = x ++ (" " ++ ("and" ++ (" " ++ " and ".intercalate (y :: items)))) := by
            have hand : " and " = " " ++ ("and" ++ " ") := by decide
            rw [String.intercalate_cons_cons, hand]
            simp only [String.append_assoc]
          rw [htext, Text.words_append_blank_append, Text.words_append_blank_append] at h
          rcases List.mem_append.mp h with h | h
          · exact .inr ⟨x, List.mem_cons_self .., h⟩
          · rcases List.mem_append.mp h with h | h
            · exact .inl (List.mem_singleton.mp h)
            · exact (ih h).imp_right fun ⟨z, hz, hw⟩ => ⟨z, List.mem_cons_of_mem x hz, hw⟩

end Line

/-! ## From what was read to what was written -/

namespace Input

/-- The words that are written after the command. -/
def tailWords (input : Input) : List String :=
  input.segments.flatMap fun c => words (c.1 ++ ":") ++ words c.2

variable {input r : Input}

/-- Read back, the input asks for the same. -/
def Rereads (input : Input) : Prop := ∃ r, Line.parse input.render = .ok r ∧ r.Agrees input

theorem isWord_key {key : String} (h : ∀ c ∈ key.toList, isBlank c = false) :
    IsWord (key ++ ":") := by
  refine ⟨fun heq => ?_, fun c hc => ?_⟩
  · have hlist := congrArg String.toList heq
    rw [String.toList_append] at hlist
    simp at hlist
  · rw [String.toList_append] at hc
    rcases List.mem_append.mp hc with hc | hc
    · exact h c hc
    · obtain rfl := List.mem_singleton.mp hc
      rfl

/-- A keyword that was read comes with every key of a parameter. -/
theorem key_of_line {said : List Clause} {command : String}
    (h : Line.Says said (.ofCommand command) r) {e : String × Value} (he : e ∈ r.params.toList) :
    ∃ c ∈ said, c.key ∉ ["by", "to", "of"] ∧ e = (c.key, itemsValue c.items) :=
  (h.params e he).resolve_left List.not_mem_nil

/-- The texts that are written are made of items that were read. -/
theorem exists_items_of_mem_segments {said : List Clause} {command : String}
    (hline : Line.Says said (.ofCommand command) r) (ha : r.Agrees input) {c : String × String}
    (hc : c ∈ input.segments) : ∃ items : List String, c.2 = " and ".intercalate items
      ∧ ∀ x ∈ items, ∃ d ∈ said, x ∈ d.items := by
  obtain ⟨-, hactor, htargets, hparams⟩ := ha
  rcases List.mem_append.mp hc with hc | hc
  · rcases List.mem_append.mp hc with hc | hc
    · split at hc
      · cases hc
      · rename_i hother
        obtain rfl := List.mem_singleton.mp hc
        rw [Bool.or_eq_true, not_or] at hother
        have heq := hactor.resolve_right fun hgm => hother.2 hgm.2
        refine ⟨[input.actor], String.intercalate_singleton.symm, fun x hx => ?_⟩
        obtain rfl := List.mem_singleton.mp hx
        rcases hline.actor with hgm | hsaid
        · refine absurd ?_ hother.2
          rw [isByGM, ← heq, hgm]
          exact isGM_gameMaster
        · rwa [heq] at hsaid
    · split at hc
      · cases hc
      · obtain rfl := List.mem_singleton.mp hc
        refine ⟨input.targets, rfl, fun x hx => ?_⟩
        exact (hline.targets x (htargets ▸ hx)).resolve_left List.not_mem_nil
  · obtain ⟨e, he, rfl⟩ := List.mem_map.mp hc
    obtain ⟨d, hd, -, rfl⟩ := key_of_line hline (hparams ▸ he)
    exact ⟨d.items, Line.phrase_itemsValue d.items, fun x hx => ⟨d, hd, hx⟩⟩

/-- The keys that are written are keys that were read. -/
theorem key_of_mem_segments {ws : List String} {command : String}
    (hline : Line.Says (clauses ws).2 (.ofCommand command) r) (ha : r.Agrees input)
    {c : String × String} (hc : c ∈ input.segments) :
    Text.lower c.1 = c.1 ∧ ∀ d ∈ c.1.toList, isBlank d = false ∧ d ≠ ',' := by
  rcases List.mem_append.mp hc with hc | hc
  · rcases List.mem_append.mp hc with hc | hc
    · split at hc
      · cases hc
      · obtain rfl := List.mem_singleton.mp hc
        exact Line.key_of_keyword? Line.keyword_by
    · split at hc
      · cases hc
      · obtain rfl := List.mem_singleton.mp hc
        exact Line.key_of_keyword? Line.keyword_to
  · obtain ⟨e, he, rfl⟩ := List.mem_map.mp hc
    obtain ⟨d, hd, -, rfl⟩ := key_of_line hline (ha.2.2.2 ▸ he)
    obtain ⟨⟨w, -, hkey⟩, -⟩ := Line.mem_clauses hd
    exact Line.key_of_keyword? hkey

/-- What follows the command begins with a key. -/
theorem weight_pos_of_head_tailWords
    (hkeys : ∀ c ∈ input.segments, ∀ d ∈ c.1.toList, isBlank d = false) {w : String}
    (h : input.tailWords.head? = some w) : 0 < weight w.toList := by
  rw [tailWords] at h
  cases hsegments : input.segments with
  | nil =>
      rw [hsegments] at h
      cases h
  | cons c rest =>
      have hword := isWord_key (hkeys c (by rw [hsegments]; exact List.mem_cons_self ..))
      rw [hsegments, List.flatMap_cons, Text.words_of_isWord hword] at h
      obtain rfl := Option.some.inj h
      refine Text.weight_pos ⟨':', ?_, by decide⟩
      rw [String.toList_append]
      exact List.mem_append_right _ (List.mem_singleton_self ':')

/-- The command is read as it was written, and what follows it is cut into
clauses by itself. -/
theorem clauses_of_agrees (h : Line.parse input.render = .ok r) (ha : r.Agrees input) :
    Unbroken input.spaced
      ∧ clauses (words input.render) = (words input.spaced, (clauses input.tailWords).2) := by
  obtain ⟨-, hline⟩ := Line.parse_eq_ok h
  have hrender : words input.render = words input.spaced ++ input.tailWords :=
    Line.words_render input
  have hkeys : ∀ c ∈ input.segments, ∀ d ∈ c.1.toList, isBlank d = false :=
    fun c hc d hd => ((key_of_mem_segments hline ha hc).2 d hd).1
  have hweight : weight ((clauses (words input.render)).1.flatMap String.toList)
      = weight ((words input.spaced).flatMap String.toList) := by
    have hblank : ∀ c ∈ ("_".intercalate (clauses (words input.render)).1).toList,
        isBlank c = false := by
      refine not_blank_of_mem_intercalate fun w hw => ?_
      rw [Line.clauses_fst] at hw
      exact Text.isWord_of_mem_words (List.takeWhile_subset _ hw)
    have hname := ha.1
    rw [hline.command, Input.ofCommand, canonicalName_lower hblank, canonicalName] at hname
    rw [weight_words_spaced, ← weight_intercalate, ← weight_intercalate,
      Text.weight_eq_of_lower_eq hname]
  rw [Line.clauses_fst, hrender] at hweight
  obtain ⟨hcommand, hnil⟩ := takeWhile_of_weight_eq (fun w => weight_pos_of_mem_words_spaced)
    (fun w => weight_pos_of_head_tailWords hkeys) hweight
  have hunbroken : Unbroken input.spaced := fun w hw => by simpa using hcommand w hw
  rw [hrender, Line.clauses_append hunbroken, Line.clauses_fst, hnil, List.append_nil]
  exact ⟨hunbroken, rfl⟩

section Tail

variable {command : String} (hline : Line.Says (clauses input.tailWords).2 (.ofCommand command) r)
  (ha : r.Agrees input)

include hline ha

/-- Nothing that is written after the command holds a comma. -/
theorem plain_of_mem_tailWords {w : String} (hw : w ∈ input.tailWords) :
    IsWord w ∧ ',' ∉ w.toList := by
  obtain ⟨c, hc, hw⟩ := List.mem_flatMap.mp hw
  have hkey := (key_of_mem_segments hline ha hc).2
  rcases List.mem_append.mp hw with hw | hw
  · have hword := isWord_key fun d hd => (hkey d hd).1
    rw [Text.words_of_isWord hword, List.mem_singleton] at hw
    subst hw
    refine ⟨hword, fun hcomma => ?_⟩
    rw [String.toList_append] at hcomma
    rcases List.mem_append.mp hcomma with hcomma | hcomma
    · exact (hkey ',' hcomma).2 rfl
    · exact absurd hcomma (by decide)
  · refine ⟨Text.isWord_of_mem_words hw, fun hcomma => ?_⟩
    obtain ⟨items, htext, hitems⟩ := exists_items_of_mem_segments hline ha hc
    rw [htext] at hw
    obtain ⟨cs, hcs, rfl⟩ := List.mem_map.mp hw
    rw [String.toList_ofList] at hcomma
    rcases Line.mem_intercalate (Text.mem_of_mem_wordsOf hcs hcomma) with hcomma | ⟨x, hx, hcomma⟩
    · exact absurd hcomma (by decide)
    · obtain ⟨d, -, hitem⟩ := hitems x hx
      exact (Clause.item_of_mem_items hitem).2.1 hcomma

/-- Nothing in the texts begins a clause. -/
theorem unbroken_of_mem_segments {c : String × String} (hc : c ∈ input.segments) :
    Unbroken c.2 := by
  intro w hw
  obtain ⟨items, htext, hitems⟩ := exists_items_of_mem_segments hline ha hc
  rw [htext] at hw
  rcases Line.mem_words_intercalate hw with rfl | ⟨x, hx, hw⟩
  · rfl
  · obtain ⟨d, hd, hitem⟩ := hitems x hx
    have hwords := (Line.mem_clauses hd).2
    have hsubset := (Clause.item_of_mem_items hitem).2.2 fun v hv =>
      plain_of_mem_tailWords hline ha (hwords v hv).1
    exact (hwords w (hsubset hw)).2

/-- Every key that is written is a keyword. -/
theorem keyword_of_mem_params {e : String × Value} (he : e ∈ input.params.toList) :
    keyword? (e.1 ++ ":") = some e.1 ∧ e.1 ∉ ["by", "to", "of"] := by
  obtain ⟨d, hd, hother, heq⟩ := key_of_line hline (ha.2.2.2 ▸ he)
  have hkey : e.1 = d.key := congrArg Prod.fst heq
  obtain ⟨⟨w, hw, hkeyword⟩, -⟩ := Line.mem_clauses hd
  obtain ⟨c, hc, hw⟩ := List.mem_flatMap.mp hw
  have hwritten := key_of_mem_segments hline ha hc
  rcases List.mem_append.mp hw with hw | hw
  · rw [Text.words_of_isWord (isWord_key fun d hd => (hwritten.2 d hd).1), List.mem_singleton] at hw
    subst hw
    -- The keyword that was read is the one that was written, as both are in lower case.
    obtain ⟨spelling, -, -, hspelling, hlower⟩ := Line.keyword?_eq_some_iff.mp hkeyword
    obtain rfl : c.1 = spelling := by
      rw [← String.toList_inj] at hspelling ⊢
      rw [String.toList_append, String.toList_append] at hspelling
      exact List.append_cancel_right hspelling
    rw [hkey, ← hlower, hwritten.1]
    rw [hwritten.1] at hlower
    exact ⟨hlower ▸ hkeyword, hlower ▸ hother⟩
  · rw [unbroken_of_mem_segments hline ha hc w hw] at hkeyword
    cases hkeyword

end Tail

/-- What is read as asking for the same was speakable. -/
theorem speakable_of_agrees (h : Line.parse input.render = .ok r) (ha : r.Agrees input) :
    input.Speakable := by
  obtain ⟨hunbroken, hclauses⟩ := clauses_of_agrees h ha
  obtain ⟨hne, hline⟩ := Line.parse_eq_ok h
  rw [hclauses] at hne hline
  have hparams := fun e he => keyword_of_mem_params hline ha (e := e) he
  have hsegments : ∀ c ∈ input.segments, keyword? (c.1 ++ ":") = some c.1 ∧ Unbroken c.2 := by
    refine fun c hc => ⟨?_, unbroken_of_mem_segments hline ha hc⟩
    rcases List.mem_append.mp hc with hc | hc
    · rcases List.mem_append.mp hc with hc | hc
      · split at hc
        · cases hc
        · obtain rfl := List.mem_singleton.mp hc
          exact Line.keyword_by
      · split at hc
        · cases hc
        · obtain rfl := List.mem_singleton.mp hc
          exact Line.keyword_to
    · obtain ⟨e, he, rfl⟩ := List.mem_map.mp hc
      exact (hparams e he).1
  rw [Line.parse_eq_foldlM hne hunbroken hsegments,
    Line.foldlM_segments_eq_ok_iff fun e he => (hparams e he).2] at h
  obtain ⟨hcommand, hactor, htargets, hvalues, hread⟩ := h
  obtain ⟨hname, hsame, hto, hwith⟩ := ha
  refine ⟨⟨hne, hunbroken, ?_⟩, ?_, ?_, fun e he => ?_⟩
  · rw [← hname, hcommand, canonicalName_canonicalName]
  · by_cases hgm : input.isByGM = true
    · exact .inl hgm
    · have heq := hsame.resolve_right fun hboth => hgm hboth.2
      have hsome : input.actor.isEmpty = false := by
        rw [Bool.eq_false_iff]
        intro hempty
        rw [hempty, Bool.true_or, if_pos rfl, heq, String.isEmpty_iff.mp hempty] at hactor
        exact absurd hactor (by decide)
      have hwritten : (input.actor.isEmpty || input.isByGM) = false := by simpa [hsome] using hgm
      rw [hwritten, if_neg Bool.false_ne_true, heq] at hactor
      have hmem : ("by", input.actor) ∈ input.segments := by simp [segments, hwritten]
      exact .inr ⟨(hsegments _ hmem).2, hactor⟩
  · by_cases hnone : input.targets = []
    · exact .inl hnone
    · have hwritten : input.targets.isEmpty = false := List.isEmpty_eq_false_iff.mpr hnone
      rw [hwritten, if_neg Bool.false_ne_true, hto] at htargets
      have hmem : ("to", " and ".intercalate input.targets) ∈ input.segments := by
        simp [segments, hwritten]
      exact .inr ⟨(hsegments _ hmem).2, htargets.2⟩
  · have hmem : (e.1, e.2.phrase) ∈ input.segments :=
      List.mem_append_right _ (List.mem_map.mpr ⟨e, he, rfl⟩)
    refine ⟨(hparams e he).1, (hparams e he).2, (hsegments _ hmem).2, hvalues e he, ?_⟩
    rw [hwith] at hread
    have hentries : input.params.toList.map (fun e => (e.1, Line.readValue e.2))
        = input.params.toList.map id := by
      rw [List.map_id]
      exact (congrArg Dict.entries hread).symm
    have hentry := Prod.ext_iff.mp (List.map_inj_left.mp hentries e he)
    simp only [Line.readValue, id] at hentry
    exact hentry.2

/-- A written input is read as asking for the same just if it is speakable. -/
theorem rereads_iff : input.Rereads ↔ input.Speakable := by
  refine ⟨fun ⟨r, h, ha⟩ => speakable_of_agrees h ha, fun h => ⟨input.spoken, h.parse_eq, ?_⟩⟩
  have hactor : input.spoken.actor = input.actor
      ∨ input.spoken.isByGM = true ∧ input.isByGM = true := by
    simp only [spoken]
    cases hgm : input.isByGM with
    | true => exact .inr ⟨isGM_gameMaster, rfl⟩
    | false => exact .inl rfl
  simp only [Agrees, spoken, canonicalName_canonicalName, true_and] at hactor ⊢
  exact ⟨hactor, trivial⟩

end Input

end GameTable
