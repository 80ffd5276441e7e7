import GameTable.Proofs.Command.Clause
import GameTable.Proofs.Dict.Lookup
import GameTable.Proofs.Result

/-!
# Reading back what was written

A written command has its words first and then one clause for the one who acts,
one for the targets, and one for every parameter (`Input.segments`). If none of
the texts in it begins a clause of its own, and every key is a keyword, the
line is cut at just these places (`clauses_render`). It is then enough to ask
of every part by itself whether it is read as what it was (`Input.Speakable`).

Of the inputs whose parts are made of items, `parse_render` says that they come
back exactly. That does not hold of every speakable input, since the game
master is written by leaving the clause away, whichever way `GM` was spelled.
-/

namespace GameTable

open Line (Unbroken itemsIn keyword? itemsValue IsItem IsKeyword)
open Text (IsWord isBlank words)

theorem isGM_gameMaster : isGM gameMaster = true := by decide +kernel

namespace Input

/-- The command as it is written, with blanks for underscores. -/
def spaced (input : Input) : String := input.command.map fun c => if c = '_' then ' ' else c

/-- The clauses that are written after the command, by their keys and texts. -/
def segments (input : Input) : List (String × String) :=
  (if input.actor.isEmpty || input.isByGM then [] else [("by", input.actor)])
    ++ (if input.targets.isEmpty then [] else [("to", " and ".intercalate input.targets)])
    ++ input.params.toList.map fun (key, v) => (key, v.phrase)

/-- Each part of the input, when it is written, is read as what it was. -/
structure Speakable (input : Input) : Prop where
  command : words input.spaced ≠ [] ∧ Unbroken input.spaced
    ∧ canonicalName input.spaced = canonicalName input.command
  actor : input.isByGM = true ∨ Unbroken input.actor ∧ itemsIn input.actor = [input.actor]
  targets : input.targets = [] ∨ Unbroken (" and ".intercalate input.targets)
    ∧ itemsIn (" and ".intercalate input.targets) = input.targets
  params : ∀ e ∈ input.params.toList, keyword? (e.1 ++ ":") = some e.1
    ∧ e.1 ∉ ["by", "to", "of"] ∧ Unbroken e.2.phrase ∧ itemsIn e.2.phrase ≠ []
    ∧ itemsValue (itemsIn e.2.phrase) = e.2

end Input

namespace Line

/-! ## Words of a line -/

/-- A clause as it is written. -/
def written (c : String × String) : String := " " ++ c.1 ++ ": " ++ c.2

theorem render_eq (input : Input) :
    input.render = input.spaced ++ String.join (input.segments.map written) := by
  have hsegments : String.join (input.segments.map written)
      = (if input.actor.isEmpty || input.isByGM then "" else " by: " ++ input.actor)
        ++ (if input.targets.isEmpty then "" else " to: " ++ " and ".intercalate input.targets)
        ++ String.join
          (input.params.toList.map fun (key, v) => " " ++ key ++ ": " ++ v.phrase) := by
    rw [Input.segments, List.map_append, List.map_append, String.join_append, String.join_append,
      List.map_map]
    congr 2
    · split
      · rfl
      · simp [written]
    · split
      · rfl
      · simp [written]
  rw [hsegments, Input.render, Input.spaced, ← String.append_assoc, ← String.append_assoc]

theorem words_written (c : String × String) :
    words (written c) = words (c.1 ++ ":") ++ words c.2 := by
  have hwritten : written c = " " ++ ((c.1 ++ ":") ++ (" " ++ c.2)) := by
    simp only [written, String.append_assoc]
    rfl
  rw [hwritten, Text.words_blank_append, Text.words_append_blank_append]

theorem words_append_written (s : String) (segments : List (String × String)) :
    words (s ++ String.join (segments.map written))
      = words s ++ segments.flatMap fun c => words (c.1 ++ ":") ++ words c.2 := by
  induction segments generalizing s with
  | nil => simp
  | cons c segments ih =>
      have hblank : ∀ d, (written c).toList.head? = some d → isBlank d = true := by
        intro d hd
        simp only [written, String.append_assoc, String.toList_append] at hd
        obtain rfl := Option.some.inj hd
        rfl
      rw [List.map_cons, String.join_cons, ← String.append_assoc, ih, Text.words_append hblank,
        words_written, List.flatMap_cons, List.append_assoc]

theorem words_render (input : Input) :
    words input.render
      = words input.spaced ++ input.segments.flatMap fun c => words (c.1 ++ ":") ++ words c.2 := by
  rw [render_eq, words_append_written]

/-! ## Clauses of a line -/

/-- No character of a keyword is blank. -/
theorem not_blank_of_isKeyChar {c : Char} (h : isKeyChar c = true) : isBlank c = false := by
  have hkeys : ∀ n ∈ [9, 10, 11, 12, 13, 0x20, 0x85, 0xA0, 0x1680, 0x2000, 0x2001, 0x2002, 0x2003,
      0x2004, 0x2005, 0x2006, 0x2007, 0x2008, 0x2009, 0x200A, 0x2028, 0x2029, 0x202F, 0x205F,
      0x3000], isKeyChar (Char.ofNat n) = false := by
    decide +kernel
  rw [Bool.eq_false_iff]
  intro hblank
  have hfalse := hkeys c.toNat (by
    simp only [isBlank, Bool.or_eq_true, Bool.and_eq_true, decide_eq_true_eq, beq_iff_eq] at hblank
    simp only [List.mem_cons, List.not_mem_nil, or_false]
    omega)
  rw [Char.ofNat_toNat, h] at hfalse
  cases hfalse

theorem words_keyword {w key : String} (h : keyword? w = some key) : words w = [w] := by
  obtain ⟨spelling, -, hchars, rfl, -⟩ := keyword?_eq_some_iff.mp h
  apply Text.words_of_isWord
  refine ⟨fun heq => ?_, fun c hc => ?_⟩
  · have hlist := congrArg String.toList heq
    rw [String.toList_append] at hlist
    simp at hlist
  · rw [String.toList_append] at hc
    rcases List.mem_append.mp hc with hc | hc
    · exact not_blank_of_isKeyChar (hchars c hc)
    · obtain rfl := List.mem_singleton.mp hc
      rfl

theorem clauses_segments {segments : List (String × String)}
    (h : ∀ c ∈ segments, keyword? (c.1 ++ ":") = some c.1 ∧ Unbroken c.2) :
    clauses (segments.flatMap fun c => words (c.1 ++ ":") ++ words c.2)
      = ([], segments.map fun c => ⟨c.1, words c.2⟩) := by
  induction segments with
  | nil => rfl
  | cons c segments ih =>
      rw [List.forall_mem_cons] at h
      obtain ⟨⟨hkey, htext⟩, hrest⟩ := h
      rw [List.flatMap_cons, words_keyword hkey, List.append_assoc, List.singleton_append,
        clauses_cons_keyword hkey, clauses_append htext, ih hrest, List.append_nil, List.map_cons]

theorem keyword_by : keyword? ("by" ++ ":") = some "by" := by decide +kernel

theorem keyword_to : keyword? ("to" ++ ":") = some "to" := by decide +kernel

/-- A written line is cut into the command and the clauses that were written. -/
theorem clauses_render {input : Input} (hcommand : Unbroken input.spaced)
    (h : ∀ c ∈ input.segments, keyword? (c.1 ++ ":") = some c.1 ∧ Unbroken c.2) :
    clauses (words input.render)
      = (words input.spaced, input.segments.map fun c => ⟨c.1, words c.2⟩) := by
  rw [words_render, clauses_append hcommand, clauses_segments h, List.append_nil]

/-- So it is read as the command with the clauses added to it. -/
theorem parse_eq_foldlM {input : Input} (hne : words input.spaced ≠ [])
    (hcommand : Unbroken input.spaced)
    (h : ∀ c ∈ input.segments, keyword? (c.1 ++ ":") = some c.1 ∧ Unbroken c.2) :
    parse input.render = (input.segments.map fun c => Clause.mk c.1 (words c.2)).foldlM addClause
      (.ofCommand (canonicalName input.spaced)) := by
  rw [parse, clauses_render hcommand h]
  simp only [List.isEmpty_eq_false_iff.mpr hne, Bool.false_eq_true, if_false]
  rfl

/-! ## What the clauses say -/

theorem addClause_by_eq_ok_iff {text : String} {input r : Input} :
    addClause input ⟨"by", words text⟩ = .ok r
      ↔ ∃ actor, itemsIn text = [actor] ∧ r = { input with actor } := by
  have hitems : (Clause.mk "by" (words text)).items = itemsIn text := rfl
  rw [addClause, hitems]
  cases itemsIn text with
  | nil => simp
  | cons actor more =>
      cases more with
      | nil => simp [@eq_comm _ r]
      | cons => simp

theorem addClause_to_eq_ok_iff {text : String} {input r : Input} :
    addClause input ⟨"to", words text⟩ = .ok r
      ↔ itemsIn text ≠ [] ∧ r = { input with targets := input.targets ++ itemsIn text } := by
  have hitems : (Clause.mk "to" (words text)).items = itemsIn text := rfl
  rw [addClause, hitems]
  cases itemsIn text with
  | nil => simp
  | cons => simp [@eq_comm _ r]

/-- What is read of a value that stands as a clause. -/
def readValue (v : Value) : Value := itemsValue (itemsIn v.phrase)

theorem addClause_param_eq_ok_iff {key : String} {v : Value} (hkey : key ∉ ["by", "to", "of"])
    {input r : Input} :
    addClause input ⟨key, words v.phrase⟩ = .ok r
      ↔ itemsIn v.phrase ≠ []
        ∧ r = { input with params := input.params.insert key (readValue v) } := by
  have hitems : (Clause.mk key (words v.phrase)).items = itemsIn v.phrase := rfl
  simp only [List.mem_cons, List.not_mem_nil, or_false, not_or] at hkey
  rw [addClause, hitems, readValue]
  cases itemsIn v.phrase with
  | nil => simp
  | cons => simp [hkey, @eq_comm _ r]

theorem foldlM_params_eq_ok_iff {params : List (String × Value)}
    (hkeys : ∀ e ∈ params, e.1 ∉ ["by", "to", "of"]) {input r : Input} :
    (params.map fun e => Clause.mk e.1 (words e.2.phrase)).foldlM addClause input = .ok r
      ↔ (∀ e ∈ params, itemsIn e.2.phrase ≠ [])
        ∧ r = ⟨input.command, input.actor, input.targets,
          params.foldl (fun d e => d.insert e.1 (readValue e.2)) input.params⟩ := by
  induction params generalizing input with
  | nil => simp [@eq_comm _ r]
  | cons e params ih =>
      rw [List.forall_mem_cons] at hkeys
      rw [List.map_cons, List.foldlM_cons, bind_eq_ok_iff, List.forall_mem_cons, and_assoc]
      constructor
      · rintro ⟨mid, hclause, hrest⟩
        obtain ⟨hne, rfl⟩ := (addClause_param_eq_ok_iff hkeys.1).mp hclause
        exact ⟨hne, (ih hkeys.2).mp hrest⟩
      · rintro ⟨hne, hrest⟩
        exact ⟨_, (addClause_param_eq_ok_iff hkeys.1).mpr ⟨hne, rfl⟩, (ih hkeys.2).mpr hrest⟩

theorem foldlM_guarded_eq_ok_iff {absent : Bool} {c : String × String} {input r : Input} :
    ((if absent then [] else [c]).map fun c => Clause.mk c.1 (words c.2)).foldlM addClause input
        = .ok r
      ↔ if absent then r = input else addClause input ⟨c.1, words c.2⟩ = .ok r := by
  cases absent with
  | true => simp [@eq_comm _ r]
  | false =>
      rw [if_neg Bool.false_ne_true, if_neg Bool.false_ne_true, List.map_singleton,
        List.foldlM_cons, bind_eq_ok_iff]
      simp

theorem foldlM_by_eq_ok_iff {absent : Bool} {text command : String} {r : Input} :
    ((if absent then [] else [("by", text)]).map fun c => Clause.mk c.1 (words c.2)).foldlM
        addClause (.ofCommand command) = .ok r
      ↔ ∃ actor, (if absent then actor = gameMaster else itemsIn text = [actor])
        ∧ r = ⟨command, actor, [], ∅⟩ := by
  rw [foldlM_guarded_eq_ok_iff]
  cases absent with
  | true => simp [Input.ofCommand]
  | false => simp [addClause_by_eq_ok_iff, Input.ofCommand]

theorem foldlM_to_eq_ok_iff {absent : Bool} {text : String} {input r : Input}
    (hnone : input.targets = []) :
    ((if absent then [] else [("to", text)]).map fun c => Clause.mk c.1 (words c.2)).foldlM
        addClause input = .ok r
      ↔ ∃ targets, (if absent then targets = [] else targets ≠ [] ∧ itemsIn text = targets)
        ∧ r = { input with targets } := by
  rw [foldlM_guarded_eq_ok_iff]
  cases absent with
  | true => simp [← hnone]
  | false =>
      simp only [addClause_to_eq_ok_iff, hnone, Bool.false_eq_true, if_false, List.nil_append]
      constructor
      · rintro ⟨hne, hr⟩
        exact ⟨itemsIn text, ⟨hne, rfl⟩, hr⟩
      · rintro ⟨targets, ⟨hne, rfl⟩, hr⟩
        exact ⟨hne, hr⟩

/-- What the clauses of a written input say, part by part. -/
theorem foldlM_segments_eq_ok_iff {input r : Input} {command : String}
    (hkeys : ∀ e ∈ input.params.toList, e.1 ∉ ["by", "to", "of"]) :
    (input.segments.map fun c => Clause.mk c.1 (words c.2)).foldlM addClause (.ofCommand command)
        = .ok r
      ↔ r.command = command
        ∧ (if input.actor.isEmpty || input.isByGM then r.actor = gameMaster
            else itemsIn input.actor = [r.actor])
        ∧ (if input.targets.isEmpty then r.targets = []
            else r.targets ≠ [] ∧ itemsIn (" and ".intercalate input.targets) = r.targets)
        ∧ (∀ e ∈ input.params.toList, itemsIn e.2.phrase ≠ [])
        ∧ r.params = input.params.map readValue := by
  rw [Input.segments, List.map_append, List.map_append, List.foldlM_append, List.foldlM_append,
    List.map_map, ← Dict.foldl_insert_map readValue]
  simp only [bind_eq_ok_iff, Function.comp_def, foldlM_params_eq_ok_iff hkeys, foldlM_by_eq_ok_iff]
  constructor
  · rintro ⟨mid, ⟨first, ⟨actor, hactor, rfl⟩, hmid⟩, hne, rfl⟩
    obtain ⟨targets, htargets, rfl⟩ := (foldlM_to_eq_ok_iff rfl).mp hmid
    exact ⟨rfl, hactor, htargets, hne, rfl⟩
  · rintro ⟨hcommand, hactor, htargets, hne, hparams⟩
    obtain ⟨command', actor, targets, params⟩ := r
    obtain rfl : command' = command := hcommand
    obtain rfl := hparams
    exact ⟨_, ⟨_, ⟨actor, hactor, rfl⟩, (foldlM_to_eq_ok_iff rfl).mpr ⟨targets, htargets, rfl⟩⟩,
      hne, rfl⟩

end Line

/-! ## Speakable inputs -/

namespace Input

/-- What is read of a speakable input: the name of its command is canonical, and
the game master is called by one name. -/
def spoken (input : Input) : Input :=
  ⟨canonicalName input.command, if input.isByGM then gameMaster else input.actor, input.targets,
    input.params⟩

theorem Speakable.segments {input : Input} (h : input.Speakable) :
    ∀ c ∈ input.segments, keyword? (c.1 ++ ":") = some c.1 ∧ Unbroken c.2 := by
  intro c hc
  rcases List.mem_append.mp hc with hc | hc
  · rcases List.mem_append.mp hc with hc | hc
    · split at hc
      · cases hc
      · rename_i hother
        obtain rfl := List.mem_singleton.mp hc
        rw [Bool.or_eq_true, not_or] at hother
        exact ⟨Line.keyword_by, (h.actor.resolve_left hother.2).1⟩
    · split at hc
      · cases hc
      · rename_i hsome
        obtain rfl := List.mem_singleton.mp hc
        rw [List.isEmpty_iff] at hsome
        exact ⟨Line.keyword_to, (h.targets.resolve_left hsome).1⟩
  · obtain ⟨e, he, rfl⟩ := List.mem_map.mp hc
    exact ⟨(h.params e he).1, (h.params e he).2.2.1⟩

/-- Every speakable input is read as what it was. -/
theorem Speakable.parse_eq {input : Input} (h : input.Speakable) :
    Line.parse input.render = .ok input.spoken := by
  rw [Line.parse_eq_foldlM h.command.1 h.command.2.1 h.segments,
    Line.foldlM_segments_eq_ok_iff fun e he => (h.params e he).2.1, h.command.2.2]
  simp only [spoken, true_and]
  refine ⟨?_, ?_, fun e he => (h.params e he).2.2.2.1, ?_⟩
  · rcases h.actor with hgm | ⟨-, hactor⟩
    · rw [hgm, Bool.or_true, if_pos rfl, if_pos rfl]
    · cases hgm : input.isByGM with
      | true => rw [Bool.or_true, if_pos rfl, if_pos rfl]
      | false =>
          have hsome : input.actor.isEmpty = false := by
            rw [Bool.eq_false_iff]
            intro hempty
            rw [String.isEmpty_iff.mp hempty] at hactor
            cases hactor
          rw [hsome, Bool.or_false, if_neg Bool.false_ne_true, if_neg Bool.false_ne_true, hactor]
  · by_cases hnone : input.targets = []
    · rw [hnone, List.isEmpty_nil, if_pos rfl]
    · rw [List.isEmpty_eq_false_iff.mpr hnone, if_neg Bool.false_ne_true]
      exact ⟨hnone, (h.targets.resolve_left hnone).2⟩
  · refine Dict.ext ((List.map_congr_left fun e he => ?_).trans (List.map_id _)).symm
    rw [Line.readValue, (h.params e he).2.2.2.2]
    rfl

/-! ## Inputs made of items -/

/-- The input is one that can be typed: the command is made of plain words in
lower case, every name is an item, every key is a keyword in lower case, and
every value is an item or a list of several. -/
structure Typeable (input : Input) : Prop where
  words : ∃ ws : List String, ws ≠ [] ∧ input.command = "_".intercalate ws
    ∧ ∀ w ∈ ws, IsWord w ∧ '_' ∉ w.toList ∧ ¬ IsKeyword w
  lower : Text.lower input.command = input.command
  actor : input.actor = gameMaster ∨ IsItem input.actor ∧ input.isByGM = false
  targets : ∀ x ∈ input.targets, IsItem x
  keys : ∀ e ∈ input.params.toList, e.1 ≠ "" ∧ (∀ c ∈ e.1.toList, Line.isKeyChar c = true)
    ∧ Text.lower e.1 = e.1 ∧ e.1 ∉ ["by", "to", "of"]
  values : ∀ e ∈ input.params.toList, (∃ x, IsItem x ∧ e.2 = .str x)
    ∨ ∃ xs, 2 ≤ xs.length ∧ (∀ x ∈ xs, IsItem x) ∧ e.2 = .ofStrings xs

theorem toList_spaced (input : Input) :
    input.spaced.toList = input.command.toList.map fun c => if c = '_' then ' ' else c :=
  String.toList_map

/-- Words that were joined by underscores are written with blanks. -/
theorem spaced_of_words {input : Input} {ws : List String}
    (hcommand : input.command = "_".intercalate ws) (h : ∀ w ∈ ws, '_' ∉ w.toList) :
    input.spaced = " ".intercalate ws := by
  rw [← String.toList_inj, toList_spaced, hcommand]
  clear hcommand
  induction ws with
  | nil => rfl
  | cons w ws ih =>
      rw [List.forall_mem_cons] at h
      have hw : w.toList.map (fun c => if c = '_' then ' ' else c) = w.toList := by
        refine (List.map_congr_left fun c hc => ?_).trans (List.map_id _)
        exact if_neg fun (heq : c = '_') => h.1 (heq ▸ hc)
      cases ws with
      | nil => rw [String.intercalate_singleton, String.intercalate_singleton, hw]
      | cons x ws =>
          rw [String.intercalate_cons_cons, String.intercalate_cons_cons, String.toList_append,
            String.toList_append, String.toList_append, String.toList_append, List.map_append,
            List.map_append, hw, ih h.2]
          rfl

/-- The command of such an input is a single word, and its own canonical name. -/
theorem Typeable.canonicalName_eq {input : Input} (h : input.Typeable) :
    canonicalName input.command = input.command := by
  obtain ⟨ws, hne, hcommand, hws⟩ := h.words
  have hword : IsWord input.command := by
    obtain ⟨w, rest, rfl⟩ := List.exists_cons_of_ne_nil hne
    have hw : w ≠ "" := (hws w (List.mem_cons_self ..)).1.1
    refine ⟨fun hempty => ?_, fun c hc => ?_⟩
    · rw [hcommand] at hempty
      cases rest with
      | nil => exact hw (by rwa [String.intercalate_singleton] at hempty)
      | cons x rest => simp [hw] at hempty
    · rw [hcommand] at hc
      rcases Line.mem_intercalate hc with hc | ⟨w, hw, hc⟩
      · obtain rfl := List.mem_singleton.mp hc
        rfl
      · exact (hws w hw).1.2 c hc
  rw [canonicalName, Text.words_of_isWord hword, String.intercalate_singleton, h.lower]

/-- Each value is written as items with `and` between them. -/
theorem Typeable.phrase_eq {input : Input} (h : input.Typeable) {e : String × Value}
    (he : e ∈ input.params.toList) : ∃ items : List String, items ≠ [] ∧ (∀ x ∈ items, IsItem x)
      ∧ e.2.phrase = " and ".intercalate items ∧ itemsValue items = e.2 := by
  rcases h.values e he with ⟨x, hx, hv⟩ | ⟨xs, hlength, hxs, hv⟩
  · refine ⟨[x], List.cons_ne_nil x [], by simpa using hx, ?_, hv.symm⟩
    rw [hv, String.intercalate_singleton]
    rfl
  · have hphrase : (xs.map Value.str).map Value.text = xs := by
      rw [List.map_map]
      exact List.map_id _
    rw [hv, Value.ofStrings, Value.phrase, hphrase]
    obtain ⟨x, y, rest, rfl⟩ : ∃ x y rest, xs = x :: y :: rest := by
      match xs, hlength with
      | x :: y :: rest, _ => exact ⟨x, y, rest, rfl⟩
    exact ⟨_, List.cons_ne_nil _ _, hxs, rfl, rfl⟩

theorem Typeable.speakable {input : Input} (h : input.Typeable) : input.Speakable where
  command := by
    obtain ⟨ws, hne, hcommand, hws⟩ := h.words
    have hwords : Text.words input.spaced = ws := by
      rw [spaced_of_words hcommand fun w hw => (hws w hw).2.1,
        Text.words_intercalate fun w hw => (hws w hw).1]
    refine ⟨hwords ▸ hne, fun w hw => ?_, ?_⟩
    · exact Line.keyword?_eq_none_iff.mpr (hws w (hwords ▸ hw)).2.2
    · rw [canonicalName, hwords, ← hcommand, h.lower, h.canonicalName_eq]
  actor := by
    rcases h.actor with hgm | ⟨hitem, -⟩
    · left
      rw [isByGM, hgm, isGM_gameMaster]
    · right
      have hone : ∀ x ∈ [input.actor], IsItem x := by simpa using hitem
      rw [← String.intercalate_singleton (s := " and ") (t := input.actor)]
      refine ⟨Line.unbroken_intercalate hone, ?_⟩
      rw [Line.itemsIn_intercalate (List.cons_ne_nil _ _) hone, String.intercalate_singleton]
  targets := by
    by_cases hnone : input.targets = []
    · exact .inl hnone
    · exact .inr ⟨Line.unbroken_intercalate h.targets, Line.itemsIn_intercalate hnone h.targets⟩
  params := by
    intro e he
    obtain ⟨hne, hchars, hlower, hkey⟩ := h.keys e he
    have hkeyword := Line.keyword?_eq_some_iff.mpr ⟨e.1, hne, hchars, rfl, hlower⟩
    obtain ⟨items, hsome, hitems, hphrase, hvalue⟩ := h.phrase_eq he
    have hread := Line.itemsIn_intercalate hsome hitems
    rw [hphrase, hread]
    exact ⟨hkeyword, hkey, Line.unbroken_intercalate hitems, hsome, hvalue⟩

theorem Typeable.spoken_eq {input : Input} (h : input.Typeable) : input.spoken = input := by
  have hactor : (if input.isByGM then gameMaster else input.actor) = input.actor := by
    rcases h.actor with hgm | ⟨-, hother⟩
    · rw [hgm, ite_self]
    · rw [hother, if_neg Bool.false_ne_true]
  rw [spoken, h.canonicalName_eq, hactor]

end Input

/-- Writing and reading are inverse on the inputs that can be typed. -/
theorem Line.parse_render {input : Input} (h : input.Typeable) :
    Line.parse input.render = .ok input := by
  rw [h.speakable.parse_eq, h.spoken_eq]

/-- A command of two words, with names of one word and of two, and both kinds of
values. -/
theorem Line.parse_render_encounter_start :
    Line.parse (Input.render ⟨"encounter_start", "black knight", ["goblin", "orc chief"],
        .ofList [("dice", .str "1d20"), ("with", .ofStrings ["fighter", "old wizard"])]⟩)
      = .ok ⟨"encounter_start", "black knight", ["goblin", "orc chief"],
        .ofList [("dice", .str "1d20"), ("with", .ofStrings ["fighter", "old wizard"])]⟩ := by
  have hitem : ∀ ws ∈ [["fighter"], ["old", "wizard"], ["black", "knight"], ["goblin"],
      ["orc", "chief"], ["1d20"]], IsItem (" ".intercalate ws) := by
    have hwords : ∀ ws ∈ [["fighter"], ["old", "wizard"], ["black", "knight"], ["goblin"],
        ["orc", "chief"], ["1d20"]], ws ≠ []
          ∧ ∀ w ∈ ws, IsWord w ∧ ',' ∉ w.toList ∧ w ≠ "and" ∧ keyword? w = none := by
      decide +kernel
    exact fun ws h => Line.isItem_intercalate (hwords ws h).1 (hwords ws h).2
  have hplain : ∀ w ∈ ["encounter", "start"], IsWord w ∧ '_' ∉ w.toList ∧ ¬ IsKeyword w := by
    simp only [← Line.keyword?_eq_none_iff]
    decide +kernel
  have hkey : ∀ k ∈ ["dice", "with"], k ≠ "" ∧ k.toList.all Line.isKeyChar = true
      ∧ Text.lower k = k ∧ k ∉ ["by", "to", "of"] := by
    decide +kernel
  simp only [List.forall_mem_cons] at hitem
  obtain ⟨hfighter, hwizard, hknight, hgoblin, horc, hdice, -⟩ := hitem
  exact Line.parse_render {
    words := ⟨["encounter", "start"], List.cons_ne_nil _ _, rfl, hplain⟩
    lower := by decide +kernel
    actor := .inr ⟨hknight, by decide +kernel⟩
    targets := List.forall_mem_cons.mpr ⟨hgoblin, List.forall_mem_singleton.mpr horc⟩
    keys := fun e he => by
      have hmem : e.1 ∈ ["dice", "with"] := List.mem_map_of_mem he
      obtain ⟨hne, hall, hlower, hother⟩ := hkey e.1 hmem
      exact ⟨hne, List.all_eq_true.mp hall, hlower, hother⟩
    values := List.forall_mem_cons.mpr ⟨.inl ⟨"1d20", hdice, rfl⟩, List.forall_mem_singleton.mpr
      (.inr ⟨["fighter", "old wizard"], by decide,
        List.forall_mem_cons.mpr ⟨hfighter, List.forall_mem_singleton.mpr hwizard⟩, rfl⟩)⟩ }

end GameTable
