import GameTable.Proofs.Log.Unreadable
import GameTable.Proofs.Session.Verify

/-!
# Files of a session that cannot be opened again

A session over an empty file writes what it applies: at any time the file holds
the records of the events that have led to the state, and nothing else
(`Wrote`). Whether it can be read again is decided by how deeply the records
nest. A formula nests a bounded number of levels, but the results of steps and
the metadata carry values from one formula to the next, and nothing bounds what
is carried. So the file can be opened again just if no metadata of 126 or more
levels was written (`reopens_iff`), and one command of nine short formulas
suffices to write such a value (`nested_steps_are_not_reopened`).
-/

namespace GameTable

/-- Among events that fit only metadata makes a deep record. -/
theorem State.shallow_iff {s t : State} {events : List Event} (h : s.after? events = some t) :
    (∀ e ∈ events, e.toJson.levels < 128)
      ↔ ∀ key value, .metadataChanged key value ∈ events → value.levels < 126 := by
  constructor
  · intro hshallow key value hmem
    exact Event.levels_toJson_lt_iff.mp (hshallow _ hmem) value rfl
  · intro hmetadata e he
    refine Event.levels_toJson_lt_iff.mpr fun j hj => ?_
    cases e with
    | attributeChanged actor sec key value =>
        obtain rfl := Option.some.inj hj
        obtain ⟨u, v, happly⟩ := exists_apply_of_after? h he
        rw [Event.levels_of_apply happly]
        decide
    | metadataChanged key value =>
        obtain rfl := Option.some.inj hj
        exact hmetadata key value he
    | _ => cases hj

namespace Session

variable {ρ : Type}

/-- The file holds the records of the events and nothing else, and they lead
from the beginning to the state. -/
structure Wrote (s : Session ρ FileLog) (events : List Event) : Prop where
  log : s.log.Holds events
  state : (State.genesis s.rules.compendium.entities).after? events = some s.state

variable {s t : Session ρ FileLog} {events more : List Event}

theorem Wrote.takes (h : s.Wrote events) (ht : s.Takes more t) : t.Wrote (events ++ more) := by
  refine ⟨h.log.after? ht.log, ?_⟩
  rw [ht.rules, State.after?_append_of_some h.state, ht.state]

/-- If depth is all that may keep the records from being read, it decides. -/
theorem Wrote.replayLog_eq_ok_iff (h : s.Wrote events) (hevents : ∀ e ∈ events, e.Regular) :
    replayLog s.rules.compendium s.log.reopen = .ok s.state
      ↔ ∀ key value, .metadataChanged key value ∈ events → value.levels < 126 := by
  rw [← State.shallow_iff h.state, Session.replayLog_eq_ok_iff, FileLog.load_reopen]
  constructor
  · rintro ⟨stored, hload, -⟩
    exact ((h.log.load_eq_ok_iff hevents).mp hload).2
  · intro hshallow
    have hload := (h.log.load_eq_ok_iff hevents).mpr ⟨rfl, hshallow⟩
    exact ⟨events, hload, replay_eq_ok_iff.mpr h.state⟩

/-- A session that has not been given anything, over an empty file. -/
def fresh (rules : Rules) (parse : String → Except LineError Input) (evaluator : Evaluator ρ) :
    Session ρ FileLog :=
  ⟨rules, parse, evaluator, .ofText "", .genesis rules.compendium.entities, none, false⟩

theorem wrote_fresh (rules : Rules) (parse : String → Except LineError Input)
    (evaluator : Evaluator ρ) : (fresh rules parse evaluator).Wrote [] :=
  ⟨FileLog.holds_empty, rfl⟩

theorem start_ofText_empty (rules : Rules) (parse : String → Except LineError Input)
    (evaluator : Evaluator ρ) :
    start rules parse evaluator (FileLog.ofText "") = .ok (fresh rules parse evaluator) := by
  have hempty : EventLog.load (FileLog.ofText "") = .ok [] := FileLog.holds_empty.load nofun
  rw [start, replayLog_eq_ok hempty rfl]
  rfl

variable [Roller ρ]

theorem Wrote.receive (h : s.Wrote events) {sub : Submission}
    (hr : (s.receive sub).1 = .ok more) : (s.receive sub).2.Wrote (events ++ more) := by
  have haccounts := s.accounts_receive sub
  generalize s.receive sub = outcome at hr haccounts
  cases haccounts with
  | ok ht =>
      obtain rfl := Except.ok.inj hr
      exact h.takes ht
  | broken _ => cases hr
  | error _ _ => cases hr

/-- A session over an empty file starts, and whatever is submitted to it, the
file holds the events that have led to its state. If they are events that the
program can hold, with numbers that are read as they are printed, the file that
is opened again can be read and amounts to the state just if no metadata of 126
or more levels was written. -/
theorem reopens_iff (rules : Rules) (parse : String → Except LineError Input)
    (evaluator : Evaluator ρ) :
    ∃ s : Session ρ FileLog, start rules parse evaluator (FileLog.ofText "") = .ok s
      ∧ ∀ subs : List Submission,
        (∃ events, (s.receiveAll subs).Wrote events)
          ∧ ∀ events, (s.receiveAll subs).Wrote events → (∀ e ∈ events, e.Regular) →
            (replayLog rules.compendium (s.receiveAll subs).log.reopen
                = .ok (s.receiveAll subs).state
              ↔ ∀ key value, .metadataChanged key value ∈ events → value.levels < 126) := by
  refine ⟨fresh rules parse evaluator, start_ofText_empty rules parse evaluator, fun subs => ?_⟩
  obtain ⟨events, h⟩ := (fresh rules parse evaluator).receiveAll_takes subs (FileLog.steady _)
  refine ⟨⟨events, (wrote_fresh rules parse evaluator).takes h⟩, fun events hwrote hevents => ?_⟩
  have hiff := hwrote.replayLog_eq_ok_iff hevents
  rw [h.rules] at hiff
  exact hiff

/-! ## Results that are nested step by step -/

/-- A step that puts the last result of its name into sixteen lists. -/
def deepen : StepDef :=
  ⟨"deep", "[[[[[[[[[[[[[[[[steps.deep]]]]]]]]]]]]]]]]", "", none⟩

/-- A step that puts the result into the metadata. -/
def keep : StepDef :=
  ⟨"keep", "\x7b'key': 'deep', 'value': steps.deep\x7d", "MetadataChangedEvent", none⟩

/-- A table with one command, which nests a result a number of times and then
keeps it. -/
def nesting (times : Nat) : Rules :=
  let nest : CommandDef :=
    { name := "nest", params := [], prereqs := [], game := .replicate times deepen ++ [keep],
      targets := [], actor := [], hint := "", help := "", usage := "", turn := none }
  ⟨⟨[], [], .ofList [("nest", nest)]⟩, .empty, false⟩

/-- Lists in each other, with null inside. -/
def nested : Nat → Json
  | 0 => .null
  | n + 1 => .arr [nested n]

theorem nested_facts (n : Nat) : (nested n).levels = n ∧ (nested n).Exact ∧ (nested n).Ordered := by
  induction n with
  | zero => exact ⟨rfl, trivial, trivial⟩
  | succ n ih =>
      obtain ⟨hlevels, hexact, hordered⟩ := ih
      refine ⟨?_, ⟨hexact, trivial⟩, ⟨hordered, trivial⟩⟩
      rw [nested, Json.levels, Json.levelsItems, hlevels, Json.levelsItems,
        Nat.max_eq_left (Nat.zero_le n)]

theorem regular_nested (n : Nat) : (Event.metadataChanged "deep" (nested n)).Regular := by
  obtain ⟨-, hexact, hordered⟩ := nested_facts n
  refine ⟨trivial, ?_, ⟨trivial, ⟨trivial, hexact, trivial⟩, trivial⟩⟩
  rintro j ⟨⟩
  exact hordered

/-- What the table writes on the command. -/
theorem wrote_nest {times levels : Nat}
    (h : ((fresh (nesting times) Line.parse (.new (DiceCup.fixed 10) 1000)).receive
      (.line "nest")).1 = .ok [.metadataChanged "deep" (nested levels)]) :
    ((fresh (nesting times) Line.parse (.new (DiceCup.fixed 10) 1000)).receiveAll
      [.line "nest"]).Wrote [.metadataChanged "deep" (nested levels)] :=
  (wrote_fresh ..).receive h

/-- A result of sixteen levels is written and read again. -/
theorem nested_step_is_reopened :
    ∃ s : Session DiceCup FileLog,
      start (nesting 1) Line.parse (.new (.fixed 10) 1000) (FileLog.ofText "") = .ok s
        ∧ (s.receiveAll [.line "nest"]).Wrote [.metadataChanged "deep" (nested 16)]
        ∧ replayLog .empty (s.receiveAll [.line "nest"]).log.reopen
            = .ok (s.receiveAll [.line "nest"]).state := by
  obtain ⟨s, hs, hreopens⟩ := reopens_iff (nesting 1) Line.parse (.new (DiceCup.fixed 10) 1000)
  refine ⟨s, hs, ?_⟩
  obtain rfl := Except.ok.inj ((start_ofText_empty ..).symm.trans hs)
  have hreceive : ((fresh (nesting 1) Line.parse (.new (DiceCup.fixed 10) 1000)).receive
      (.line "nest")).1 = .ok [.metadataChanged "deep" (nested 16)] := by decide +kernel
  have hwrote := wrote_nest hreceive
  have hregular := List.forall_mem_singleton.mpr (regular_nested 16)
  refine ⟨hwrote, ((hreopens [.line "nest"]).2 _ hwrote hregular).mpr ?_⟩
  intro key value hmem
  obtain ⟨rfl, rfl⟩ := Event.metadataChanged.inj (List.mem_singleton.mp hmem)
  rw [(nested_facts 16).1]
  decide

/-- The manifest passes its check, the command is accepted, and what it writes
cannot be read. -/
theorem nested_steps_are_not_reopened :
    (nesting 8).manifest.lint = .ok []
      ∧ ∃ s : Session DiceCup FileLog,
        start (nesting 8) Line.parse (.new (.fixed 10) 1000) (FileLog.ofText "") = .ok s
          ∧ (s.receive (.line "nest")).1 = .ok [.metadataChanged "deep" (nested 128)]
          ∧ replayLog .empty (s.receiveAll [.line "nest"]).log.reopen
              = .error (.storage (.malformed 1)) := by
  refine ⟨by decide +kernel, fresh (nesting 8) Line.parse (.new (.fixed 10) 1000),
    start_ofText_empty .., ?_⟩
  have hreceive : ((fresh (nesting 8) Line.parse (.new (DiceCup.fixed 10) 1000)).receive
      (.line "nest")).1 = .ok [.metadataChanged "deep" (nested 128)] := by decide +kernel
  refine ⟨hreceive, ?_⟩
  have hholds : ((fresh (nesting 8) Line.parse (.new (DiceCup.fixed 10) 1000)).receiveAll
      [.line "nest"]).log.Holds ([] ++ .metadataChanged "deep" (nested 128) :: []) :=
    (wrote_nest hreceive).log
  have hdeep : 128 ≤ (Event.metadataChanged "deep" (nested 128)).toJson.levels := by
    rw [Event.levels_toJson]
    simp [Event.fields, Json.levels, Json.levelsMembers, (nested_facts 128).1]
  rw [replayLog, FileLog.load_reopen,
    hholds.load_of_deep (List.forall_mem_nil _) (regular_nested 128).exact hdeep]
  rfl

end Session

end GameTable
