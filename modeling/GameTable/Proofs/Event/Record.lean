import GameTable.Event.Record
import GameTable.Proofs.Json.RoundTrip
import GameTable.Proofs.State.Reading

/-!
# Events that are read back

The text that stores an event gives the event back (`parse?_line`). Reading a
record looks every field up by its name and reads it as what the event carries:
texts, flags, integers of 64 bits, whole entities, and documents, which are
normalized when they are read and so have to be in key order to come back.
`Event.Storable` collects what is asked of an event.
-/

namespace GameTable

namespace Event

/-- The document that an event carries, if it carries one. -/
def document? : Event → Option Json
  | .attributeChanged _ _ _ value => some value
  | .metadataChanged _ value => some value
  | _ => none

/-- The event is one that the program can hold, its numbers are read as they
are printed, and its record nests fewer than 128 levels. -/
structure Storable (e : Event) : Prop where
  narrow : e.Narrow
  ordered : ∀ j, e.document? = some j → j.Ordered
  exact : e.toJson.Exact
  levels : e.toJson.levels < 128

theorem read?_written {e : Event} (hnarrow : e.Narrow)
    (hordered : ∀ j, e.document? = some j → j.Ordered) : read? e.toJson.written = some e := by
  cases e with
  | loopSwitched loop active => rfl
  | loopDirection loop ascending => rfl
  | actorAdded loop actor => rfl
  | loopAdvanced loop => rfl
  | spentAdded actor key => rfl
  | conditionChanged actor condition add => rfl
  | hinted message => rfl
  | checked actor check passed => rfl
  | loopOrder loop actor value =>
      change (Tree.integer64? (Json.written (.int value))).bind
        (fun n => some (loopOrder loop actor n)) = _
      rw [Json.shows_written.integer64?_int hnarrow]
      rfl
  | diceRolled actor dice result =>
      change (Tree.integer64? (Json.written (.int result))).bind
        (fun n => some (diceRolled actor dice n)) = _
      rw [Json.shows_written.integer64?_int hnarrow]
      rfl
  | askIssued target options =>
      change (Tree.texts? (Json.written (.ofStrings options))).bind
        (fun options => some (askIssued target options)) = _
      rw [Json.shows_written.texts?_ofStrings]
      rfl
  | attributeChanged actor sec key value =>
      change (DocumentTree.document? (Json.written value)).bind
        (fun j => some (attributeChanged actor sec key j)) = _
      rw [Json.shows_written.document?_of_ordered (hordered value rfl)]
      rfl
  | metadataChanged key value =>
      change (DocumentTree.document? (Json.written value)).bind
        (fun j => some (metadataChanged key j)) = _
      rw [Json.shows_written.document?_of_ordered (hordered value rfl)]
      rfl
  | entityAdded x =>
      have hx := Entity.read?_node Json.shows_written hnarrow
      rw [toJson, fields]
      -- what is read of an entity must not be calculated to find its field
      generalize x.toJson = j at hx ⊢
      change (Entity.read? (Json.written j)).bind (fun x => some (entityAdded x)) = _
      rw [hx]
      rfl

/-! ## Lines -/

theorem toList_line (e : Event) : e.line.toList = e.toJson.print := String.toList_ofList

/-- The text that stores an event is that of an object. -/
theorem exists_toList_line (e : Event) : ∃ cs, e.line.toList = '\x7b' :: cs ++ ['\x7d'] :=
  ⟨_, toList_line e⟩

theorem newline_not_mem_line (e : Event) : '\n' ∉ e.line.toList :=
  toList_line e ▸ Json.newline_not_mem_print _

/-- The text that stores an event is read as the event, with or without blanks
behind it. -/
theorem parse?_append_blanks {e : Event} (h : e.Storable) {blanks : String}
    (hblanks : blanks.toList.all Json.isSpace = true) : parse? (e.line ++ blanks) = some e := by
  have htext : e.line ++ blanks = .ofList (e.toJson.print ++ blanks.toList) := by
    rw [← String.toList_inj, String.toList_append, toList_line, String.toList_ofList]
  rw [parse?, htext, Json.read_print h.exact (Nat.le_of_lt_succ h.levels) hblanks]
  exact read?_written h.narrow h.ordered

theorem parse?_line {e : Event} (h : e.Storable) : parse? e.line = some e := by
  have hread : parse? (e.line ++ "") = some e := parse?_append_blanks h rfl
  rwa [String.append_empty] at hread

end Event

end GameTable
