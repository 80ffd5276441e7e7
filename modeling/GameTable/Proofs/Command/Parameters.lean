import Mathlib.Control.Monad.Basic
import GameTable.Command.Execute
import GameTable.Proofs.Command.Targets
import GameTable.Proofs.Result

/-!
# Parameters in their declared shape

A value that is given is put into the declared shape, and then it has that shape
(`ParamType.shaped_of_shape`). A value that counts as not given is not looked
at again. For a list of targets it is replaced by the empty list; any other
stays among the checked parameters as it was typed, a blank text among them,
and is read again when the targets are collected.

So the parameters of a command are in order just if no such value is left and no
name is declared twice with shapes that exclude each other
(`Execute.checkParams_inOrder_iff`). A blank text for a single target is left,
and the target phase runs for an entity that does not exist
(`Execute.checkParams_keeps_blank`).
-/

namespace GameTable

/-- Whether a value has the shape that a parameter is declared with. -/
def ParamType.Shaped (s : State) : ParamType → Value → Prop
  | .text, v => ∃ t, v = .str t
  | .int, v => ∃ n, v = .int n
  | .target, v => ∃ id, v = .str id ∧ s.entities.contains id = true
  | .targetList, v => ∃ ids, v = .ofStrings ids ∧ ∀ id ∈ ids, s.entities.contains id = true

namespace ParamType

variable {s : State} {type : ParamType} {v w : Value}

theorem checkTarget_eq_ok_iff {id : String} :
    s.checkTarget id = .ok () ↔ s.entities.contains id = true := by
  rw [State.checkTarget]
  split <;> simp_all

/-- A single target that was accepted is a text, or a list of one. -/
theorem shape_target_eq_ok (h : shape s .target v = .ok w) :
    ∃ id, w = .str id ∧ s.entities.contains id = true ∧ targetIds v = .ok [id] := by
  obtain ⟨ids, hids, h⟩ := bind_eq_ok_iff.mp h
  match ids with
  | [id] =>
      obtain ⟨hid, h⟩ := andThen_eq_ok_iff.mp h
      obtain rfl := Except.ok.inj h
      exact ⟨id, rfl, checkTarget_eq_ok_iff.mp hid, hids⟩
  | [] | _ :: _ :: _ => cases h

/-- What is put into a shape has that shape. -/
theorem shaped_of_shape (h : shape s type v = .ok w) : type.Shaped s w := by
  cases type with
  | text =>
      obtain rfl := Except.ok.inj h
      exact ⟨_, rfl⟩
  | int =>
      rw [shape] at h
      split at h
      · obtain rfl := Except.ok.inj h
        exact ⟨_, rfl⟩
      · cases h
  | target =>
      obtain ⟨id, rfl, hid, -⟩ := shape_target_eq_ok h
      exact ⟨id, rfl, hid⟩
  | targetList =>
      obtain ⟨ids, -, h⟩ := bind_eq_ok_iff.mp h
      obtain ⟨hids, h⟩ := andThen_eq_ok_iff.mp h
      obtain rfl := Except.ok.inj h
      exact ⟨ids, rfl, fun id hid => checkTarget_eq_ok_iff.mp (forM_eq_ok_iff.mp hids id hid)⟩

theorem default?_eq_some_iff : type.default? = some v ↔ type = .targetList ∧ v = .list [] := by
  cases type <;> simp [default?, eq_comm]

theorem Shaped.eq_int_iff (h : type.Shaped s v) : type = .int ↔ ∃ n, v = .int n := by
  cases type with
  | int => simpa [Shaped] using h
  | text =>
      obtain ⟨t, rfl⟩ := h
      simp
  | target =>
      obtain ⟨id, rfl, -⟩ := h
      simp
  | targetList =>
      obtain ⟨ids, rfl, -⟩ := h
      simp [Value.ofStrings]

theorem Shaped.eq_targetList_iff (h : type.Shaped s v) :
    type = .targetList ↔ ∃ items, v = .list items := by
  cases type with
  | int =>
      obtain ⟨n, rfl⟩ := h
      simp
  | text =>
      obtain ⟨t, rfl⟩ := h
      simp
  | target =>
      obtain ⟨id, rfl, -⟩ := h
      simp
  | targetList =>
      obtain ⟨ids, rfl, -⟩ := h
      simp [Value.ofStrings]

theorem shaped_nil_iff : type.Shaped s (.list []) ↔ type = .targetList := by
  refine ⟨fun h => h.eq_targetList_iff.mpr ⟨[], rfl⟩, ?_⟩
  rintro rfl
  exact ⟨[], rfl, by simp⟩

theorem eq_map_str_of_targetIds {items : List Value} {ids : List String}
    (h : targetIds (.list items) = .ok ids) : items = ids.map .str := by
  rw [targetIds] at h
  induction items generalizing ids with
  | nil =>
      obtain rfl := Except.ok.inj h
      rfl
  | cons item rest ih =>
      rw [List.mapM_cons] at h
      obtain ⟨id, hid, h⟩ := bind_eq_ok_iff.mp h
      obtain ⟨more, hrest, h⟩ := bind_eq_ok_iff.mp h
      obtain rfl := Except.ok.inj h
      cases item with
      | str t =>
          obtain rfl := Except.ok.inj hid
          rw [List.map_cons, ih hrest]
      | _ => cases hid

theorem phrase_of_targetIds {id : String} (h : targetIds v = .ok [id]) : v.phrase = id := by
  cases v with
  | str t =>
      obtain rfl : t = id := by simpa [targetIds] using h
      simp [Value.phrase, Value.text, Value.display]
  | list items =>
      obtain rfl := eq_map_str_of_targetIds h
      simp [Value.phrase, Value.text, Value.display]
  | null | bool | int | double | map => cases h

/-- The shape of one declaration serves for another of the same name, unless one of them is for
integers or for lists and the other is not. -/
theorem shaped_of_shape_of_alike {other : ParamType} {u : Value} (hown : shape s type v = .ok u)
    (hother : shape s other v = .ok w) (hint : type = .int ↔ other = .int)
    (hlist : type = .targetList ↔ other = .targetList) : type.Shaped s w := by
  have hw := shaped_of_shape hother
  cases type with
  | int =>
      obtain rfl := hint.mp rfl
      exact hw
  | targetList =>
      obtain rfl := hlist.mp rfl
      exact hw
  | text =>
      cases other with
      | text => exact hw
      | target =>
          obtain ⟨id, rfl, -⟩ := hw
          exact ⟨id, rfl⟩
      | int => cases hint.mpr rfl
      | targetList => cases hlist.mpr rfl
  | target =>
      cases other with
      | target => exact hw
      | text =>
          obtain ⟨id, -, hid, hids⟩ := shape_target_eq_ok hown
          obtain rfl := Except.ok.inj hother
          exact ⟨id, by rw [phrase_of_targetIds hids], hid⟩
      | int => cases hint.mpr rfl
      | targetList => cases hlist.mpr rfl

end ParamType

/-! ## What the parameters are after the check -/

namespace ParamDef

variable {s : State} {params : Dict Value} {p : ParamDef} {v : Value}

theorem resolve_of_given (hv : params.get? p.name = some v) (hgiven : v.isBlank = false) :
    p.resolve s params = (p.type.shape s v).map some := by
  have hsome : (params.get? p.name).filter (fun v => !v.isBlank) = some v := by
    simp [hv, Option.filter, hgiven]
  simp [resolve, hsome]

theorem resolve_of_blank (h : ∀ v, params.get? p.name = some v → v.isBlank = true) :
    p.resolve s params = if p.required then .error .missing else .ok p.type.default? := by
  have hnone : (params.get? p.name).filter (fun v => !v.isBlank) = none := by
    simpa [Option.filter_eq_none_iff] using h
  simp [resolve, hnone]

/-- Each name has the value of one of its declarations, or none of them gives it one. -/
theorem get?_of_foldlM_validate {ps : List ParamDef} {start checked : Dict Value}
    (h : ps.foldlM (fun acc p => p.validate s params acc) start = .ok checked) (name : String) :
    (∃ p ∈ ps, p.name = name ∧ ∃ v, p.resolve s params = .ok (some v)
        ∧ checked.get? name = some v)
      ∨ (∀ p ∈ ps, p.name = name → p.resolve s params = .ok none)
        ∧ checked.get? name = start.get? name := by
  induction ps generalizing start with
  | nil =>
      obtain rfl := Except.ok.inj h
      exact .inr ⟨by simp, rfl⟩
  | cons p rest ih =>
      rw [List.foldlM_cons] at h
      obtain ⟨acc, hp, hrest⟩ := bind_eq_ok_iff.mp h
      rcases ih hrest with ⟨q, hq, hname, v, hv, hget⟩ | ⟨hnone, hget⟩
      · exact .inl ⟨q, List.mem_cons_of_mem _ hq, hname, v, hv, hget⟩
      · rw [validate] at hp
        split at hp
        · rename_i v hv
          obtain rfl := Except.ok.inj hp
          by_cases hname : p.name = name
          · subst hname
            rw [Dict.get?_insert_self] at hget
            exact .inl ⟨p, List.mem_cons_self .., rfl, v, hv, hget⟩
          · rw [Dict.get?_insert_of_ne _ _ hname] at hget
            exact .inr ⟨List.forall_mem_cons.mpr ⟨fun h => absurd h hname, hnone⟩, hget⟩
        · rename_i hv
          obtain rfl := Except.ok.inj hp
          exact .inr ⟨List.forall_mem_cons.mpr ⟨fun _ => hv, hnone⟩, hget⟩
        · cases hp

/-- No declaration refuses. -/
theorem resolve_of_foldlM_validate {ps : List ParamDef} {start checked : Dict Value}
    (h : ps.foldlM (fun acc p => p.validate s params acc) start = .ok checked) :
    ∀ p ∈ ps, ∃ found, p.resolve s params = .ok found := by
  induction ps generalizing start with
  | nil => simp
  | cons p rest ih =>
      rw [List.foldlM_cons] at h
      obtain ⟨acc, hp, hrest⟩ := bind_eq_ok_iff.mp h
      refine List.forall_mem_cons.mpr ⟨?_, ih hrest⟩
      rw [validate] at hp
      split at hp
      · exact ⟨_, ‹_›⟩
      · exact ⟨_, ‹_›⟩
      · cases hp

end ParamDef

namespace CommandDef

variable {d : CommandDef} {s : State} {params checked : Dict Value} {p : ParamDef} {v : Value}

theorem get?_of_validateParams_of_undeclared (h : d.validateParams s params = .ok checked)
    {name : String} (hname : ∀ p ∈ d.params, p.name ≠ name) :
    checked.get? name = params.get? name := by
  rcases ParamDef.get?_of_foldlM_validate h name with ⟨p, hp, heq, -⟩ | ⟨-, hget⟩
  · exact absurd heq (hname p hp)
  · exact hget

/-- A value that was given is put into the shape of a declaration of its name. -/
theorem get?_of_validateParams_of_given (h : d.validateParams s params = .ok checked)
    (hp : p ∈ d.params) (hv : params.get? p.name = some v) (hgiven : v.isBlank = false) :
    ∃ w u, checked.get? p.name = some w ∧ p.type.shape s v = .ok u
      ∧ ∃ q ∈ d.params, q.name = p.name ∧ q.type.shape s v = .ok w := by
  obtain ⟨found, hfound⟩ := ParamDef.resolve_of_foldlM_validate h p hp
  rw [ParamDef.resolve_of_given hv hgiven] at hfound
  obtain ⟨u, hu, rfl⟩ := map_eq_ok_iff.mp hfound
  rcases ParamDef.get?_of_foldlM_validate h p.name with ⟨q, hq, hname, w, hw, hget⟩ | ⟨hnone, -⟩
  · rw [ParamDef.resolve_of_given (hname ▸ hv) hgiven] at hw
    obtain ⟨w', hshape, heq⟩ := map_eq_ok_iff.mp hw
    obtain rfl := Option.some.inj heq
    exact ⟨w', u, hget, hu, q, hq, hname, hshape⟩
  · have hstays := hnone p hp rfl
    rw [ParamDef.resolve_of_given hv hgiven, hu] at hstays
    cases hstays

/-- Where no value was given, the value that is there stays, unless a declaration is for a list of
targets. -/
theorem get?_of_validateParams_of_blank (h : d.validateParams s params = .ok checked)
    {name : String} (hblank : ∀ v, params.get? name = some v → v.isBlank = true) :
    ((∃ q ∈ d.params, q.name = name ∧ q.type = .targetList)
        ∧ checked.get? name = some (.list []))
      ∨ (∀ q ∈ d.params, q.name = name → q.type ≠ .targetList)
        ∧ checked.get? name = params.get? name := by
  have hresolve : ∀ q ∈ d.params, q.name = name → q.resolve s params = .ok q.type.default? := by
    rintro q hq rfl
    obtain ⟨found, hfound⟩ := ParamDef.resolve_of_foldlM_validate h q hq
    rw [ParamDef.resolve_of_blank hblank] at hfound ⊢
    split at hfound
    · cases hfound
    · rename_i hrequired
      rw [if_neg hrequired]
  rcases ParamDef.get?_of_foldlM_validate h name with ⟨q, hq, hname, w, hw, hget⟩ | ⟨hnone, hget⟩
  · rw [hresolve q hq hname, Except.ok.injEq, ParamType.default?_eq_some_iff] at hw
    exact .inl ⟨⟨q, hq, hname, hw.1⟩, hw.2 ▸ hget⟩
  · refine .inr ⟨fun q hq hname hlist => ?_, hget⟩
    have hstays := hnone q hq hname
    rw [hresolve q hq hname, hlist] at hstays
    cases hstays

theorem fits_of_shaped (h : d.validateParams s params = .ok checked)
    (hshaped : ∀ p ∈ d.params, ∀ v, checked.get? p.name = some v → p.type.Shaped s v)
    (hp : p ∈ d.params) (hv : params.get? p.name = some v) (hblank : v.isBlank = true) :
    p.type = .targetList ∨ p.type.Shaped s v := by
  have hall : ∀ v', params.get? p.name = some v' → v'.isBlank = true := by
    intro v' hv'
    obtain rfl := Option.some.inj (hv.symm.trans hv')
    exact hblank
  rcases get?_of_validateParams_of_blank h hall with ⟨-, hget⟩ | ⟨-, hget⟩
  · exact .inl (ParamType.shaped_nil_iff.mp (hshaped p hp _ hget))
  · exact .inr (hshaped p hp v (hget.trans hv))

theorem alike_of_shaped (h : d.validateParams s params = .ok checked)
    (hshaped : ∀ p ∈ d.params, ∀ v, checked.get? p.name = some v → p.type.Shaped s v)
    {q : ParamDef} (hp : p ∈ d.params) (hq : q ∈ d.params) (hname : p.name = q.name) :
    (p.type = .targetList ↔ q.type = .targetList)
      ∧ ∀ v, params.get? p.name = some v → v.isBlank = false →
        (p.type = .int ↔ q.type = .int) := by
  by_cases hgiven : ∃ v, params.get? p.name = some v ∧ v.isBlank = false
  · obtain ⟨v, hv, hgiven⟩ := hgiven
    obtain ⟨w, -, hget, -⟩ := get?_of_validateParams_of_given h hp hv hgiven
    have hpw := hshaped p hp w hget
    have hqw := hshaped q hq w (hname ▸ hget)
    exact ⟨hpw.eq_targetList_iff.trans hqw.eq_targetList_iff.symm,
      fun _ _ _ => hpw.eq_int_iff.trans hqw.eq_int_iff.symm⟩
  · refine ⟨?_, fun v hv hv' => absurd ⟨v, hv, hv'⟩ hgiven⟩
    have hall : ∀ v, params.get? p.name = some v → v.isBlank = true := by simpa using hgiven
    rcases get?_of_validateParams_of_blank h hall with ⟨-, hget⟩ | ⟨hnone, -⟩
    · rw [← ParamType.shaped_nil_iff (s := s), ← ParamType.shaped_nil_iff (s := s)]
      exact iff_of_true (hshaped p hp _ hget) (hshaped q hq _ (hname ▸ hget))
    · exact iff_of_false (hnone p hp rfl) (hnone q hq hname.symm)

theorem shaped_of_alike (h : d.validateParams s params = .ok checked)
    (hfits : ∀ p ∈ d.params, ∀ v, params.get? p.name = some v → v.isBlank = true →
      p.type = .targetList ∨ p.type.Shaped s v)
    (halike : ∀ p ∈ d.params, ∀ q ∈ d.params, p.name = q.name →
      (p.type = .targetList ↔ q.type = .targetList)
        ∧ ∀ v, params.get? p.name = some v → v.isBlank = false →
          (p.type = .int ↔ q.type = .int))
    (hp : p ∈ d.params) (hv : checked.get? p.name = some v) : p.type.Shaped s v := by
  by_cases hgiven : ∃ given, params.get? p.name = some given ∧ given.isBlank = false
  · obtain ⟨given, hgiven, hnonblank⟩ := hgiven
    obtain ⟨w, u, hget, hown, q, hq, hname, hother⟩ :=
      get?_of_validateParams_of_given h hp hgiven hnonblank
    obtain rfl := Option.some.inj (hget.symm.trans hv)
    obtain ⟨hlist, hint⟩ := halike p hp q hq hname.symm
    exact ParamType.shaped_of_shape_of_alike hown hother (hint given hgiven hnonblank) hlist
  · have hall : ∀ v, params.get? p.name = some v → v.isBlank = true := by simpa using hgiven
    rcases get?_of_validateParams_of_blank h hall with
      ⟨⟨q, hq, hname, hlist⟩, hget⟩ | ⟨hnone, hget⟩
    · obtain rfl := Option.some.inj (hget.symm.trans hv)
      exact ParamType.shaped_nil_iff.mpr ((halike p hp q hq hname.symm).1.mpr hlist)
    · rw [hget] at hv
      exact (hfits p hp v hv (hall v hv)).resolve_left (hnone p hp rfl)

/-! ## Which targets there are -/

theorem contains_of_mem_targets {id : String} (hid : id ∈ p.targets params)
    (hshaped : ∀ v, params.get? p.name = some v → p.type.Shaped s v) :
    s.entities.contains id = true := by
  obtain ⟨htype, v, hv, hnamed⟩ := ParamDef.mem_targets_iff.mp hid
  have hshape := hshaped v hv
  rcases htype with htype | htype <;> rw [htype] at hshape
  · obtain ⟨target, rfl, htarget⟩ := hshape
    rcases hnamed with heq | ⟨items, heq, -⟩ <;> cases heq
    exact htarget
  · obtain ⟨targets, rfl, htargets⟩ := hshape
    rcases hnamed with heq | ⟨items, heq, hitem⟩ <;> cases heq
    obtain ⟨target, htarget, heq⟩ := List.mem_map.mp hitem
    cases heq
    exact htargets _ htarget

end CommandDef

/-! ## Parameters in order -/

/-- The parameters of a request after the check, as the declarations promise them. -/
structure CommandDef.InOrder (d : CommandDef) (s : State) (input : Input)
    (checked : Dict Value) : Prop where
  /-- What is declared is not there or has the declared shape. -/
  declared : ∀ p ∈ d.params, ∀ v, checked.get? p.name = some v → p.type.Shaped s v
  undeclared : ∀ name, (∀ p ∈ d.params, p.name ≠ name) →
    checked.get? name = input.params.get? name
  targets : ∀ id ∈ d.resolveTargets input.targets checked, s.entities.contains id = true

namespace Execute

variable {d : CommandDef} {input : Input} {s : State} {checked : Dict Value}

theorem checkParams_eq_ok_iff : checkParams d input s = .ok checked ↔
    (∀ id ∈ input.targets, s.entities.contains id = true)
      ∧ d.validateParams s input.params = .ok checked := by
  have hfind : input.targets.find? (fun id => !s.entities.contains id) = none
      ↔ ∀ id ∈ input.targets, s.entities.contains id = true := by
    simp
  rw [checkParams, ← hfind]
  cases input.targets.find? fun id => !s.entities.contains id with
  | some id => simp
  | none =>
      cases d.validateParams s input.params with
      | error issue => simp
      | ok params => simp

/-- The parameters of a request are in order after the check just if it gives no optional parameter
a blank value of another shape, other than for a list of targets, and no name is declared
twice with shapes that exclude each other. -/
theorem checkParams_inOrder_iff (h : checkParams d input s = .ok checked) :
    d.InOrder s input checked ↔
      (∀ p ∈ d.params, ∀ v, input.params.get? p.name = some v → v.isBlank = true →
        p.type = .targetList ∨ p.type.Shaped s v)
      ∧ ∀ p ∈ d.params, ∀ q ∈ d.params, p.name = q.name →
        (p.type = .targetList ↔ q.type = .targetList)
        ∧ ∀ v, input.params.get? p.name = some v → v.isBlank = false →
          (p.type = .int ↔ q.type = .int) := by
  obtain ⟨hexplicit, hvalid⟩ := checkParams_eq_ok_iff.mp h
  constructor
  · intro hinOrder
    exact ⟨fun p hp v => CommandDef.fits_of_shaped hvalid hinOrder.declared hp,
      fun p hp q hq => CommandDef.alike_of_shaped hvalid hinOrder.declared hp hq⟩
  · rintro ⟨hfits, halike⟩
    have hshaped : ∀ p ∈ d.params, ∀ v, checked.get? p.name = some v → p.type.Shaped s v :=
      fun p hp v => CommandDef.shaped_of_alike hvalid hfits halike hp
    refine ⟨hshaped, fun name => CommandDef.get?_of_validateParams_of_undeclared hvalid, ?_⟩
    intro id hid
    rcases (CommandDef.mem_resolveTargets_iff.mp hid).1 with hmem | ⟨p, hp, hmem⟩
    · exact hexplicit id hmem
    · exact CommandDef.contains_of_mem_targets hmem (hshaped p hp)

end Execute

/-! ## A blank text for a target -/

/-- A command that names its targets. -/
def mark : CommandDef :=
  { name := "mark", params := [⟨"who", .target, false⟩], prereqs := [], game := [], actor := [],
    targets := [⟨"say", "target.id", "HintEvent", none⟩], hint := "", help := "", usage := "",
    turn := none }

def marking : Rules := ⟨⟨[], [], .ofList [("mark", mark)]⟩, .empty, false⟩

def loneFighter : State :=
  { State.empty with entities := .ofList [("fighter", .blank "fighter" "")] }

/-- The fighter marks whoever is asked for. -/
def markWho (who : String) : Input :=
  ⟨"mark", "fighter", [], .ofList [("who", .str who)]⟩

namespace Execute

theorem checkParams_inOrder_mark :
    ∃ checked, checkParams mark (markWho "fighter") loneFighter = .ok checked
      ∧ mark.InOrder loneFighter (markWho "fighter") checked
      ∧ mark.resolveTargets [] checked = ["fighter"] := by
  have h : checkParams mark (markWho "fighter") loneFighter
      = .ok (.ofList [("who", .str "fighter")]) := by decide +kernel
  have hwho : (markWho "fighter").params.get? "who" = some (.str "fighter") := by decide +kernel
  refine ⟨_, h, (checkParams_inOrder_iff h).mpr ⟨?_, ?_⟩, by decide +kernel⟩
  · intro p hp v hv hblank
    obtain rfl := List.mem_singleton.mp hp
    obtain rfl := Option.some.inj (hwho.symm.trans hv)
    exact absurd hblank (by decide +kernel)
  · intro p hp q hq hname
    obtain rfl := List.mem_singleton.mp hp
    obtain rfl := List.mem_singleton.mp hq
    exact ⟨.rfl, fun _ _ _ => .rfl⟩

/-- A blank text is given for a target and counts as not given. It is a target all the same, and
the target phase runs for it, though nobody is called so. -/
theorem checkParams_keeps_blank :
    ∃ checked, checkParams mark (markWho " ") loneFighter = .ok checked
      ∧ ¬ mark.InOrder loneFighter (markWho " ") checked
      ∧ mark.resolveTargets [] checked = [" "]
      ∧ loneFighter.entities.contains " " = false
      ∧ (marking.execute (.ofInput (markWho " ")) loneFighter none
        (.new (.fixed 10) 100 : Evaluator DiceCup)).1 = .ok [.hinted " "] := by
  have h : checkParams mark (markWho " ") loneFighter = .ok (.ofList [("who", .str " ")]) := by
    decide +kernel
  have htargets : mark.resolveTargets [] (.ofList [("who", .str " ")]) = [" "] := by decide +kernel
  have hnobody : loneFighter.entities.contains " " = false := by decide +kernel
  refine ⟨_, h, fun hinOrder => ?_, htargets, hnobody, by decide +kernel⟩
  have hsomebody := hinOrder.targets " " (by rw [markWho, htargets]; exact List.mem_singleton_self _)
  cases hnobody.symm.trans hsomebody

end Execute

end GameTable
