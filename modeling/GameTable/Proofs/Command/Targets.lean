import Mathlib.Data.List.Basic
import Mathlib.Data.List.Induction
import GameTable.Manifest.Params

/-!
# Targets in the order in which they are named

A request names its targets in a list of its own and in the parameters that are
for targets. Taken one behind the other, without those that are empty, these are
its namings (`CommandDef.namings`). The targets are the namings less every one
that was there before (`CommandDef.targets_in_order_of_naming`). So a request
whose own list is the targets that it has anyway has the same targets: its
parameters have nothing new to name.
-/

namespace GameTable

/-! ## What was there before -/

section FirstPlaces

variable {α : Type} [DecidableEq α]

theorem eraseDups_concat (l : List α) (a : α) :
    (l ++ [a]).eraseDups = if a ∈ l then l.eraseDups else l.eraseDups ++ [a] := by
  rw [List.eraseDups_append, List.removeAll, List.filter_cons, List.elem_eq_mem, List.filter_nil]
  by_cases ha : a ∈ l
  · simp [ha]
  · simp [ha, List.eraseDups_cons]

/-- What is left stands in the order of the first places in the list. -/
theorem pairwise_idxOf_eraseDups (l : List α) :
    l.eraseDups.Pairwise fun a b => l.idxOf a < l.idxOf b := by
  induction l using List.reverseRecOn with
  | nil => exact .nil
  | append_singleton l last ih =>
      have hplace {a : α} (ha : a ∈ l.eraseDups) : (l ++ [last]).idxOf a = l.idxOf a :=
        List.idxOf_append_of_mem (List.mem_eraseDups.mp ha)
      have hbefore : l.eraseDups.Pairwise
          fun a b => (l ++ [last]).idxOf a < (l ++ [last]).idxOf b := by
        refine ih.imp_of_mem fun ha hb hlt => ?_
        rwa [hplace ha, hplace hb]
      rw [eraseDups_concat]
      split
      · exact hbefore
      · rename_i hnew
        refine List.pairwise_append.mpr ⟨hbefore, List.pairwise_singleton .., fun a ha b hb => ?_⟩
        obtain rfl := List.mem_singleton.mp hb
        have hlt := List.idxOf_lt_length_of_mem (List.mem_eraseDups.mp ha)
        rw [hplace ha, List.idxOf_append_of_notMem hnew]
        omega

theorem eraseDups_of_nodup {l : List α} (h : l.Nodup) : l.eraseDups = l := by
  induction l with
  | nil => rfl
  | cons a rest ih =>
      obtain ⟨ha, hrest⟩ := List.nodup_cons.mp h
      have hkept : rest.filter (fun b => !b == a) = rest := by
        refine List.filter_eq_self.mpr fun b hb => ?_
        simp only [Bool.not_eq_true', beq_eq_false_iff_ne]
        rintro rfl
        exact ha hb
      rw [List.eraseDups_cons, hkept, ih hrest]

end FirstPlaces

/-! ## What a request names -/

/-- The texts in a value: the value itself, or the items of a list. -/
def Value.texts : Value → List String
  | .list items => items.filterMap Value.str?
  | v => v.str?.toList

/-- The texts in the parameters for targets, in the order in which these are declared. -/
def targetTexts (declared : List ParamDef) (params : Dict Value) : List String :=
  ((declared.filter (·.type.isTarget)).filterMap fun p => params.get? p.name).flatMap Value.texts

theorem flatMap_targets (declared : List ParamDef) (params : Dict Value) :
    declared.flatMap (ParamDef.targets params) = targetTexts declared params := by
  induction declared with
  | nil => rfl
  | cons p rest ih =>
      rw [List.flatMap_cons, ih, ParamDef.targets, targetTexts, targetTexts, List.filter_cons]
      split
      · rw [List.filterMap_cons]
        rcases params.get? p.name with _ | v
        · rfl
        · cases v <;> rfl
      · rfl

/-- What a parameter names is its value, or an item of it. -/
theorem ParamDef.mem_targets_iff {p : ParamDef} {params : Dict Value} {id : String} :
    id ∈ p.targets params ↔ (p.type = .target ∨ p.type = .targetList)
      ∧ ∃ v, params.get? p.name = some v
        ∧ (v = .str id ∨ ∃ items, v = .list items ∧ .str id ∈ items) := by
  have hkind : p.type.isTarget = true ↔ p.type = .target ∨ p.type = .targetList := by
    cases p.type <;> simp [ParamType.isTarget]
  rw [targets, ← hkind]
  split
  · rename_i htype
    rcases params.get? p.name with _ | v
    · simp
    · cases v with
      | list items =>
          have hitem (item : Value) : item.str? = some id ↔ item = .str id := by
            cases item <;> simp [Value.str?]
          simp [htype, hitem]
      | _ => simp [htype, eq_comm]
  · rename_i htype
    simp [htype]

namespace CommandDef

variable {d : CommandDef} {explicit : List String} {params : Dict Value}

/-- The ids that a request names, as often as it does: those of its own list, then those in its
parameters. -/
def namings (d : CommandDef) (explicit : List String) (params : Dict Value) : List String :=
  (explicit ++ targetTexts d.params params).filter (!·.isEmpty)

/-! ## The targets of a request -/

/-- An id is added just if it is the first of its kind. -/
theorem foldl_addTarget (ids : List String) :
    ids.foldl addTarget [] = (ids.filter (!·.isEmpty)).eraseDups := by
  induction ids using List.reverseRecOn with
  | nil => rfl
  | append_singleton ids id ih =>
      rw [List.foldl_append, ih, List.foldl_cons, List.foldl_nil, addTarget, List.filter_append]
      cases hempty : id.isEmpty with
      | true => simp [hempty]
      | false =>
          rw [List.filter_cons, hempty, Bool.not_false, if_pos rfl, List.filter_nil,
            eraseDups_concat]
          simp [List.mem_eraseDups, hempty]

example : ["goblin", "orc", "", "goblin", "elf"].foldl addTarget [] = ["goblin", "orc", "elf"] := by
  decide

theorem resolveTargets_eq (d : CommandDef) (explicit : List String) (params : Dict Value) :
    d.resolveTargets explicit params = (d.namings explicit params).eraseDups := by
  rw [resolveTargets, foldl_addTarget, flatMap_targets, namings]

/-- The targets are those that the request names, and those in a parameter for targets. -/
theorem mem_resolveTargets_iff {id : String} :
    id ∈ d.resolveTargets explicit params ↔
      (id ∈ explicit ∨ ∃ p ∈ d.params, id ∈ p.targets params) ∧ id.isEmpty = false := by
  rw [resolveTargets, foldl_addTarget, List.mem_eraseDups, List.mem_filter, List.mem_append,
    List.mem_flatMap, Bool.not_eq_true']

theorem nodup_resolveTargets (d : CommandDef) (explicit : List String) (params : Dict Value) :
    (d.resolveTargets explicit params).Nodup := by
  rw [resolveTargets_eq]
  refine (pairwise_idxOf_eraseDups (d.namings explicit params)).imp ?_
  rintro id _ hlt rfl
  exact Nat.lt_irrefl _ hlt

/-- Naming the targets in another order orders the targets otherwise and nothing else. -/
theorem resolveTargets_perm {explicit' : List String} (h : explicit.Perm explicit')
    (d : CommandDef) (params : Dict Value) :
    (d.resolveTargets explicit params).Perm (d.resolveTargets explicit' params) := by
  refine (List.perm_ext_iff_of_nodup (nodup_resolveTargets ..) (nodup_resolveTargets ..)).mpr
    fun id => ?_
  rw [mem_resolveTargets_iff, mem_resolveTargets_iff, h.mem_iff]

/-- Behind the targets that a request has anyway, its parameters name nothing new. -/
theorem resolveTargets_resolveTargets (d : CommandDef) (explicit : List String)
    (params : Dict Value) :
    d.resolveTargets (d.resolveTargets explicit params) params
      = d.resolveTargets explicit params := by
  have hkept : (d.resolveTargets explicit params).filter (!·.isEmpty)
      = d.resolveTargets explicit params := by
    refine List.filter_eq_self.mpr fun id hid => ?_
    rw [(mem_resolveTargets_iff.mp hid).2, Bool.not_false]
  have hnothing : ((targetTexts d.params params).filter (!·.isEmpty)).removeAll
      (d.resolveTargets explicit params) = [] := by
    refine List.filter_eq_nil_iff.mpr fun id hid => ?_
    have hmem : id ∈ d.resolveTargets explicit params := by
      rw [resolveTargets_eq, List.mem_eraseDups, namings, List.filter_append]
      exact List.mem_append_right _ hid
    simpa using hmem
  calc d.resolveTargets (d.resolveTargets explicit params) params
      = (d.resolveTargets explicit params
          ++ (targetTexts d.params params).filter (!·.isEmpty)).eraseDups := by
        rw [resolveTargets_eq d (d.resolveTargets explicit params), namings, List.filter_append,
          hkept]
    _ = (d.resolveTargets explicit params).eraseDups := by
        rw [List.eraseDups_append, hnothing, List.eraseDups_nil, List.append_nil]
    _ = d.resolveTargets explicit params :=
        eraseDups_of_nodup (nodup_resolveTargets d explicit params)

/-- The targets of a request are the ids that it names and no others, each at the first of the
places where it is named. Resolved again they stay as they are. -/
theorem targets_in_order_of_naming (d : CommandDef) (explicit : List String)
    (params : Dict Value) :
    d.resolveTargets explicit params = (d.namings explicit params).eraseDups
      ∧ (d.resolveTargets explicit params).Pairwise
          (fun a b => (d.namings explicit params).idxOf a < (d.namings explicit params).idxOf b)
      ∧ (d.resolveTargets explicit params).Nodup
      ∧ (∀ id, id ∈ d.resolveTargets explicit params ↔
          id ≠ "" ∧ (id ∈ explicit ∨ ∃ p ∈ d.params, (p.type = .target ∨ p.type = .targetList)
            ∧ ∃ v, params.get? p.name = some v
              ∧ (v = .str id ∨ ∃ items, v = .list items ∧ .str id ∈ items)))
      ∧ d.resolveTargets (d.resolveTargets explicit params) params
          = d.resolveTargets explicit params := by
  have horder := pairwise_idxOf_eraseDups (d.namings explicit params)
  rw [← resolveTargets_eq] at horder
  refine ⟨resolveTargets_eq d explicit params, horder, nodup_resolveTargets d explicit params,
    fun id => ?_, resolveTargets_resolveTargets d explicit params⟩
  simp only [mem_resolveTargets_iff, ParamDef.mem_targets_iff, String.isEmpty_eq_false_iff]
  exact and_comm

end CommandDef

end GameTable
