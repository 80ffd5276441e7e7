import GameTable.Proofs.State.Turns

/-!
# The order of turns

The order of turns is found by sorting, anew whenever it is asked for. Which of
two actors has its turn first can be said without sorting anything: it is the
one with the better key, and if neither key is better, the one that joined first
(`Loop.Ahead`). As long as no actor takes part twice, that settles the order: it
is the only arrangement of the actors in which each is ahead of those behind it
(`eq_orderedActors`), and the place of an actor in it is the number of those
ahead of it (`idxOf_orderedActors`).

So what an event makes of the order can be read off what it does to being ahead.

If somebody takes part twice, there is no saying which of the two places comes
first. The keys still settle the order: whatever the actors are, it is the only
arrangement of them by their keys in which those of each key stand as they have
joined (`arranged_iff_eq_orderedActors`).
-/

namespace GameTable.Loop

variable {l : Loop} {a b : String} {xs : List String}

/-- Without a key an actor precedes only those that have none either. -/
theorem precedes_iff :
    l.precedes a b = true
      ↔ ∀ y, l.order.get? b = some y →
        ∃ x, l.order.get? a = some x ∧ if l.ascending then x ≤ y else y ≤ x := by
  unfold precedes
  cases l.order.get? a <;> cases l.order.get? b <;> simp

theorem precedes_trans (l : Loop) (a b c : String) (hab : l.precedes a b = true)
    (hbc : l.precedes b c = true) : l.precedes a c = true := by
  rw [precedes_iff] at *
  intro z hz
  obtain ⟨y, hy, hyz⟩ := hbc z hz
  obtain ⟨x, hx, hxy⟩ := hab y hy
  refine ⟨x, hx, ?_⟩
  split_ifs at hxy hyz ⊢
  · exact Int.le_trans hxy hyz
  · exact Int.le_trans hyz hxy

theorem precedes_total (l : Loop) (a b : String) :
    (l.precedes a b || l.precedes b a) = true := by
  unfold precedes
  cases l.order.get? a <;> cases l.order.get? b <;> cases l.ascending <;> simp <;> omega

/-- Both take part, and of the keys the first is the better, or neither is and
the first has joined before the second. -/
structure Ahead (l : Loop) (a b : String) : Prop where
  mem_left : a ∈ l.actors
  mem_right : b ∈ l.actors
  precedes : l.precedes a b = true
  joined : l.precedes b a = true → l.actors.idxOf a < l.actors.idxOf b

theorem ahead_iff :
    l.Ahead a b ↔ a ∈ l.actors ∧ b ∈ l.actors ∧ l.precedes a b = true
      ∧ (l.precedes b a = true → l.actors.idxOf a < l.actors.idxOf b) :=
  ⟨fun h => ⟨h.1, h.2, h.3, h.4⟩, fun h => ⟨h.1, h.2.1, h.2.2.1, h.2.2.2⟩⟩

instance (l : Loop) (a b : String) : Decidable (l.Ahead a b) := decidable_of_iff _ ahead_iff.symm

theorem Ahead.not_ahead (h : l.Ahead a b) : ¬ l.Ahead b a := fun hback => by
  have hab := h.joined hback.precedes
  have hba := hback.joined h.precedes
  omega

theorem Ahead.ne (h : l.Ahead a b) : a ≠ b := by
  rintro rfl
  exact h.not_ahead h

/-! ## Sorting -/

theorem idxOf_lt_of_sublist (hxs : xs.Nodup) (h : [a, b].Sublist xs) :
    xs.idxOf a < xs.idxOf b := by
  obtain ⟨front, back, rfl, ha, hb⟩ := List.cons_sublist_iff.mp h
  have hfront : b ∉ front := fun hmem =>
    (List.nodup_append.mp hxs).2.2 b hmem b (List.singleton_sublist.mp hb) rfl
  have hlt := List.idxOf_lt_length_of_mem ha
  rw [List.idxOf_append_of_mem ha, List.idxOf_append_of_notMem hfront]
  omega

theorem sublist_of_idxOf_lt (hb : b ∈ xs) (h : xs.idxOf a < xs.idxOf b) : [a, b].Sublist xs := by
  have ha : a ∈ xs :=
    List.idxOf_lt_length_iff.mp (Nat.lt_trans h (List.idxOf_lt_length_of_mem hb))
  obtain ⟨front, back, rfl, hfront⟩ := List.eq_append_cons_of_mem ha
  rw [List.idxOf_append_of_notMem hfront, List.idxOf_cons_self] at h
  have hback : b ∈ back := by
    rcases List.mem_append.mp hb with hmem | hmem
    · have hlt := List.idxOf_lt_length_of_mem hmem
      rw [List.idxOf_append_of_mem hmem] at h
      omega
    · rcases List.mem_cons.mp hmem with rfl | hmem
      · rw [List.idxOf_append_of_notMem hfront, List.idxOf_cons_self] at h
        omega
      · exact hmem
  exact ((List.singleton_sublist.mpr hback).cons_cons a).trans (List.sublist_append_right ..)

theorem nodup_orderedActors (h : l.actors.Nodup) : l.orderedActors.Nodup :=
  (List.mergeSort_perm l.actors l.precedes).nodup_iff.mpr h

theorem mem_orderedActors : a ∈ l.orderedActors ↔ a ∈ l.actors := List.mem_mergeSort

/-- Of two actors in the order of turns the one in front is ahead. -/
theorem pairwise_ahead (h : l.actors.Nodup) : l.orderedActors.Pairwise l.Ahead := by
  rw [List.pairwise_iff_forall_sublist]
  intro a b hab
  have ha : a ∈ l.actors := mem_orderedActors.mp (hab.subset (by simp))
  have hb : b ∈ l.actors := mem_orderedActors.mp (hab.subset (by simp))
  have hsorted := List.pairwise_mergeSort l.precedes_trans l.precedes_total l.actors
  refine ⟨ha, hb, List.pairwise_iff_forall_sublist.mp hsorted hab, fun hback => ?_⟩
  have hturns := idxOf_lt_of_sublist (nodup_orderedActors h) hab
  -- Had `b` joined first, then sorting would have left it in front of `a`.
  by_contra hle
  have hne : l.actors.idxOf b ≠ l.actors.idxOf a := fun heq => by
    obtain rfl := (List.idxOf_inj hb).mp heq
    omega
  have hjoined : [b, a].Sublist l.actors := sublist_of_idxOf_lt ha (by omega)
  have hkept := List.pair_sublist_mergeSort l.precedes_trans l.precedes_total hback hjoined
  have hother := idxOf_lt_of_sublist (nodup_orderedActors h) hkept
  omega

/-- There is no other arrangement of the actors. -/
theorem eq_orderedActors (h : l.actors.Nodup) (hperm : xs.Perm l.actors)
    (hahead : xs.Pairwise l.Ahead) : xs = l.orderedActors :=
  List.Perm.eq_of_pairwise (fun _ _ _ _ hab hba => (hab.not_ahead hba).elim) hahead
    (pairwise_ahead h) (hperm.trans (List.mergeSort_perm ..).symm)

/-- As many actors have their turn before an actor as are ahead of it. -/
theorem idxOf_orderedActors (h : l.actors.Nodup) (hb : b ∈ l.actors) :
    l.orderedActors.idxOf b = l.actors.countP (l.Ahead · b) := by
  obtain ⟨front, back, hsplit⟩ := List.mem_iff_append.mp (mem_orderedActors.mpr hb)
  have hahead := pairwise_ahead h
  have hperm : (front ++ b :: back).Perm l.actors := hsplit ▸ List.mergeSort_perm ..
  rw [hsplit, List.pairwise_append, List.pairwise_cons] at hahead
  obtain ⟨-, ⟨hback, -⟩, hfront⟩ := hahead
  have hbfront : b ∉ front := fun hmem => (hfront b hmem b (List.mem_cons_self ..)).ne rfl
  have hfull : front.countP (l.Ahead · b) = front.length :=
    List.countP_eq_length.mpr fun a ha =>
      decide_eq_true (hfront a ha b (List.mem_cons_self ..))
  have hnone : (b :: back).countP (l.Ahead · b) = 0 := by
    refine List.countP_eq_zero.mpr fun a ha => ?_
    rw [decide_eq_true_iff]
    rcases List.mem_cons.mp ha with rfl | ha
    · exact fun hself => hself.ne rfl
    · exact (hback a ha).not_ahead
  rw [← hperm.countP_eq, List.countP_append, hfull, hnone, hsplit,
    List.idxOf_append_of_notMem hbfront, List.idxOf_cons_self]

/-! ## Arranging by keys -/

/-- The actors with a key come first and are sorted by it, the larger in front
unless the loop ascends. Those of one key, and those without, stand in the order
in which they have joined. -/
structure Arranged (l : Loop) (xs : List String) : Prop where
  perm : xs.Perm l.actors
  keyed_first : xs.Pairwise fun a b => (l.order.get? b).isSome → (l.order.get? a).isSome
  sorted : xs.Pairwise fun a b => ∀ x y, l.order.get? a = some x → l.order.get? b = some y →
    if l.ascending then x ≤ y else y ≤ x
  joined : ∀ key, xs.filter (l.order.get? · = key) = l.actors.filter (l.order.get? · = key)

/-- Actors that precede each other have the same key, or none. -/
theorem get?_eq_of_precedes (hab : l.precedes a b = true) (hba : l.precedes b a = true) :
    l.order.get? a = l.order.get? b := by
  rw [precedes_iff] at hab hba
  cases ha : l.order.get? a with
  | none =>
      cases hb : l.order.get? b with
      | none => rfl
      | some y =>
          obtain ⟨x, hx, -⟩ := hab y hb
          rw [ha] at hx
          cases hx
  | some x =>
      obtain ⟨y, hb, hyx⟩ := hba x ha
      obtain ⟨x', ha', hxy⟩ := hab y hb
      obtain rfl := Option.some.inj (ha.symm.trans ha')
      rw [hb, Option.some.injEq]
      split_ifs at hxy hyx
      · exact Int.le_antisymm hxy hyx
      · exact Int.le_antisymm hyx hxy

theorem precedes_of_get?_eq (h : l.order.get? a = l.order.get? b) : l.precedes a b = true := by
  rw [precedes_iff]
  intro y hb
  refine ⟨y, h.trans hb, ?_⟩
  split_ifs <;> exact Int.le_refl y

/-- Sorting leaves the actors of a key as they are. -/
theorem filter_orderedActors (l : Loop) (key : Option Int) :
    l.orderedActors.filter (l.order.get? · = key) = l.actors.filter (l.order.get? · = key) := by
  have hties : (l.actors.filter (l.order.get? · = key)).Pairwise
      fun a b => l.precedes a b = true := by
    refine List.pairwise_of_forall_mem_list fun a ha b hb => precedes_of_get?_eq ?_
    have hkey_a : l.order.get? a = key := by simpa using (List.mem_filter.mp ha).2
    have hkey_b : l.order.get? b = key := by simpa using (List.mem_filter.mp hb).2
    exact hkey_a.trans hkey_b.symm
  have hkept : (l.actors.filter (l.order.get? · = key)).Sublist l.orderedActors :=
    List.sublist_mergeSort l.precedes_trans l.precedes_total hties List.filter_sublist
  have hperm := (List.mergeSort_perm l.actors l.precedes).filter (l.order.get? · = key)
  have hsub := hkept.filter (l.order.get? · = key)
  simp only [List.filter_filter, Bool.and_self] at hsub
  exact (hsub.eq_of_length hperm.length_eq.symm).symm

/-- What precedes another has a key if the other has one, and the better of two. -/
theorem precedes_iff_keys :
    l.precedes a b = true ↔ ((l.order.get? b).isSome → (l.order.get? a).isSome)
      ∧ ∀ x y, l.order.get? a = some x → l.order.get? b = some y →
        if l.ascending then x ≤ y else y ≤ x := by
  unfold precedes
  cases l.order.get? a <;> cases l.order.get? b <;> cases l.ascending <;> simp

theorem arranged_orderedActors (l : Loop) : l.Arranged l.orderedActors := by
  have hsorted : l.orderedActors.Pairwise fun a b => l.precedes a b = true :=
    List.pairwise_mergeSort l.precedes_trans l.precedes_total l.actors
  exact {
    perm := List.mergeSort_perm ..
    keyed_first := hsorted.imp fun h => (precedes_iff_keys.mp h).1
    sorted := hsorted.imp fun h => (precedes_iff_keys.mp h).2
    joined := l.filter_orderedActors }

theorem Arranged.precedes (h : l.Arranged xs) :
    xs.Pairwise fun a b => l.precedes a b = true :=
  (List.pairwise_and_iff.mpr ⟨h.keyed_first, h.sorted⟩).imp precedes_iff_keys.mpr

theorem mem_of_filter_eq {ys : List String}
    (h : ∀ key, xs.filter (l.order.get? · = key) = ys.filter (l.order.get? · = key))
    (ha : a ∈ xs) : a ∈ ys := by
  have hfilter : a ∈ xs.filter (l.order.get? · = l.order.get? a) :=
    List.mem_filter.mpr ⟨ha, decide_eq_true rfl⟩
  rw [h] at hfilter
  exact List.mem_of_mem_filter hfilter

/-- Two lists in which each precedes those behind it are the same if for each
key they have the same actors in the same order. -/
theorem eq_of_filter_eq {ys : List String} (hxs : xs.Pairwise fun a b => l.precedes a b = true)
    (hys : ys.Pairwise fun a b => l.precedes a b = true)
    (h : ∀ key, xs.filter (l.order.get? · = key) = ys.filter (l.order.get? · = key)) :
    xs = ys := by
  induction xs generalizing ys with
  | nil =>
      cases ys with
      | nil => rfl
      | cons b ys =>
          have hb := mem_of_filter_eq (fun key => (h key).symm) (List.mem_cons_self (a := b))
          exact absurd hb List.not_mem_nil
  | cons a xs ih =>
      cases ys with
      | nil => exact absurd (mem_of_filter_eq h (List.mem_cons_self (a := a))) List.not_mem_nil
      | cons b ys =>
          rw [List.pairwise_cons] at hxs hys
          -- Each of the two in front precedes all others, so they have the same key.
          have hab : l.precedes a b = true := by
            rcases List.mem_cons.mp (mem_of_filter_eq (fun key => (h key).symm)
              (List.mem_cons_self (a := b))) with rfl | hb
            · exact precedes_of_get?_eq rfl
            · exact hxs.1 b hb
          have hba : l.precedes b a = true := by
            rcases List.mem_cons.mp (mem_of_filter_eq h (List.mem_cons_self (a := a)))
              with rfl | ha
            · exact precedes_of_get?_eq rfl
            · exact hys.1 a ha
          have hkey := get?_eq_of_precedes hab hba
          have hfront := h (l.order.get? a)
          rw [List.filter_cons_of_pos (by simp), List.filter_cons_of_pos (by simp [hkey]),
            List.cons.injEq] at hfront
          obtain ⟨rfl, -⟩ := hfront
          have hrest (key : Option Int) :
              xs.filter (l.order.get? · = key) = ys.filter (l.order.get? · = key) := by
            have hcons := h key
            by_cases ha : l.order.get? a = key
            · rw [List.filter_cons_of_pos (by simp [ha]), List.filter_cons_of_pos (by simp [ha])]
                at hcons
              exact (List.cons.inj hcons).2
            · rwa [List.filter_cons_of_neg (by simp [ha]), List.filter_cons_of_neg (by simp [ha])]
                at hcons
          rw [ih hxs.2 hys.2 hrest]

/-- The order of turns is an arrangement of the actors by their keys, and there
is no other one. -/
theorem arranged_iff_eq_orderedActors (l : Loop) (xs : List String) :
    l.Arranged xs ↔ xs = l.orderedActors := by
  constructor
  · intro h
    have hsorted := l.arranged_orderedActors
    exact eq_of_filter_eq h.precedes hsorted.precedes fun key =>
      (h.joined key).trans (hsorted.joined key).symm
  · rintro rfl
    exact l.arranged_orderedActors

/-- Turning the order around leaves actors of one key where they are. -/
example :
    let skirmish (ascending : Bool) : Loop := { started with
      actors := ["goblin", "orc", "fighter", "wizard"], ascending
      order := .ofList [("goblin", 8), ("fighter", 15), ("wizard", 15)] }
    (skirmish false).orderedActors = ["fighter", "wizard", "goblin", "orc"]
      ∧ (skirmish true).orderedActors = ["goblin", "fighter", "wizard", "orc"] := by
  constructor <;> cbv

end GameTable.Loop
