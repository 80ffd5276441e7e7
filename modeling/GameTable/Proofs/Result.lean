/-!
# Results of steps in a row

Readers, loaders and checks are steps in a row, of which the first that fails
ends the whole. A row of steps succeeds just if each of them does, and fails as
one of them does. Where every step of a reader succeeds, so does the reader of
the whole list (`mapM_map_eq_some`).
-/

namespace GameTable

universe u

variable {α β γ : Type} {ε : Type u}

@[simp] theorem pure_eq_ok (a : α) : (pure a : Except ε α) = .ok a := rfl

@[simp] theorem throw_eq_error (err : ε) : (throw err : Except ε α) = .error err := rfl

@[simp] theorem ok_bind (a : α) (next : α → Except ε β) : (Except.ok a >>= next) = next a := rfl

@[simp] theorem error_bind (err : ε) (next : α → Except ε β) :
    (Except.error err >>= next) = .error err := rfl

/-- What comes out if there is no failure need not be compared. -/
instance (priority := low) decidableEqError [DecidableEq ε] (x : Except ε α) (err : ε) :
    Decidable (x = .error err) :=
  match x with
  | .ok _ => isFalse (by simp)
  | .error err' => decidable_of_iff (err' = err) (by rw [Except.error.injEq])

theorem bind_eq_ok_iff {first : Except ε α} {next : α → Except ε β} {b : β} :
    (first >>= next) = .ok b ↔ ∃ a, first = .ok a ∧ next a = .ok b := by
  cases first with
  | error err => simp
  | ok a => simp

theorem andThen_eq_ok_iff {first : Except ε Unit} {next : Unit → Except ε β} {b : β} :
    (first >>= next) = .ok b ↔ first = .ok () ∧ next () = .ok b := by
  rw [bind_eq_ok_iff]
  exact ⟨fun ⟨(), hfirst, hnext⟩ => ⟨hfirst, hnext⟩, fun ⟨hfirst, hnext⟩ => ⟨(), hfirst, hnext⟩⟩

theorem bind_eq_error {first : Except ε α} {next : α → Except ε β} {err : ε}
    (h : (first >>= next) = .error err) :
    first = .error err ∨ ∃ a, first = .ok a ∧ next a = .error err := by
  cases first with
  | error err' =>
      obtain rfl := Except.error.inj h
      exact .inl rfl
  | ok a => exact .inr ⟨a, rfl, h⟩

theorem isOk_map (f : α → β) (x : Except ε α) : (x.map f).isOk = x.isOk := by
  cases x with
  | error err => rfl
  | ok a => rfl

theorem map_eq_ok_iff {f : α → β} {x : Except ε α} {b : β} :
    x.map f = .ok b ↔ ∃ a, x = .ok a ∧ f a = b := by
  cases x with
  | error err => simp [Except.map]
  | ok a => simp [Except.map]

theorem forM_eq_ok_iff {check : α → Except ε Unit} {l : List α} :
    l.forM check = .ok () ↔ ∀ a ∈ l, check a = .ok () := by
  induction l with
  | nil => simp
  | cons a rest ih =>
      rw [List.forall_mem_cons, ← ih]
      exact andThen_eq_ok_iff

/-- The first check that fails is the one that counts. -/
theorem forM_eq_error_iff {check : α → Except ε Unit} {l : List α} {err : ε} :
    l.forM check = .error err
      ↔ ∃ front a back, l = front ++ a :: back ∧ (∀ b ∈ front, check b = .ok ())
        ∧ check a = .error err := by
  constructor
  · intro h
    induction l with
    | nil => cases h
    | cons a rest ih =>
        change (check a >>= fun _ => rest.forM check) = .error err at h
        rcases bind_eq_error h with ha | ⟨⟨⟩, ha, hrest⟩
        · exact ⟨[], a, rest, rfl, nofun, ha⟩
        · obtain ⟨front, b, back, rfl, hfront, hb⟩ := ih hrest
          exact ⟨a :: front, b, back, rfl, List.forall_mem_cons.mpr ⟨ha, hfront⟩, hb⟩
  · rintro ⟨front, a, back, rfl, hfront, ha⟩
    induction front with
    | nil =>
        change (check a >>= fun _ => back.forM check) = .error err
        rw [ha, error_bind]
    | cons b front ih =>
        rw [List.forall_mem_cons] at hfront
        change (check b >>= fun _ => (front ++ a :: back).forM check) = .error err
        rw [hfront.1, ok_bind, ih hfront.2]

theorem exists_of_forM_eq_error {check : α → Except ε Unit} {l : List α} {err : ε}
    (h : l.forM check = .error err) : ∃ a ∈ l, check a = .error err := by
  obtain ⟨front, a, back, rfl, -, ha⟩ := forM_eq_error_iff.mp h
  exact ⟨a, by simp, ha⟩

theorem mapM_map_eq_some {read : β → Option γ} {key : α → β} {result : α → γ} {l : List α}
    (h : ∀ a ∈ l, read (key a) = some (result a)) :
    (l.map key).mapM read = some (l.map result) := by
  induction l with
  | nil => rfl
  | cons a rest ih =>
      rw [List.forall_mem_cons] at h
      rw [List.map_cons, List.mapM_cons, h.1, ih h.2]
      rfl

end GameTable
