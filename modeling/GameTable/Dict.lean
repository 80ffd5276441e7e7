/-!
# Dictionaries in key order

Entities, loops, metadata and parameters are all kept by name, and everything that is printed or
hashed lists them in the order of their names. `Entries` holds the operations on bare lists of
named entries; documents and formula values, which contain themselves, store such lists directly.
`Dict` is a list whose keys strictly increase, so two dictionaries with the same look-ups are
equal (`Dict.ext_get?`).

Insertion is a single pass that replaces the entry it meets. That is why the look-up laws
`Entries.get?_insert_self` and `Entries.get?_insert_of_ne` hold of every list, sorted or not.
-/

namespace GameTable

universe u v

namespace Entries

variable {α : Type u} {β : Type v}

/-- The value of the first entry named `k`. -/
def get? (l : List (String × α)) (k : String) : Option α :=
  match l with
  | [] => none
  | (k', a) :: rest => if k' = k then some a else get? rest k

/-- Puts an entry before the first entry with a larger name, replacing an equal one. -/
def insert (l : List (String × α)) (k : String) (a : α) : List (String × α) :=
  match l with
  | [] => [(k, a)]
  | (k', a') :: rest =>
    if k < k' then (k, a) :: (k', a') :: rest
    else if k = k' then (k, a) :: rest
    else (k', a') :: insert rest k a

/-- Removes every entry named `k`. -/
def erase (l : List (String × α)) (k : String) : List (String × α) :=
  l.filter fun e => e.1 != k

/-- The entries in key order; of two entries with one name the later counts. -/
def ofList (l : List (String × α)) : List (String × α) :=
  l.foldl (fun acc e => insert acc e.1 e.2) []

/-- The names strictly increase. -/
def Sorted (l : List (String × α)) : Prop :=
  l.Pairwise fun a b => a.1 < b.1

theorem get?_insert_self (l : List (String × α)) (k : String) (a : α) :
    get? (insert l k a) k = some a := by
  induction l with
  | nil => simp [insert, get?]
  | cons e rest ih =>
    obtain ⟨k', a'⟩ := e
    rw [insert]
    split
    · simp [get?]
    · split
      · simp [get?]
      · rename_i h
        simp [get?, Ne.symm h, ih]

theorem get?_insert_of_ne (l : List (String × α)) {k q : String} (a : α) (h : k ≠ q) :
    get? (insert l k a) q = get? l q := by
  induction l with
  | nil => simp [insert, get?, h]
  | cons e rest ih =>
    obtain ⟨k', a'⟩ := e
    rw [insert]
    split
    · simp [get?, h]
    · split
      · rename_i h'
        subst h'
        simp [get?, h]
      · simp [get?, ih]

theorem get?_erase_self (l : List (String × α)) (k : String) : get? (erase l k) k = none := by
  induction l with
  | nil => rfl
  | cons e rest ih =>
    obtain ⟨k', a'⟩ := e
    by_cases h : k' = k
    · simpa [erase, List.filter, h] using ih
    · have : (k' != k) = true := by simp [h]
      simp only [erase, List.filter, this, get?, h, if_false]
      exact ih

theorem get?_erase_of_ne (l : List (String × α)) {k q : String} (h : k ≠ q) :
    get? (erase l k) q = get? l q := by
  induction l with
  | nil => rfl
  | cons e rest ih =>
    obtain ⟨k', a'⟩ := e
    by_cases hk : k' = k
    · subst hk
      simpa [erase, List.filter, get?, h] using ih
    · have : (k' != k) = true := by simp [hk]
      simp only [erase, List.filter, this, get?]
      split
      · rfl
      · exact ih

theorem mem_insert {l : List (String × α)} {k : String} {a : α} {e : String × α}
    (h : e ∈ insert l k a) : e = (k, a) ∨ e ∈ l := by
  induction l with
  | nil => simpa [insert] using h
  | cons e' rest ih =>
    obtain ⟨k', a'⟩ := e'
    rw [insert] at h
    split at h
    · simpa using h
    · split at h
      · rcases List.mem_cons.1 h with h | h
        · exact .inl h
        · exact .inr (List.mem_cons_of_mem _ h)
      · rcases List.mem_cons.1 h with h | h
        · exact .inr (h ▸ List.mem_cons_self ..)
        · exact (ih h).imp id (List.mem_cons_of_mem _)

theorem sorted_nil : Sorted ([] : List (String × α)) := .nil

theorem Sorted.insert {l : List (String × α)} (h : Sorted l) (k : String) (a : α) :
    Sorted (Entries.insert l k a) := by
  induction l with
  | nil => simp [Entries.insert, Sorted]
  | cons e rest ih =>
    obtain ⟨k', a'⟩ := e
    have hrest := List.pairwise_cons.1 h
    rw [Entries.insert]
    split
    · rename_i hlt
      refine List.pairwise_cons.2 ⟨fun b hb => ?_, h⟩
      rcases List.mem_cons.1 hb with rfl | hb
      · exact hlt
      · exact String.lt_trans hlt (hrest.1 b hb)
    · split
      · rename_i heq
        subst heq
        exact List.pairwise_cons.2 ⟨hrest.1, hrest.2⟩
      · rename_i hlt hne
        refine List.pairwise_cons.2 ⟨fun b hb => ?_, ih hrest.2⟩
        rcases mem_insert hb with rfl | hb
        · exact String.not_le.1 fun hle => hne (String.le_antisymm hle (String.not_lt.1 hlt))
        · exact hrest.1 b hb

theorem Sorted.erase {l : List (String × α)} (h : Sorted l) (k : String) :
    Sorted (Entries.erase l k) :=
  List.Pairwise.filter _ h

theorem Sorted.ofList (l : List (String × α)) : Sorted (Entries.ofList l) := by
  suffices ∀ (l acc : List (String × α)), Sorted acc →
      Sorted (l.foldl (fun acc e => Entries.insert acc e.1 e.2) acc) from this l [] sorted_nil
  intro l
  induction l with
  | nil => exact fun _ h => h
  | cons e rest ih => exact fun acc h => ih _ (h.insert e.1 e.2)

theorem Sorted.map {l : List (String × α)} (h : Sorted l) (f : String → α → β) :
    Sorted (l.map fun e => (e.1, f e.1 e.2)) :=
  List.pairwise_map.2 h

theorem get?_eq_none_of_lt {l : List (String × α)} {k : String}
    (h : ∀ e ∈ l, k < e.1) : get? l k = none := by
  induction l with
  | nil => rfl
  | cons e rest ih =>
    obtain ⟨k', a⟩ := e
    have hlt : k < k' := h (k', a) (List.mem_cons_self ..)
    have hne : k' ≠ k := fun heq => String.lt_irrefl k (by rw [heq] at hlt; exact hlt)
    simp only [get?, hne, if_false]
    exact ih fun e he => h e (List.mem_cons_of_mem _ he)

/-- Two sorted lists with the same look-ups are the same list. -/
theorem eq_of_get?_eq {l m : List (String × α)} (hl : Sorted l) (hm : Sorted m)
    (h : ∀ k, get? l k = get? m k) : l = m := by
  induction l generalizing m with
  | nil =>
    cases m with
    | nil => rfl
    | cons e rest => simpa [get?] using h e.1
  | cons e rest ih =>
    obtain ⟨k, a⟩ := e
    cases m with
    | nil => simpa [get?] using h k
    | cons e' rest' =>
      obtain ⟨k', a'⟩ := e'
      obtain ⟨hl1, hl2⟩ := List.pairwise_cons.1 hl
      obtain ⟨hm1, hm2⟩ := List.pairwise_cons.1 hm
      have hkk : k = k' := by
        by_cases hlt : k < k'
        · have := h k
          rw [get?_eq_none_of_lt (l := (k', a') :: rest') (k := k)] at this
          · simp [get?] at this
          · intro e he
            rcases List.mem_cons.1 he with rfl | he
            · exact hlt
            · exact String.lt_trans hlt (hm1 e he)
        · by_cases hgt : k' < k
          · have := h k'
            rw [get?_eq_none_of_lt (l := (k, a) :: rest) (k := k')] at this
            · simp [get?] at this
            · intro e he
              rcases List.mem_cons.1 he with rfl | he
              · exact hgt
              · exact String.lt_trans hgt (hl1 e he)
          · exact String.le_antisymm (String.not_lt.1 hgt) (String.not_lt.1 hlt)
      subst hkk
      have haa : a = a' := by simpa [get?] using h k
      subst haa
      have : rest = rest' := by
        refine ih hl2 hm2 fun q => ?_
        by_cases hq : k = q
        · subst hq
          rw [get?_eq_none_of_lt hl1, get?_eq_none_of_lt hm1]
        · simpa [get?, hq] using h q
      rw [this]

end Entries

/-- Values kept by name, in the order of their names. -/
structure Dict (α : Type u) where
  entries : List (String × α)
  sorted : Entries.Sorted entries

namespace Dict

variable {α : Type u} {β : Type v}

theorem ext {d e : Dict α} (h : d.entries = e.entries) : d = e := by
  cases d; cases e; cases h; rfl

instance [DecidableEq α] : DecidableEq (Dict α) := fun d e =>
  decidable_of_iff (d.entries = e.entries) ⟨ext, fun h => h ▸ rfl⟩

def empty : Dict α := ⟨[], Entries.sorted_nil⟩

instance : EmptyCollection (Dict α) := ⟨empty⟩
instance : Inhabited (Dict α) := ⟨∅⟩

def get? (d : Dict α) (k : String) : Option α := Entries.get? d.entries k

def contains (d : Dict α) (k : String) : Bool := (d.get? k).isSome

def insert (d : Dict α) (k : String) (a : α) : Dict α :=
  ⟨Entries.insert d.entries k a, d.sorted.insert k a⟩

def erase (d : Dict α) (k : String) : Dict α :=
  ⟨Entries.erase d.entries k, d.sorted.erase k⟩

/-- Of two entries with one name the later counts. -/
def ofList (l : List (String × α)) : Dict α :=
  ⟨Entries.ofList l, Entries.Sorted.ofList l⟩

def toList (d : Dict α) : List (String × α) := d.entries

def keys (d : Dict α) : List String := d.entries.map (·.1)

def values (d : Dict α) : List α := d.entries.map (·.2)

def size (d : Dict α) : Nat := d.entries.length

def isEmpty (d : Dict α) : Bool := d.entries.isEmpty

/-- Applies a function to every value and keeps the names. -/
def map (f : α → β) (d : Dict α) : Dict β :=
  ⟨d.entries.map fun e => (e.1, f e.2), d.sorted.map fun _ => f⟩

@[simp] theorem get?_insert_self (d : Dict α) (k : String) (a : α) :
    (d.insert k a).get? k = some a :=
  Entries.get?_insert_self ..

theorem get?_insert_of_ne (d : Dict α) {k q : String} (a : α) (h : k ≠ q) :
    (d.insert k a).get? q = d.get? q :=
  Entries.get?_insert_of_ne _ a h

theorem get?_insert (d : Dict α) (k q : String) (a : α) :
    (d.insert k a).get? q = if k = q then some a else d.get? q := by
  split
  · rename_i h; subst h; exact get?_insert_self ..
  · rename_i h; exact get?_insert_of_ne _ a h

@[simp] theorem get?_erase_self (d : Dict α) (k : String) : (d.erase k).get? k = none :=
  Entries.get?_erase_self ..

theorem get?_erase_of_ne (d : Dict α) {k q : String} (h : k ≠ q) :
    (d.erase k).get? q = d.get? q :=
  Entries.get?_erase_of_ne _ h

@[simp] theorem get?_empty (k : String) : (∅ : Dict α).get? k = none := rfl

/-- A dictionary is determined by its look-ups. -/
theorem ext_get? {d e : Dict α} (h : ∀ k, d.get? k = e.get? k) : d = e :=
  ext (Entries.eq_of_get?_eq d.sorted e.sorted h)

end Dict

end GameTable
