import GameTable.Proofs.Formula.Evaluation
import GameTable.Proofs.Formula.Parsing

/-!
# How tall a tree may get

The parser counts two things to keep trees low: the expressions and signs that
are nested, and the operators and selections that wait for what is behind them.
What it counts bounds a tree in two ways. Of the levels on one path down the
tree, so many nest at most as there is depth for, and as many links at most as
may wait are left for what was read behind them.

It does not bound the links on a path that are left for what was read before
them. A chain gives its links back when it ends, and then a chain of looser
operators may begin on top of it: there are five levels of operators and the
selections, which makes six chains for each level of nesting
(`grammar_room`).

The bounds are the same argument three times, so it is made for any way to count
the levels (`Gauge`, `Expr.measure`). That there are no better ones is not shown
here, but by formulas that reach them.
-/

namespace GameTable.Formula

/-! ## Counting the levels of a path -/

/-- What a level counts on a path down a tree: one that nests, a link on the way to what was read
before it, and a link on the way to what was read behind it. -/
structure Gauge where
  nest : Nat
  left : Nat
  right : Nat

namespace Expr

mutual

/-- The most that the levels of one path down the tree add up to. -/
def measure (g : Gauge) : Expr → Nat
  | .literal _ | .ident _ => g.nest
  | .list items => measureItems g items + g.nest
  | .map entries => measureEntries g entries + g.nest
  | .call _ args => measureItems g args + g.nest
  | .unary _ operand => operand.measure g + g.nest
  | .conditional cond yes no =>
    max (cond.measure g) (max (yes.measure g) (no.measure g)) + g.nest
  | .member target _ => target.measure g + g.left
  | .index target position => max (target.measure g + g.left) (position.measure g + g.right)
  | .method target _ args => max (target.measure g + g.left) (measureItems g args + g.right)
  | .comprehension target _ _ body => max (target.measure g + g.left) (body.measure g + g.right)
  | .binary _ lhs rhs => max (lhs.measure g + g.left) (rhs.measure g + g.right)

def measureItems (g : Gauge) : List Expr → Nat
  | [] => 0
  | e :: rest => max (e.measure g) (measureItems g rest)

def measureEntries (g : Gauge) : List (Expr × Expr) → Nat
  | [] => 0
  | (k, v) :: rest => max (max (k.measure g) (v.measure g)) (measureEntries g rest)

end

/-- The most levels on one path that nest. -/
def nesting (e : Expr) : Nat := e.measure ⟨1, 0, 0⟩

/-- The most links on one path. -/
def links (e : Expr) : Nat := e.measure ⟨0, 1, 1⟩

/-- The most links on one path that are left for what was read behind them. -/
def pending (e : Expr) : Nat := e.measure ⟨0, 0, 1⟩

theorem measureItems_le_iff {g : Gauge} {n : Nat} {items : List Expr} :
    measureItems g items ≤ n ↔ ∀ e ∈ items, e.measure g ≤ n := by
  induction items with
  | nil => simp [measureItems]
  | cons e rest ih => rw [measureItems, Nat.max_le, ih, List.forall_mem_cons]

theorem measureEntries_le_iff {g : Gauge} {n : Nat} {entries : List (Expr × Expr)} :
    measureEntries g entries ≤ n
      ↔ ∀ entry ∈ entries, entry.1.measure g ≤ n ∧ entry.2.measure g ≤ n := by
  induction entries with
  | nil => simp [measureEntries]
  | cons entry rest ih =>
      rw [measureEntries, Nat.max_le, Nat.max_le, ih, List.forall_mem_cons]

mutual

theorem height_eq_measure : ∀ e : Expr, e.height = e.measure ⟨1, 1, 1⟩
  | .literal _ | .ident _ => rfl
  | .list items => by rw [height, measure, heightItems_eq_measure]
  | .map entries => by rw [height, measure, heightEntries_eq_measure]
  | .call _ args => by rw [height, measure, heightItems_eq_measure]
  | .unary _ operand => by rw [height, measure, height_eq_measure operand]
  | .conditional cond yes no => by
      rw [height, measure, height_eq_measure cond, height_eq_measure yes, height_eq_measure no]
  | .member target _ => by rw [height, measure, height_eq_measure target]
  | .index target position => by
      rw [height, measure, height_eq_measure target, height_eq_measure position,
        Nat.add_max_add_right]
  | .method target _ args => by
      rw [height, measure, height_eq_measure target, heightItems_eq_measure,
        Nat.add_max_add_right]
  | .comprehension target _ _ body => by
      rw [height, measure, height_eq_measure target, height_eq_measure body,
        Nat.add_max_add_right]
  | .binary _ lhs rhs => by
      rw [height, measure, height_eq_measure lhs, height_eq_measure rhs, Nat.add_max_add_right]

theorem heightItems_eq_measure : ∀ items, heightItems items = measureItems ⟨1, 1, 1⟩ items
  | [] => rfl
  | e :: rest => by
      rw [heightItems, measureItems, height_eq_measure e, heightItems_eq_measure rest]

theorem heightEntries_eq_measure :
    ∀ entries, heightEntries entries = measureEntries ⟨1, 1, 1⟩ entries
  | [] => rfl
  | (k, v) :: rest => by
      rw [heightEntries, measureEntries, height_eq_measure k, height_eq_measure v,
        heightEntries_eq_measure rest]

end

mutual

/-- Counting two ways at once comes to no more than counting each way by itself. -/
theorem measure_add_le (g h : Gauge) :
    ∀ e : Expr, e.measure ⟨g.nest + h.nest, g.left + h.left, g.right + h.right⟩
      ≤ e.measure g + e.measure h
  | .literal _ | .ident _ => Nat.le_refl _
  | .list items | .call _ items => by
      have hitems := measureItems_add_le g h items
      simp only [measure]
      omega
  | .map entries => by
      have hentries := measureEntries_add_le g h entries
      simp only [measure]
      omega
  | .member e _ | .unary _ e => by
      have he := measure_add_le g h e
      simp only [measure]
      omega
  | .index a b | .comprehension a _ _ b | .binary _ a b => by
      have ha := measure_add_le g h a
      have hb := measure_add_le g h b
      simp only [measure]
      omega
  | .method target _ args => by
      have htarget := measure_add_le g h target
      have hargs := measureItems_add_le g h args
      simp only [measure]
      omega
  | .conditional cond yes no => by
      have hcond := measure_add_le g h cond
      have hyes := measure_add_le g h yes
      have hno := measure_add_le g h no
      simp only [measure]
      omega

theorem measureItems_add_le (g h : Gauge) :
    ∀ items, measureItems ⟨g.nest + h.nest, g.left + h.left, g.right + h.right⟩ items
      ≤ measureItems g items + measureItems h items
  | [] => Nat.le_refl _
  | e :: rest => by
      have he := measure_add_le g h e
      have hrest := measureItems_add_le g h rest
      simp only [measureItems]
      omega

theorem measureEntries_add_le (g h : Gauge) :
    ∀ entries, measureEntries ⟨g.nest + h.nest, g.left + h.left, g.right + h.right⟩ entries
      ≤ measureEntries g entries + measureEntries h entries
  | [] => Nat.le_refl _
  | (k, v) :: rest => by
      have hk := measure_add_le g h k
      have hv := measure_add_le g h v
      have hrest := measureEntries_add_le g h rest
      simp only [measureEntries]
      omega

end

/-- Every level of a path nests or is a link. -/
theorem height_le (e : Expr) : e.height ≤ e.nesting + e.links := by
  rw [height_eq_measure]
  exact measure_add_le ⟨1, 0, 0⟩ ⟨0, 1, 1⟩ e

/-! ## Going down a tree

To check or to evaluate an expression is to go on with its parts, so the calls that wait for one
another are a way down the tree. The longest has an expression of each level. -/

theorem heightItems_flatMap (entries : List (Expr × Expr)) :
    heightItems (entries.flatMap fun (key, value) => [key, value]) = heightEntries entries := by
  induction entries with
  | nil => rfl
  | cons entry rest ih =>
      rw [List.flatMap_cons, heightEntries, ← ih, Nat.max_assoc]
      rfl

/-- A tree is one level higher than the highest of its parts. -/
theorem height_eq_parts (e : Expr) : e.height = heightItems e.parts + 1 := by
  cases e with
  | map entries => rw [height, parts, heightItems_flatMap]
  | _ => simp [height, parts, heightItems]

theorem height_pos (e : Expr) : 0 < e.height := by
  rw [height_eq_parts]
  exact Nat.succ_pos _

theorem height_le_heightItems {e : Expr} {items : List Expr} (h : e ∈ items) :
    e.height ≤ heightItems items := by
  induction h with
  | head => exact Nat.le_max_left ..
  | tail _ _ ih => exact Nat.le_trans ih (Nat.le_max_right ..)

theorem exists_mem_height_eq {items : List Expr} (h : items ≠ []) :
    ∃ e ∈ items, e.height = heightItems items := by
  induction items with
  | nil => exact absurd rfl h
  | cons e rest ih =>
      rw [heightItems]
      rcases Nat.le_total (heightItems rest) e.height with hle | hle
      · exact ⟨e, List.mem_cons_self .., (Nat.max_eq_left hle).symm⟩
      · have hrest : rest ≠ [] := by
          rintro rfl
          exact absurd e.height_pos (Nat.not_lt.mpr hle)
        obtain ⟨highest, hmem, hheight⟩ := ih hrest
        exact ⟨highest, List.mem_cons_of_mem _ hmem, hheight.trans (Nat.max_eq_right hle).symm⟩

/-- A way down a tree, from an expression to one of its parts each time. -/
def Descends (path : List Expr) : Prop := path.IsChain fun e part => part ∈ e.parts

theorem length_le_height {e : Expr} {path : List Expr} (h : Descends (e :: path)) :
    (e :: path).length ≤ e.height := by
  induction path generalizing e with
  | nil => exact e.height_pos
  | cons part path ih =>
      obtain ⟨hpart, hpath⟩ := List.isChain_cons_cons.mp h
      have hlower := height_le_heightItems hpart
      rw [height_eq_parts, List.length_cons]
      exact Nat.succ_le_succ (Nat.le_trans (ih hpath) hlower)

/-- Some way down passes as many expressions as the tree is high. -/
theorem exists_descends (e : Expr) :
    ∃ path, Descends (e :: path) ∧ (e :: path).length = e.height := by
  induction e using induction_on_parts with
  | h e ih =>
      rw [height_eq_parts]
      by_cases hparts : e.parts = []
      · exact ⟨[], .singleton e, by rw [hparts]; rfl⟩
      · obtain ⟨part, hpart, hheight⟩ := exists_mem_height_eq hparts
        obtain ⟨path, hpath, hlength⟩ := ih part hpart
        refine ⟨part :: path, List.isChain_cons_cons.mpr ⟨hpart, hpath⟩, ?_⟩
        rw [List.length_cons, hlength, hheight]

end Expr

/-! ## What a parser reads -/

/-- Whatever is read has a property. -/
def Reads {α : Type} (P : α → Prop) (p : Parse α) : Prop :=
  ∀ ⦃c a c'⦄, p c = .ok (a, c') → P a

section

variable {α β : Type} {P : β → Prop}

theorem Reads.pure {b : β} (h : P b) : Reads P (pure b : Parse β) := by
  intro c b' c' hread
  obtain ⟨rfl, -⟩ := Prod.mk.inj (Except.ok.inj hread)
  exact h

theorem Reads.bind {Q : α → Prop} {p : Parse α} {next : α → Parse β} (h : Reads Q p)
    (hnext : ∀ a, Q a → Reads P (next a)) : Reads P (p >>= next) := by
  intro c b c' hread
  obtain ⟨a, mid, ha, hb⟩ := Parse.bind_eq_ok hread
  exact hnext a (h ha) hb

theorem Reads.andThen {p : Parse α} {next : α → Parse β} (hnext : ∀ a, Reads P (next a)) :
    Reads P (p >>= next) :=
  Reads.bind (Q := fun _ => True) (fun _ _ _ _ => trivial) fun a _ => hnext a

theorem reads_failHere (fault : Fault) : Reads P (failHere fault) := fun _ _ _ h => by cases h

theorem reads_tooDeep (limit : Nat) : Reads P (tooDeep limit) := fun _ _ _ h => by cases h

theorem Reads.sequenceRest {item : Parse β} (hitem : Reads P item) (close : Token) (fuel : Nat)
    {items : List β} (hitems : ∀ b ∈ items, P b) :
    Reads (fun bs => ∀ b ∈ bs, P b) (sequenceRest item close fuel items) := by
  induction fuel generalizing items with
  | zero => exact .pure hitems
  | succ fuel ih =>
      refine hitem.bind fun b hb => ?_
      have hmore : ∀ b' ∈ items ++ [b], P b' :=
        List.forall_mem_append.mpr ⟨hitems, List.forall_mem_singleton.mpr hb⟩
      refine .andThen fun closed => ?_
      cases closed with
      | true => exact .pure hmore
      | false =>
          refine .andThen fun _ => .andThen fun closed => ?_
          cases closed with
          | true => exact .pure hmore
          | false => exact ih hmore

theorem Reads.parseSequence {item : Parse β} (hitem : Reads P item) (close : Token) :
    Reads (fun bs => ∀ b ∈ bs, P b) (parseSequence item close) := by
  refine .andThen fun closed => ?_
  cases closed with
  | true => exact .pure fun b hb => by cases hb
  | false => exact fun c bs c' h => (hitem.sequenceRest close _ fun b hb => by cases hb) h

end

/-! ## One level of nesting -/

section Levels

variable (g : Gauge)

/-- What is read with some links left is within a bound. -/
def Bounded (bound : Nat → Nat) (p : Nat → Parse Expr) : Prop :=
  ∀ links, Reads (fun e => e.measure g ≤ bound links) (p links)

/-- A bound with room for a link that is left for what is read behind it, with one link less. -/
def Steady (bound : Nat → Nat) : Prop :=
  ∀ links, bound links + g.right ≤ bound (links + 1) + g.left

variable {g}

theorem Steady.add_links {bound : Nat → Nat} (h : Steady g bound) :
    Steady g fun links => bound links + links * g.left := by
  intro links
  have hlinks := h links
  simp only [Nat.succ_mul]
  omega

theorem chainRest_measure {op? : Token → Option BinaryOp} {next : Nat → Parse Expr}
    {bound : Nat → Nat} (hnext : Bounded g bound next) (hbound : Steady g bound) {links n : Nat}
    {lhs : Expr} (hlhs : lhs.measure g ≤ n) :
    Reads (fun e => e.measure g ≤ max n (bound links) + links * g.left)
      (chainRest op? next links lhs) := by
  induction links generalizing lhs n with
  | zero =>
      rw [chainRest]
      refine .andThen fun t => ?_
      cases op? t with
      | none => exact .pure (by omega)
      | some op => exact .andThen fun _ => reads_tooDeep _
  | succ links ih =>
      rw [chainRest]
      refine .andThen fun t => ?_
      cases op? t with
      | none => exact .pure (by omega)
      | some op =>
          refine .andThen fun _ => (hnext links).bind fun rhs hrhs => ?_
          have hlink : (Expr.binary op lhs rhs).measure g
              ≤ max (n + g.left) (bound links + g.right) := by
            simp only [Expr.measure]
            omega
          intro c e c' hread
          have hmeasure := ih hlink hread
          have hlinks := hbound links
          simp only [Nat.succ_mul] at hmeasure ⊢
          omega

theorem Bounded.chain {next : Nat → Parse Expr} {bound : Nat → Nat} (hnext : Bounded g bound next)
    (op? : Token → Option BinaryOp) (hbound : Steady g bound) :
    Bounded g (fun links => bound links + links * g.left) (chain op? next) := by
  intro links
  refine (hnext links).bind fun lhs hlhs => ?_
  have hrest : Reads (fun e => e.measure g ≤ max (bound links) (bound links) + links * g.left)
      (chainRest op? next links lhs) := chainRest_measure hnext hbound hlhs
  rwa [Nat.max_self] at hrest

/-- The five levels of operators, one on top of the other. -/
theorem Bounded.disjunction {operand : Nat → Parse Expr} {bound : Nat → Nat}
    (h : Bounded g bound operand) (hbound : Steady g bound) :
    Bounded g (fun links => bound links + 5 * (links * g.left)) (disjunction operand) := by
  have hproduct := h.chain productOp? hbound
  have hsum := hproduct.chain sumOp? hbound.add_links
  have hrelation := hsum.chain relationOp? hbound.add_links.add_links
  have hand := hrelation.chain andOp? hbound.add_links.add_links.add_links
  have hor := hand.chain orOp? hbound.add_links.add_links.add_links.add_links
  intro links c e c' hread
  have hmeasure := hor links hread
  dsimp only at hmeasure ⊢
  omega

/-- A whole conditional is read only if there is depth for its last branch. -/
theorem conditional_measure {operand deeper : Nat → Parse Expr} {bound inner : Nat → Nat}
    (hoperand : Bounded g bound operand) (hbound : Steady g bound)
    (hdeeper : Bounded g inner deeper) (links : Nat) :
    Reads (fun e => e.measure g ≤ bound links + 5 * (links * g.left)
        ∨ (∃ c no c', deeper links c = .ok (no, c'))
          ∧ e.measure g
            ≤ max (bound links + 5 * (links * g.left)) (inner links) + g.nest)
      (conditional operand deeper links) := by
  have hchain := hoperand.disjunction hbound links
  refine hchain.bind fun cond hcond => .andThen fun asked => ?_
  cases asked with
  | false => exact .pure (.inl hcond)
  | true =>
      refine hchain.bind fun yes hyes => .andThen fun _ => ?_
      refine Reads.bind (Q := fun no => (∃ c no c', deeper links c = .ok (no, c'))
        ∧ no.measure g ≤ inner links) (fun c no c' h => ⟨⟨c, no, c', h⟩, hdeeper links h⟩) ?_
      rintro no ⟨hread, hno⟩
      refine .pure (.inr ⟨hread, ?_⟩)
      dsimp only at hcond hyes
      simp only [Expr.measure]
      omega

/-! ## Operands -/

section Operands

variable {expression : Nat → Parse Expr} {bound : Nat → Nat}

theorem primary_measure (h : Bounded g bound expression) (links : Nat) :
    Reads (fun e => e.measure g ≤ bound links + g.nest) (primary expression links) := by
  have hitems (close : Token) :
      Reads (fun items => Expr.measureItems g items ≤ bound links)
        (parseSequence (expression links) close) :=
    fun c items c' hread => Expr.measureItems_le_iff.mpr ((h links).parseSequence close hread)
  refine .andThen fun t => ?_
  cases t with
  | int | double | str | true | false | null => exact .pure (Nat.le_add_left ..)
  | ident name =>
      refine .andThen fun called => ?_
      cases called with
      | false => exact .pure (Nat.le_add_left ..)
      | true => exact (hitems _).bind fun args hargs => .pure (Nat.add_le_add_right hargs _)
  | lParen =>
      refine (h links).bind fun inner hinner => .andThen fun _ => .pure ?_
      exact Nat.le_add_right_of_le hinner
  | lBracket => exact (hitems _).bind fun items hitems => .pure (Nat.add_le_add_right hitems _)
  | lBrace =>
      have hentry : Reads (fun entry : Expr × Expr =>
          entry.1.measure g ≤ bound links ∧ entry.2.measure g ≤ bound links)
          (entryOf expression links) :=
        (h links).bind fun key hkey => .andThen fun _ =>
          (h links).bind fun value hvalue => .pure ⟨hkey, hvalue⟩
      refine (hentry.parseSequence _).bind fun entries hentries => .pure ?_
      exact Nat.add_le_add_right (Expr.measureEntries_le_iff.mpr hentries) _
  | _ => exact reads_failHere _

theorem methodCall_measure {target : Expr} {name : String} {args : List Expr} {n m : Nat}
    (htarget : target.measure g ≤ n) (hargs : ∀ e ∈ args, e.measure g ≤ m) :
    Reads (fun e => e.measure g ≤ max (n + g.left) (m + g.right))
      (methodCall target name args) := by
  rw [methodCall]
  split
  · refine .pure ?_
    have hitems := Expr.measureItems_le_iff.mpr hargs
    simp only [Expr.measure]
    omega
  · split
    · rename_i var body
      refine .pure ?_
      have hbody := hargs body (by simp)
      simp only [Expr.measure]
      omega
    · exact reads_failHere _
    · exact reads_failHere _

theorem selections_measure (h : Bounded g bound expression) (hbound : Steady g bound)
    {links n : Nat} {e : Expr} (he : e.measure g ≤ n) :
    Reads (fun e => e.measure g ≤ max n (bound links) + links * g.left)
      (selections expression links e) := by
  induction links generalizing e n with
  | zero =>
      rw [selections]
      refine .andThen fun dot => ?_
      cases dot with
      | true => exact reads_tooDeep _
      | false =>
          refine .andThen fun bracket => ?_
          cases bracket with
          | true => exact reads_tooDeep _
          | false => exact .pure (by omega)
  | succ links ih =>
      have hgo {e' : Expr} (he' : e'.measure g ≤ max (n + g.left) (bound links + g.right)) :
          Reads (fun e => e.measure g
              ≤ max n (bound (links + 1)) + (links + 1) * g.left)
            (selections expression links e') := by
        intro c e'' c' hread
        have hmeasure := ih he' hread
        have hlinks := hbound links
        simp only [Nat.succ_mul] at hmeasure ⊢
        omega
      rw [selections]
      refine .andThen fun dot => ?_
      cases dot with
      | true =>
          refine .andThen fun t => ?_
          cases t with
          | ident name =>
              refine .andThen fun called => ?_
              cases called with
              | true =>
                  refine ((h links).parseSequence _).bind fun args hargs => ?_
                  exact (methodCall_measure he hargs).bind fun e' he' => hgo he'
              | false =>
                  refine hgo ?_
                  simp only [Expr.measure]
                  omega
          | _ => exact reads_failHere _
      | false =>
          refine .andThen fun bracket => ?_
          cases bracket with
          | true =>
              refine (h links).bind fun position hposition => .andThen fun _ => hgo ?_
              simp only [Expr.measure]
              omega
          | false => exact .pure (by omega)

theorem applySign_measure (op : UnaryOp) (e : Expr) :
    (applySign op e).measure g ≤ e.measure g + g.nest := by
  rw [applySign.eq_def]
  split <;> simp [Expr.measure]

theorem signed_measure {deeper : Nat → Parse Expr} {inner : Nat → Nat}
    (hdeeper : Bounded g inner deeper) (h : Bounded g bound expression) (hbound : Steady g bound) :
    Bounded g (fun links => max (inner links) (bound links + links * g.left) + g.nest)
      (signed deeper expression) := by
  intro links
  refine .andThen fun t => ?_
  cases signOp? t with
  | some op =>
      refine .andThen fun _ => (hdeeper links).bind fun e he => .pure ?_
      have hsign := applySign_measure (g := g) op e
      dsimp only
      omega
  | none =>
      refine (primary_measure h links).bind fun e he => ?_
      intro c e' c' hread
      have hmeasure := selections_measure h hbound he hread
      dsimp only
      omega

end Operands

end Levels

/-! ## All levels of nesting -/

section Room

variable (g : Gauge)

/-- So many levels that nest, and so many chains of the links that are left. -/
def Gauge.room (levels chains links : Nat) : Nat :=
  levels * g.nest + chains * (links * g.left) + links * (g.right - g.left)

theorem Gauge.room_add_nest (levels chains links : Nat) :
    g.room levels chains links + g.nest = g.room (levels + 1) chains links := by
  simp only [room, Nat.succ_mul]
  omega

theorem Gauge.room_add_chains (levels chains more links : Nat) :
    g.room levels chains links + more * (links * g.left)
      = g.room levels (chains + more) links := by
  simp only [room, Nat.add_mul]
  omega

theorem Gauge.room_mono {levels levels' chains chains' : Nat} (hlevels : levels ≤ levels')
    (hchains : chains ≤ chains') (links : Nat) :
    g.room levels chains links ≤ g.room levels' chains' links := by
  have hnest := Nat.mul_le_mul_right g.nest hlevels
  have hleft := Nat.mul_le_mul_right (links * g.left) hchains
  simp only [room]
  omega

theorem Gauge.steady_room (levels chains : Nat) : Steady g (g.room levels chains) := by
  intro links
  have hmono : chains * (links * g.left) ≤ chains * ((links + 1) * g.left) :=
    Nat.mul_le_mul_left chains (Nat.mul_le_mul_right g.left (Nat.le_succ links))
  simp only [room, Nat.succ_mul] at hmono ⊢
  omega

variable {g}

theorem Bounded.mono {bound more : Nat → Nat} {p : Nat → Parse Expr} (h : Bounded g bound p)
    (hle : ∀ links, bound links ≤ more links) : Bounded g more p :=
  fun links _ _ _ hread => Nat.le_trans (h links hread) (hle links)

theorem bounded_tooDeep (bound : Nat → Nat) (limit : Nat) :
    Bounded g bound fun _ => tooDeep limit := fun _ => reads_tooDeep limit

variable {operand deeper expression : Nat → Parse Expr} {levels chains : Nat}

theorem signed_room (hdeeper : Bounded g (g.room levels chains) deeper)
    (h : Bounded g (g.room levels chains) expression) :
    Bounded g (g.room (levels + 1) (chains + 1)) (signed deeper expression) := by
  refine (signed_measure hdeeper h (g.steady_room levels chains)).mono fun links => Nat.le_of_eq ?_
  have hdeep := g.room_mono (Nat.le_refl levels) (Nat.le_add_right chains 1) links
  have hchain := g.room_add_chains levels chains 1 links
  rw [Nat.one_mul] at hchain
  rw [hchain, Nat.max_eq_right hdeep, g.room_add_nest]

theorem conditional_room (hoperand : Bounded g (g.room levels chains) operand)
    (hdeeper : Bounded g (g.room levels chains) deeper) :
    Bounded g (g.room (levels + 1) (chains + 5)) (conditional operand deeper) := by
  intro links c e c' hread
  have hmeasure := conditional_measure hoperand (g.steady_room levels chains) hdeeper links hread
  have hdeep := g.room_mono (Nat.le_refl levels) (Nat.le_add_right chains 5) links
  rw [g.room_add_chains, Nat.max_eq_left hdeep, g.room_add_nest] at hmeasure
  rcases hmeasure with hplain | ⟨-, hwhole⟩
  · exact Nat.le_trans hplain (g.room_mono (Nat.le_add_right levels 1) (Nat.le_refl _) links)
  · exact hwhole

/-- Without any depth for its last branch there is no conditional. -/
theorem conditional_room_of_refused (hoperand : Bounded g (g.room levels chains) operand)
    (limit : Nat) :
    Bounded g (g.room levels (chains + 5)) (conditional operand fun _ => tooDeep limit) := by
  intro links c e c' hread
  have hmeasure := conditional_measure hoperand (g.steady_room levels chains)
    (bounded_tooDeep (g.room levels chains) limit) links hread
  rw [g.room_add_chains] at hmeasure
  rcases hmeasure with hplain | ⟨⟨_, _, _, hrefused⟩, -⟩
  · exact hplain
  · cases hrefused

/-- With some depth left there are two levels for each nesting, but one for the last, and six
chains for each: the selections and the five levels of operators. -/
theorem grammar_room (depth : Nat) :
    Bounded g (g.room (2 * depth + 1) (6 * depth + 6)) (grammar (depth + 1)).expression
      ∧ Bounded g (g.room (2 * depth + 2) (6 * depth + 7)) (grammar (depth + 1)).operand := by
  induction depth with
  | zero =>
      have hinner : Bounded g (g.room 1 1) (grammar 0).operand :=
        signed_room (bounded_tooDeep _ _) (bounded_tooDeep _ _)
      have hexpression : Bounded g (g.room 1 6) (grammar 1).expression :=
        conditional_room_of_refused hinner maxDepth
      have hdeeper := hinner.mono (g.room_mono (Nat.le_refl 1) (Nat.le_add_left 1 5))
      exact ⟨hexpression, signed_room hdeeper hexpression⟩
  | succ depth ih =>
      obtain ⟨hdeeper, hinner⟩ := ih
      have hexpression :
          Bounded g (g.room (2 * depth + 3) (6 * depth + 12)) (grammar (depth + 2)).expression :=
        conditional_room hinner (hdeeper.mono (g.room_mono (by omega) (by omega)))
      have hdeeper := hinner.mono
        (g.room_mono (Nat.le_succ (2 * depth + 2)) (Nat.le_add_right (6 * depth + 7) 5))
      exact ⟨hexpression, signed_room hdeeper hexpression⟩

end Room

/-! ## Formulas that are read -/

theorem measure_le_of_parse {tokens : List Lexeme} {e : Expr} (h : parse tokens = .ok e)
    (g : Gauge) : e.measure g ≤ g.room (2 * maxDepth - 1) (6 * maxDepth) maxLinks := by
  obtain ⟨⟨e', c⟩, hread, h⟩ := bind_eq_ok_iff.mp h
  have he : e' = e := by
    dsimp only at h
    split at h
    · exact Except.ok.inj h
    · cases h
  rw [← he]
  exact (grammar_room 63).1 maxLinks hread

theorem measure_le_of_compile {source : String} {program : Program}
    (h : Program.compile source = .ok program) (g : Gauge) :
    program.expr.measure g ≤ g.room (2 * maxDepth - 1) (6 * maxDepth) maxLinks := by
  obtain ⟨tokens, -, h⟩ := bind_eq_ok_iff.mp h
  obtain ⟨expr, hparse, h⟩ := bind_eq_ok_iff.mp h
  obtain ⟨-, h⟩ := andThen_eq_ok_iff.mp h
  obtain rfl := Except.ok.inj h
  exact measure_le_of_parse hparse g

end GameTable.Formula
