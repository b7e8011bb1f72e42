import Mathlib.Tactic

/-!
# Trees of balls

A binary tree of entries, each with a place and a reach, in which every node
knows a radius around its own place that encloses the balls of all entries
below it.  A query that leaves out the subtrees whose enclosing ball is too far
is then as good as one that reads every entry; nothing is assumed of the shape
of the tree.
-/

namespace Balls

/-- A distance that obeys the triangle inequality. -/
structure Metric (P R : Type) [Add R] [LE R] where
  dist : P → P → R
  comm : ∀ a b, dist a b = dist b a
  triangle : ∀ a b c, dist a c ≤ dist a b + dist b c

/-- A binary tree of entries; `ball` is the radius kept at a node for all the
entries below it. -/
inductive BallTree (E R : Type)
  | tip
  | node (entry : E) (ball : R) (left right : BallTree E R)

variable {E P R : Type}

/-- The entries, a node before its children. -/
def BallTree.entries : BallTree E R → List E
  | .tip => []
  | .node e _ left right => e :: (left.entries ++ right.entries)

/-- The number of entries. -/
def BallTree.size : BallTree E R → Nat
  | .tip => 0
  | .node _ _ left right => left.size + right.size + 1

@[simp] theorem BallTree.entries_length (t : BallTree E R) : t.entries.length = t.size := by
  induction t with
  | tip => rfl
  | node e ball left right ihl ihr => simp [entries, size, ihl, ihr]

variable [CommRing R] [LinearOrder R] (m : Metric P R) (place : E → P) (reach : E → R)

/-- The node of one entry. -/
def BallTree.single (c : E) : BallTree E R := .node c 0 .tip .tip

/-- A new entry widens the ball of every node it passes and comes to rest at
the first free child; between two children it follows the nearer one. -/
def BallTree.insert (c : E) : BallTree E R → BallTree E R
  | .tip => .single c
  | .node e ball left right =>
      let ball := max ball (m.dist (place c) (place e) + reach c)
      match left, right with
      | .tip, right => .node e ball (.single c) right
      | left, .tip => .node e ball left (.single c)
      | .node l bl ll lr, .node r br rl rr =>
          if m.dist (place c) (place l) < m.dist (place c) (place r) then
            .node e ball (insert c (.node l bl ll lr)) (.node r br rl rr)
          else .node e ball (.node l bl ll lr) (insert c (.node r br rl rr))

/-- The ball of each node encloses the balls of the entries below it. -/
def BallTree.Covers : BallTree E R → Prop
  | .tip => True
  | .node e ball left right =>
      (∀ c ∈ left.entries ++ right.entries, m.dist (place c) (place e) + reach c ≤ ball) ∧
        left.Covers ∧ right.Covers

theorem BallTree.entries_insert (c : E) (t : BallTree E R) :
    (t.insert m place reach c).entries.Perm (c :: t.entries) := by
  induction t with
  | tip => simp [insert, single, entries]
  | node e ball left right ihl ihr =>
      cases left with
      | tip => simpa [insert, single, entries] using List.Perm.swap c e right.entries
      | node l bl ll lr =>
          cases right with
          | tip =>
              simp only [insert, single, entries, List.append_nil]
              refine List.Perm.trans (List.Perm.cons e ?_) (List.Perm.swap c e _)
              exact List.perm_append_singleton c _
          | node r br rl rr =>
              simp only [insert]
              split_ifs with hnear
              · simp only [entries]
                refine List.Perm.trans (List.Perm.cons e ?_) (List.Perm.swap c e _)
                exact ihl.append_right _
              · simp only [entries]
                refine List.Perm.trans (List.Perm.cons e ?_) (List.Perm.swap c e _)
                exact (ihr.append_left _).trans List.perm_middle

theorem BallTree.mem_insert {c a : E} {t : BallTree E R} :
    a ∈ (t.insert m place reach c).entries ↔ a = c ∨ a ∈ t.entries := by
  rw [(entries_insert m place reach c t).mem_iff, List.mem_cons]

/-- Only the places and reaches of the entries matter. -/
theorem BallTree.Covers.congr {place' : E → P} {reach' : E → R} {t : BallTree E R}
    (h : t.Covers m place reach) (hsame : ∀ e ∈ t.entries, place' e = place e ∧ reach' e = reach e) :
    t.Covers m place' reach' := by
  induction t with
  | tip => trivial
  | node e ball left right ihl ihr =>
      obtain ⟨hball, hleft, hright⟩ := h
      have hbelow : ∀ c ∈ left.entries ++ right.entries, place' c = place c ∧ reach' c = reach c :=
        fun c hc => hsame c (List.mem_cons_of_mem e hc)
      refine ⟨fun c hc => ?_, ihl hleft fun c hc => hbelow c (List.mem_append_left _ hc),
        ihr hright fun c hc => hbelow c (List.mem_append_right _ hc)⟩
      rw [(hbelow c hc).1, (hbelow c hc).2, (hsame e List.mem_cons_self).1]
      exact hball c hc

theorem BallTree.covers_single (c : E) : (single c : BallTree E R).Covers m place reach := by
  simp [single, Covers, entries]

/-- **An insertion keeps every ball wide enough.** -/
theorem BallTree.Covers.insert {t : BallTree E R} (h : t.Covers m place reach) (c : E) :
    (t.insert m place reach c).Covers m place reach := by
  induction t with
  | tip => exact covers_single m place reach c
  | node e ball left right ihl ihr =>
      obtain ⟨hball, hleft, hright⟩ := h
      have hwide : ∀ a, a = c ∨ a ∈ left.entries ++ right.entries →
          m.dist (place a) (place e) + reach a ≤
            max ball (m.dist (place c) (place e) + reach c) := by
        rintro a (rfl | ha)
        · exact le_max_right _ _
        · exact le_max_of_le_left (hball a ha)
      cases left with
      | tip =>
          refine ⟨fun a ha => hwide a ?_, covers_single m place reach c, hright⟩
          simpa [single, entries] using ha
      | node l bl ll lr =>
          cases right with
          | tip =>
              refine ⟨fun a ha => hwide a ?_, hleft, covers_single m place reach c⟩
              simp only [single, entries, List.append_nil, List.mem_append,
                List.mem_singleton] at ha ⊢
              exact ha.symm
          | node r br rl rr =>
              simp only [BallTree.insert]
              split_ifs with hnear
              · refine ⟨fun a ha => hwide a ?_, ihl hleft, hright⟩
                rw [List.mem_append, mem_insert] at ha
                rw [List.mem_append]
                exact or_assoc.mp ha
              · refine ⟨fun a ha => hwide a ?_, hleft, ihr hright⟩
                rw [List.mem_append, mem_insert] at ha
                rw [List.mem_append]
                exact or_left_comm.mp ha

/-! ## Queries -/

/-- The entries whose ball meets the ball of radius `radius` about `q`. -/
def BallTree.gather (q : P) (radius : R) : BallTree E R → List E
  | .tip => []
  | .node e ball left right =>
      (if m.dist q (place e) ≤ reach e + radius then [e] else []) ++
        if m.dist q (place e) - radius ≤ ball then left.gather q radius ++ right.gather q radius
        else []

/-- The distance from `q` within which some ball is sure to lie whole. -/
def BallTree.trim (q : P) : BallTree E R → R → R
  | .tip, bound => bound
  | .node e ball left right, bound =>
      let bound :=
        if m.dist q (place e) + reach e < bound then m.dist q (place e) + reach e else bound
      if m.dist q (place e) - ball < bound then right.trim q (left.trim q bound) else bound

/-- The least `value` of an entry, read only where the ball of the entry comes
close enough. -/
def BallTree.nearest (q : P) (value : E → R) : BallTree E R → R → R
  | .tip, bound => bound
  | .node e ball left right, bound =>
      let bound := if m.dist q (place e) - reach e ≤ bound then min bound (value e) else bound
      if m.dist q (place e) - ball ≤ bound then
        right.nearest q value (left.nearest q value bound)
      else bound

/-- The least of `bound` and the values on a list. -/
def leastOf (value : E → R) (entries : List E) (bound : R) : R :=
  entries.foldl (fun b e => min b (value e)) bound

omit [CommRing R] in
theorem leastOf_of_le {value : E → R} {entries : List E} {bound : R}
    (h : ∀ e ∈ entries, bound ≤ value e) : leastOf value entries bound = bound := by
  induction entries with
  | nil => rfl
  | cons e rest ih =>
      have hhead : min bound (value e) = bound := min_eq_left (h e List.mem_cons_self)
      rw [leastOf, List.foldl_cons, hhead]
      exact ih fun a ha => h a (List.mem_cons_of_mem e ha)

omit [CommRing R] in
/-- The least value is a lower bound and it is attained. -/
theorem leastOf_isLeast (value : E → R) (entries : List E) (bound : R) :
    IsLeast {r | r = bound ∨ ∃ e ∈ entries, r = value e} (leastOf value entries bound) := by
  induction entries generalizing bound with
  | nil =>
      refine ⟨Or.inl rfl, ?_⟩
      rintro r (rfl | ⟨e, he, -⟩)
      · exact le_refl _
      · exact absurd he List.not_mem_nil
  | cons e rest ih =>
      obtain ⟨hmem, hlow⟩ := ih (min bound (value e))
      change IsLeast _ (leastOf value rest (min bound (value e)))
      have hmin := hlow (Or.inl rfl)
      constructor
      · rcases hmem with hmem | ⟨a, ha, hval⟩
        · rcases min_choice bound (value e) with hb | hv
          · exact Or.inl (hmem.trans hb)
          · exact Or.inr ⟨e, List.mem_cons_self, hmem.trans hv⟩
        · exact Or.inr ⟨a, List.mem_cons_of_mem e ha, hval⟩
      · rintro r (rfl | ⟨a, ha, rfl⟩)
        · exact hmin.trans (min_le_left _ _)
        · rcases List.mem_cons.mp ha with rfl | ha
          · exact hmin.trans (min_le_right _ _)
          · exact hlow (Or.inr ⟨a, ha, rfl⟩)

variable {m place reach} [IsStrictOrderedRing R]

/-- **Pruning is safe.**  An entry below a node is no closer than the distance
of the node less its ball. -/
theorem BallTree.Covers.far {e c : E} {ball : R} {left right : BallTree E R}
    (h : (BallTree.node e ball left right).Covers m place reach)
    (hc : c ∈ left.entries ++ right.entries) (q : P) :
    m.dist q (place e) - ball ≤ m.dist q (place c) - reach c := by
  have htri := m.triangle q (place c) (place e)
  have hball := h.1 c hc
  linarith

/-- A gather lists exactly the entries in reach, each as often as it was put
into the tree. -/
theorem BallTree.Covers.gather_eq {t : BallTree E R} (h : t.Covers m place reach) (q : P)
    (radius : R) :
    t.gather m place reach q radius =
      t.entries.filter fun e => m.dist q (place e) ≤ reach e + radius := by
  induction t with
  | tip => rfl
  | node e ball left right ihl ihr =>
      have hbelow : (if m.dist q (place e) - radius ≤ ball then
            left.gather m place reach q radius ++ right.gather m place reach q radius else []) =
          (left.entries ++ right.entries).filter fun e =>
            m.dist q (place e) ≤ reach e + radius := by
        by_cases hnear : m.dist q (place e) - radius ≤ ball
        · rw [if_pos hnear, ihl h.2.1, ihr h.2.2, List.filter_append]
        · rw [if_neg hnear, eq_comm, List.filter_eq_nil_iff]
          intro c hc
          have hfar := h.far hc q
          simp only [decide_eq_true_eq, not_le]
          linarith [not_le.mp hnear]
      rw [gather, hbelow, entries, List.filter_cons]
      by_cases hin : m.dist q (place e) ≤ reach e + radius
      · simp [hin]
      · simp [hin]

/-- The trimmed radius is the least distance to the far side of a ball. -/
theorem BallTree.Covers.trim_eq {t : BallTree E R} (h : t.Covers m place reach) (q : P)
    (hreach : ∀ e ∈ t.entries, 0 ≤ reach e) (bound : R) :
    t.trim m place reach q bound =
      leastOf (fun e => m.dist q (place e) + reach e) t.entries bound := by
  induction t generalizing bound with
  | tip => rfl
  | node e ball left right ihl ihr =>
      have hhead : (if m.dist q (place e) + reach e < bound then m.dist q (place e) + reach e
          else bound) = min bound (m.dist q (place e) + reach e) := by
        rw [min_comm, min_def_lt]
      have hsub : ∀ c ∈ left.entries ++ right.entries, 0 ≤ reach c :=
        fun c hc => hreach c (List.mem_cons_of_mem e hc)
      simp only [trim, hhead]
      set bound' := min bound (m.dist q (place e) + reach e) with hbound'
      have hsplit : leastOf (fun e => m.dist q (place e) + reach e)
          (node e ball left right).entries bound =
          leastOf (fun e => m.dist q (place e) + reach e) right.entries
            (leastOf (fun e => m.dist q (place e) + reach e) left.entries bound') := by
        simp only [leastOf, entries, List.foldl_cons, List.foldl_append, ← hbound']
      rw [hsplit]
      by_cases hnear : m.dist q (place e) - ball < bound'
      · rw [if_pos hnear, ihl h.2.1 (fun c hc => hsub c (List.mem_append_left _ hc)),
          ihr h.2.2 (fun c hc => hsub c (List.mem_append_right _ hc))]
      · have hfar : ∀ c ∈ left.entries ++ right.entries,
            bound' ≤ m.dist q (place c) + reach c := by
          intro c hc
          linarith [h.far hc q, hsub c hc, not_lt.mp hnear]
        rw [if_neg hnear, leastOf_of_le (fun c hc => hfar c (List.mem_append_left _ hc)),
          leastOf_of_le (fun c hc => hfar c (List.mem_append_right _ hc))]

/-- The search for the nearest value skips no entry that could lower it. -/
theorem BallTree.Covers.nearest_eq {t : BallTree E R} (h : t.Covers m place reach) (q : P)
    (value : E → R) (hvalue : ∀ e ∈ t.entries, m.dist q (place e) - reach e ≤ value e)
    (bound : R) :
    t.nearest m place reach q value bound = leastOf value t.entries bound := by
  induction t generalizing bound with
  | tip => rfl
  | node e ball left right ihl ihr =>
      have hhead : (if m.dist q (place e) - reach e ≤ bound then min bound (value e)
          else bound) = min bound (value e) := by
        split_ifs with hin
        · rfl
        · have hv := hvalue e List.mem_cons_self
          exact (min_eq_left (by linarith [not_le.mp hin])).symm
      have hsub : ∀ c ∈ left.entries ++ right.entries,
          m.dist q (place c) - reach c ≤ value c :=
        fun c hc => hvalue c (List.mem_cons_of_mem e hc)
      simp only [nearest, hhead]
      set bound' := min bound (value e) with hbound'
      have hsplit : leastOf value (node e ball left right).entries bound =
          leastOf value right.entries (leastOf value left.entries bound') := by
        simp only [leastOf, entries, List.foldl_cons, List.foldl_append, ← hbound']
      rw [hsplit]
      by_cases hnear : m.dist q (place e) - ball ≤ bound'
      · rw [if_pos hnear, ihl h.2.1 (fun c hc => hsub c (List.mem_append_left _ hc)),
          ihr h.2.2 (fun c hc => hsub c (List.mem_append_right _ hc))]
      · have hfar : ∀ c ∈ left.entries ++ right.entries, bound' ≤ value c := by
          intro c hc
          linarith [h.far hc q, hsub c hc, not_le.mp hnear]
        rw [if_neg hnear, leastOf_of_le (fun c hc => hfar c (List.mem_append_left _ hc)),
          leastOf_of_le (fun c hc => hfar c (List.mem_append_right _ hc))]

end Balls
