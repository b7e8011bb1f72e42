import Mathlib.Tactic
import Mathlib.Algebra.BigOperators.Group.Finset.Basic
import Mathlib.Algebra.BigOperators.Ring.Finset

/-!
# Arrays cut into segments

A flat array holds one segment for each part, one after the other: `start`
is the prefix sum of the sizes, `locate` finds the segment of a position.  A
bucket loop sends each item to the next free place of the segment of its
destination; `bucket_spec` says that every segment then holds its items in
their order.  A loop that counts the ends of the segments down fills them from
the back; `BackFilled` is its invariant.
-/

namespace Segments

/-- Where the segment of `part` starts. -/
def start (sizes : Nat → Nat) (part : Nat) : Nat := ∑ q ∈ Finset.range part, sizes q

@[simp] theorem start_zero (sizes : Nat → Nat) : start sizes 0 = 0 := by simp [start]

theorem start_succ (sizes : Nat → Nat) (part : Nat) :
    start sizes (part + 1) = start sizes part + sizes part := Finset.sum_range_succ _ _

theorem start_le {sizes : Nat → Nat} {a b : Nat} (h : a ≤ b) : start sizes a ≤ start sizes b :=
  Finset.sum_le_sum_of_subset (Finset.range_mono h)

theorem start_congr {sizes sizes' : Nat → Nat} {part : Nat}
    (h : ∀ q, q < part → sizes q = sizes' q) : start sizes part = start sizes' part :=
  Finset.sum_congr rfl fun q hq => h q (Finset.mem_range.mp hq)

theorem start_mul (n : Nat) (sizes : Nat → Nat) (part : Nat) :
    start (fun q => n * sizes q) part = n * start sizes part := by
  simp [start, Finset.mul_sum]

/-- A position inside a segment lies before the end of the array. -/
theorem start_add_lt {sizes : Nat → Nat} {n part j : Nat} (hpart : part < n)
    (hj : j < sizes part) : start sizes part + j < start sizes n := by
  have hle : start sizes (part + 1) ≤ start sizes n := start_le hpart
  rw [start_succ] at hle
  omega

/-- Segments do not overlap. -/
theorem start_add_inj {sizes : Nat → Nat} {a b i j : Nat} (hi : i < sizes a) (hj : j < sizes b)
    (h : start sizes a + i = start sizes b + j) : a = b ∧ i = j := by
  rcases lt_trichotomy a b with hlt | rfl | hlt
  · have := start_add_lt hlt hi
    omega
  · exact ⟨rfl, by omega⟩
  · have := start_add_lt hlt hj
    omega

/-- The search for the segment of position `i` among the parts from `part` on. -/
def locateFrom (sizes : Nat → Nat) : Nat → Nat → Nat → Option (Nat × Nat)
  | _, 0, _ => none
  | part, fuel+1, i =>
      if i < sizes part then some (part, i) else locateFrom sizes (part + 1) fuel (i - sizes part)

/-- The segment of position `i` among `n` segments and the place in it. -/
def locate (n : Nat) (sizes : Nat → Nat) (i : Nat) : Option (Nat × Nat) :=
  locateFrom sizes 0 n i

theorem locateFrom_spec (sizes : Nat → Nat) :
    ∀ fuel part i, match locateFrom sizes part fuel i with
      | some (q, j) => q < part + fuel ∧ j < sizes q ∧ start sizes part + i = start sizes q + j
      | none => start sizes (part + fuel) ≤ start sizes part + i := by
  intro fuel
  induction fuel with
  | zero =>
      intro part i
      simp [locateFrom]
  | succ fuel ih =>
      intro part i
      unfold locateFrom
      by_cases hi : i < sizes part
      · rw [if_pos hi]
        exact ⟨by omega, hi, rfl⟩
      · rw [if_neg hi]
        have hnext := ih (part + 1) (i - sizes part)
        have hstart := start_succ sizes part
        split at hnext
        · exact ⟨by omega, hnext.2.1, by omega⟩
        · rw [show part + (fuel + 1) = part + 1 + fuel by omega]
          omega

theorem locate_eq_some {n : Nat} {sizes : Nat → Nat} {i q j : Nat}
    (h : locate n sizes i = some (q, j)) : q < n ∧ j < sizes q ∧ i = start sizes q + j := by
  have hspec := locateFrom_spec sizes n 0 i
  rw [show locateFrom sizes 0 n i = some (q, j) from h] at hspec
  simpa using hspec

/-- A place in a segment is found again. -/
theorem locate_start_add {n : Nat} {sizes : Nat → Nat} {part j : Nat} (hpart : part < n)
    (hj : j < sizes part) : locate n sizes (start sizes part + j) = some (part, j) := by
  have hlt := start_add_lt hpart hj
  have hspec := locateFrom_spec sizes n 0 (start sizes part + j)
  cases hloc : locateFrom sizes 0 n (start sizes part + j) with
  | none =>
      rw [hloc] at hspec
      simp only [Nat.zero_add, start_zero] at hspec
      omega
  | some found =>
      rw [hloc] at hspec
      obtain ⟨_, hj', heq⟩ := hspec
      rw [start_zero, Nat.zero_add] at heq
      obtain ⟨hpart', hplace⟩ := start_add_inj hj hj' heq
      rw [locate, hloc, hpart', hplace]

theorem exists_locate {n : Nat} {sizes : Nat → Nat} {i : Nat} (h : i < start sizes n) :
    ∃ q j, locate n sizes i = some (q, j) := by
  have hspec := locateFrom_spec sizes n 0 i
  cases hloc : locateFrom sizes 0 n i with
  | none =>
      rw [hloc] at hspec
      simp only [Nat.zero_add, start_zero] at hspec
      omega
  | some found => exact ⟨found.1, found.2, hloc⟩

/-- The positions of an array, segment by segment. -/
theorem range_start (sizes : Nat → Nat) (n : Nat) :
    List.range (start sizes n) =
      (List.range n).flatMap fun q => (List.range (sizes q)).map (start sizes q + ·) := by
  induction n with
  | zero => simp
  | succ n ih =>
      rw [start_succ, List.range_add, ih, List.range_succ, List.flatMap_append]
      simp

/-- The positions of one segment. -/
theorem filter_range_start (sizes : Nat → Nat) {n r : Nat} {seg : Nat → Nat} (hr : r < n)
    (hseg : ∀ q j, q < n → j < sizes q → seg (start sizes q + j) = q) :
    (List.range (start sizes n)).filter (fun i => seg i = r) =
      (List.range (sizes r)).map (start sizes r + ·) := by
  have hpiece : ∀ q, q < n →
      ((List.range (sizes q)).map (start sizes q + ·)).filter (fun i => seg i = r) =
        if q = r then (List.range (sizes q)).map (start sizes q + ·) else [] := by
    intro q hq
    split
    · rename_i h
      apply List.filter_eq_self.mpr
      intro i hi
      obtain ⟨j, hj, rfl⟩ := List.mem_map.mp hi
      simpa [h] using hseg q j hq (List.mem_range.mp hj)
    · rename_i h
      apply List.filter_eq_nil_iff.mpr
      intro i hi
      obtain ⟨j, hj, rfl⟩ := List.mem_map.mp hi
      simpa [hseg q j hq (List.mem_range.mp hj)] using h
  have hone : ∀ m, (List.range m).flatMap (fun q =>
      if q = r then (List.range (sizes q)).map (start sizes q + ·) else []) =
        if r < m then (List.range (sizes r)).map (start sizes r + ·) else [] := by
    intro m
    induction m with
    | zero => simp
    | succ m ih =>
        rw [List.range_succ, List.flatMap_append, ih]
        rcases lt_trichotomy r m with h | h | h
        · simp [h, h.ne', Nat.lt_succ_of_lt h]
        · simp [h]
        · simp [h.ne, show ¬ r < m by omega, show ¬ r < m + 1 by omega]
  have hall := hone n
  rw [if_pos hr] at hall
  rw [range_start, List.filter_flatMap, ← hall]
  apply List.flatMap_congr
  intro q hq
  exact hpiece q (List.mem_range.mp hq)

/-! ## Lists joined part by part -/

section Joined

variable {γ : Type} (f : Nat → List γ)

theorem length_flatMap_range (n : Nat) :
    ((List.range n).flatMap f).length = start (fun q => (f q).length) n := by
  induction n with
  | zero => simp
  | succ n ih => simp [List.range_succ, start_succ, ih]

variable {f}

/-- Entry `j` of list `q` in the joined list. -/
theorem getElem?_flatMap_range {n q j : Nat} (hq : q < n) (hj : j < (f q).length) :
    ((List.range n).flatMap f)[start (fun q => (f q).length) q + j]? = (f q)[j]? := by
  induction n with
  | zero => omega
  | succ n ih =>
      rw [List.range_succ, List.flatMap_append]
      by_cases hlast : q = n
      · subst hlast
        rw [List.getElem?_append_right (by rw [length_flatMap_range]; omega),
          length_flatMap_range]
        simp
      · have hq' : q < n := by omega
        rw [List.getElem?_append_left, ih hq']
        rw [length_flatMap_range]
        exact start_add_lt hq' hj

theorem exists_of_getElem?_flatMap_range {n k : Nat} {x : γ}
    (h : ((List.range n).flatMap f)[k]? = some x) :
    ∃ q j, q < n ∧ k = start (fun q => (f q).length) q + j ∧ (f q)[j]? = some x := by
  have hk : k < start (fun q => (f q).length) n := by
    rw [← length_flatMap_range]
    exact (List.getElem?_eq_some_iff.mp h).1
  obtain ⟨q, j, hloc⟩ := exists_locate hk
  obtain ⟨hq, hj, rfl⟩ := locate_eq_some hloc
  rw [getElem?_flatMap_range hq hj] at h
  exact ⟨q, j, hq, rfl, h⟩

end Joined

/-! ## Buckets -/

section Buckets

variable {ι B : Type} (dest : ι → Nat)

/-- The items with destination `part`, in order. -/
def group (items : List ι) (part : Nat) : List ι := items.filter fun i => dest i = part

/-- `size[dest[i]]++` over the items. -/
def tally (items : List ι) (sizes : Nat → Nat) : Nat → Nat :=
  items.foldl (fun c i => Function.update c (dest i) (c (dest i) + 1)) sizes

theorem tally_apply (items : List ι) :
    ∀ (sizes : Nat → Nat) (part : Nat),
      tally dest items sizes part = sizes part + (group dest items part).length := by
  induction items with
  | nil => intro sizes part; simp [tally, group]
  | cons i rest ih =>
      intro sizes part
      change tally dest rest _ part = _
      rw [ih]
      by_cases hi : dest i = part
      · subst hi
        simp [group]
        omega
      · have hpart : part ≠ dest i := fun e => hi e.symm
        simp [group, hi, Function.update_of_ne hpart]

/-- `store(next[dest[i]], i); next[dest[i]]++;` -/
def bucketStep (store : B → Nat → ι → B) (acc : (Nat → Nat) × B) (i : ι) : (Nat → Nat) × B :=
  (Function.update acc.1 (dest i) (acc.1 (dest i) + 1), store acc.2 (acc.1 (dest i)) i)

/-- The state of the bucket loop after the items `done`. -/
structure Filled (Holds : B → Nat → ι → Prop) (sizes : Nat → Nat) (p : Nat) (done : List ι)
    (acc : (Nat → Nat) × B) : Prop where
  next : ∀ part, part < p → acc.1 part = start sizes part + (group dest done part).length
  held : ∀ part, part < p → ∀ (j : Nat) (i : ι), (group dest done part)[j]? = some i →
    Holds acc.2 (start sizes part + j) i

variable {dest}

theorem Filled.step {Holds : B → Nat → ι → Prop} {store : B → Nat → ι → B}
    (hnew : ∀ b k i, Holds (store b k i) k i)
    (hkeep : ∀ b k i k' i', k' ≠ k → Holds b k' i' → Holds (store b k i) k' i')
    {sizes : Nat → Nat} {p : Nat} {done : List ι} {acc : (Nat → Nat) × B} {i : ι}
    (h : Filled dest Holds sizes p done acc) (hi : dest i < p)
    (hroom : ∀ part, part < p → (group dest (done ++ [i]) part).length ≤ sizes part) :
    Filled dest Holds sizes p (done ++ [i]) (bucketStep dest store acc i) := by
  have hself : group dest (done ++ [i]) (dest i) = group dest done (dest i) ++ [i] := by
    simp [group]
  have hother : ∀ part, part ≠ dest i → group dest (done ++ [i]) part = group dest done part := by
    intro part hpart
    have hi' : dest i ≠ part := fun e => hpart e.symm
    simp [group, hi']
  have hlen := hroom (dest i) hi
  rw [hself, List.length_append, List.length_singleton] at hlen
  refine ⟨fun part hpart => ?_, fun part hpart j i' hj => ?_⟩
  · by_cases hp : part = dest i
    · subst hp
      change Function.update acc.1 (dest i) (acc.1 (dest i) + 1) (dest i) = _
      rw [Function.update_self, h.next _ hi, hself, List.length_append, List.length_singleton]
      omega
    · change Function.update acc.1 (dest i) (acc.1 (dest i) + 1) part = _
      rw [Function.update_of_ne hp, hother part hp]
      exact h.next part hpart
  · -- the place written is past all places of the same part and outside the others
    rw [bucketStep, h.next _ hi]
    by_cases hp : part = dest i
    · subst hp
      rw [hself] at hj
      by_cases hlast : j < (group dest done (dest i)).length
      · rw [List.getElem?_append_left hlast] at hj
        exact hkeep _ _ _ _ _ (by omega) (h.held _ hi j i' hj)
      · rw [List.getElem?_append_right (by omega)] at hj
        have hj0 : j = (group dest done (dest i)).length := by
          by_contra hne
          rw [List.getElem?_eq_none (by simp; omega)] at hj
          cases hj
        subst hj0
        simp only [Nat.sub_self, List.getElem?_cons_zero, Option.some.injEq] at hj
        subst hj
        exact hnew _ _ _
    · rw [hother part hp] at hj
      have hjlt : j < (group dest done part).length := (List.getElem?_eq_some_iff.mp hj).1
      have hcap := hroom part hpart
      rw [hother part hp] at hcap
      refine hkeep _ _ _ _ _ (fun e => hp ?_) (h.held part hpart j i' hj)
      exact (start_add_inj (by omega) (by omega) e).1

/-- **The bucket loop** leaves in the segment of every part the items sent
there, in their order. -/
theorem bucket_spec (Holds : B → Nat → ι → Prop) (store : B → Nat → ι → B)
    (hnew : ∀ b k i, Holds (store b k i) k i)
    (hkeep : ∀ b k i k' i', k' ≠ k → Holds b k' i' → Holds (store b k i) k' i')
    {sizes next : Nat → Nat} {p : Nat} {items : List ι} (b : B)
    (hsizes : ∀ part, part < p → sizes part = (group dest items part).length)
    (hnext : ∀ part, part < p → next part = start sizes part)
    (hdest : ∀ i ∈ items, dest i < p) :
    ∀ part, part < p → ∀ (j : Nat) (i : ι), (group dest items part)[j]? = some i →
      Holds (items.foldl (bucketStep dest store) (next, b)).2 (start sizes part + j) i := by
  suffices haux : ∀ (rest done : List ι) (acc : (Nat → Nat) × B), done ++ rest = items →
      Filled dest Holds sizes p done acc →
      Filled dest Holds sizes p items (rest.foldl (bucketStep dest store) acc) by
    refine (haux items [] (next, b) (List.nil_append _) ⟨fun part hpart => ?_, ?_⟩).held
    · simp [group, hnext part hpart]
    · intro part _ j i hj
      simp [group] at hj
  intro rest
  induction rest with
  | nil =>
      intro done acc hsplit h
      rw [List.append_nil] at hsplit
      exact hsplit ▸ h
  | cons i rest ih =>
      intro done acc hsplit h
      have hsplit' : (done ++ [i]) ++ rest = items := by simpa using hsplit
      refine ih (done ++ [i]) _ hsplit' (h.step hnew hkeep (hdest i ?_) fun part hpart => ?_)
      · rw [← hsplit]
        simp
      · rw [hsizes part hpart, ← hsplit', group, group, List.filter_append _ rest,
          List.length_append]
        exact Nat.le_add_right _ _

end Buckets

/-! ## Segments filled from the back -/

section Back

variable {ι α : Type} {dest : ι → Nat} {val : ι → α}

/-- The items with a destination are counted by the segments. -/
theorem start_group_le (items : List ι) (p : Nat) :
    start (fun part => (group dest items part).length) p ≤ items.length := by
  induction items with
  | nil => simp [start, group]
  | cons i rest ih =>
      have hsplit : ∀ part, (group dest (i :: rest) part).length =
          (group dest rest part).length + if dest i = part then 1 else 0 := by
        intro part
        by_cases hi : dest i = part <;> simp [group, hi]
      have hone : (∑ part ∈ Finset.range p, if dest i = part then 1 else 0) ≤ 1 := by
        rw [Finset.sum_ite_eq]
        split <;> omega
      unfold start at ih ⊢
      simp only [hsplit, Finset.sum_add_distrib, List.length_cons]
      exact Nat.add_le_add ih hone

variable (dest val)

/-- The state of a loop `col[--first[dest[i]]] = val[i];` that has stored the
items `done` and has the items `todo` before it: `first` is the place of the
last item stored in a segment. -/
structure BackFilled (p : Nat) (items done todo : List ι) (first : Nat → Nat) (col : Nat → α) :
    Prop where
  split : done ++ todo = items
  next : ∀ part, part < p → first part =
    start (fun q => (group dest items q).length) part + (group dest todo part).length
  held : ∀ part, part < p → (List.range' (first part) (group dest done part).length).map col =
    ((group dest done part).map val).reverse

variable {dest val}

/-- The segments are full at the end, each with its items in reverse. -/
theorem BackFilled.full {p : Nat} {items done : List ι} {first : Nat → Nat} {col : Nat → α}
    (h : BackFilled dest val p items done [] first col) {part : Nat} (hpart : part < p) :
    first part = start (fun q => (group dest items q).length) part ∧
      (List.range' (first part) (group dest items part).length).map col =
        ((group dest items part).map val).reverse := by
  have hsplit := h.split
  rw [List.append_nil] at hsplit
  have hfirst := h.next part hpart
  have hheld := h.held part hpart
  rw [hsplit] at hheld
  exact ⟨hfirst, hheld⟩

/-- One item is stored in its segment and next to the items stored there. -/
theorem BackFilled.step {p : Nat} {items done todo : List ι} {i : ι} {first : Nat → Nat}
    {col : Nat → α} (h : BackFilled dest val p items done (i :: todo) first col)
    (hi : dest i < p) :
    (0 < first (dest i) ∧ first (dest i) ≤ start (fun q => (group dest items q).length) p) ∧
      BackFilled dest val p items (done ++ [i]) todo
        (Function.update first (dest i) (first (dest i) - 1))
        (Function.update col (first (dest i) - 1) (val i)) := by
  set sizes : Nat → Nat := fun q => (group dest items q).length with hsizes
  have htodo : ∀ part, (group dest (i :: todo) part).length =
      (group dest todo part).length + if dest i = part then 1 else 0 := by
    intro part
    by_cases hp : dest i = part <;> simp [group, hp]
  have htotal : ∀ part, sizes part =
      (group dest done part).length + (group dest (i :: todo) part).length := by
    intro part
    simp only [hsizes]
    rw [← h.split, group, group, group, List.filter_append, List.length_append]
  have hfirst : first (dest i) = start sizes (dest i) + (group dest todo (dest i)).length + 1 := by
    have hnext := h.next _ hi
    rw [htodo, if_pos rfl] at hnext
    exact hnext
  have hplace : (group dest todo (dest i)).length < sizes (dest i) := by
    rw [htotal, htodo, if_pos rfl]
    omega
  refine ⟨⟨by omega, ?_⟩, by simpa using h.split, fun part hpart => ?_, fun part hpart => ?_⟩
  · have := start_add_lt hi hplace
    omega
  · by_cases hp : part = dest i
    · rw [hp, Function.update_self]
      change _ = start sizes _ + _
      omega
    · rw [Function.update_of_ne hp, h.next part hpart, htodo, if_neg fun e => hp e.symm]
      rfl
  · by_cases hp : part = dest i
    · subst hp
      have hgroup : group dest (done ++ [i]) (dest i) = group dest done (dest i) ++ [i] := by
        simp [group]
      have hrange : List.range' (first (dest i) - 1) ((group dest done (dest i)).length + 1) =
          (first (dest i) - 1) :: List.range' (first (dest i)) (group dest done (dest i)).length := by
        rw [List.range'_succ, show first (dest i) - 1 + 1 = first (dest i) by omega]
      rw [Function.update_self, hgroup, List.length_append, List.length_singleton, hrange,
        List.map_cons, Function.update_self, List.map_append, List.reverse_append,
        ← h.held _ hi]
      simp only [List.map_cons, List.map_nil, List.reverse_singleton, List.singleton_append,
        List.cons.injEq, true_and]
      apply List.map_congr_left
      intro k hk
      rw [Function.update_of_ne]
      have := (List.mem_range'_1.mp hk).1
      omega
    · have hgroup : group dest (done ++ [i]) part = group dest done part := by
        have hne : ¬ dest i = part := fun e => hp e.symm
        simp [group, hne]
      rw [Function.update_of_ne hp, hgroup, ← h.held part hpart]
      apply List.map_congr_left
      intro k hk
      rw [Function.update_of_ne]
      -- the other segment ends before or starts behind the place stored
      intro heq
      obtain ⟨hge, hlt⟩ := List.mem_range'_1.mp hk
      have hfp := h.next part hpart
      have htp := htotal part
      have hin : k - start sizes part < sizes part := by
        change first part = start sizes part + _ at hfp
        omega
      have hsame : start sizes part + (k - start sizes part) =
          start sizes (dest i) + (group dest todo (dest i)).length := by
        change first part = start sizes part + _ at hfp
        omega
      exact hp (start_add_inj hin hplace hsame).1

end Back

/-! ## Records of several entries -/

section Records

variable {α : Type}

/-- `for (l = 0; l < ldim; l++) buf[l + ldim*k] = record[l];` -/
def storeRecord (ldim : Nat) (record : Nat → α) (k : Nat) (buf : Nat → α) : Nat → α :=
  (List.range ldim).foldl (fun buf l => Function.update buf (l + ldim * k) (record l)) buf

/-- Different records and different entries have different places. -/
theorem record_place_inj {ldim k k' l l' : Nat} (hl : l < ldim) (hl' : l' < ldim)
    (h : l + ldim * k = l' + ldim * k') : k = k' ∧ l = l' := by
  have hk : k = k' := by
    have h1 : (l + ldim * k) / ldim = k := by
      rw [Nat.add_mul_div_left _ _ (by omega), Nat.div_eq_of_lt hl, Nat.zero_add]
    have h2 : (l' + ldim * k') / ldim = k' := by
      rw [Nat.add_mul_div_left _ _ (by omega), Nat.div_eq_of_lt hl', Nat.zero_add]
    rw [← h1, h, h2]
  subst hk
  exact ⟨rfl, by omega⟩

/-- `for (l = 0; l < n; l++) buf[first + l + ldim*k] = record[l];` -/
def storeSpan (ldim first n : Nat) (record : Nat → α) (k : Nat) (buf : Nat → α) : Nat → α :=
  (List.range n).foldl (fun buf l => Function.update buf (first + l + ldim * k) (record l)) buf

theorem storeSpan_apply {ldim first n k k' c : Nat} (record : Nat → α) (buf : Nat → α)
    (hc : c < ldim) (hn : first + n ≤ ldim) :
    storeSpan ldim first n record k buf (c + ldim * k') =
      if k' = k ∧ first ≤ c ∧ c < first + n then record (c - first) else buf (c + ldim * k') := by
  induction n with
  | zero =>
      rw [if_neg (by omega)]
      rfl
  | succ n ih =>
      rw [storeSpan, List.range_succ, List.foldl_append, List.foldl_cons, List.foldl_nil]
      by_cases hplace : c + ldim * k' = first + n + ldim * k
      · obtain ⟨rfl, rfl⟩ := record_place_inj hc (by omega) hplace
        rw [Function.update_self, if_pos (by omega), Nat.add_sub_cancel_left]
      · rw [Function.update_of_ne hplace]
        have hne : ¬ (k' = k ∧ c = first + n) := by
          intro h
          exact hplace (by rw [h.1, h.2])
        refine (ih (by omega)).trans ?_
        by_cases hin : k' = k ∧ first ≤ c ∧ c < first + n
        · rw [if_pos hin, if_pos (by omega)]
        · rw [if_neg hin, if_neg (by omega)]

theorem storeRecord_eq_storeSpan (ldim : Nat) (record : Nat → α) (k : Nat) (buf : Nat → α) :
    storeRecord ldim record k buf = storeSpan ldim 0 ldim record k buf := by
  simp [storeRecord, storeSpan]

theorem storeRecord_apply {ldim k k' l : Nat} (record : Nat → α) (buf : Nat → α) (hl : l < ldim) :
    storeRecord ldim record k buf (l + ldim * k') =
      if k' = k then record l else buf (l + ldim * k') := by
  rw [storeRecord_eq_storeSpan, storeSpan_apply record buf hl (by omega)]
  simp [hl]

end Records

end Segments
