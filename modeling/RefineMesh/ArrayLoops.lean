import Mathlib.Tactic

/-!
# Loops over arrays held as functions

An array is a function from positions to entries; a store of one entry is
`Function.update`.  The loops here are the hand-written shifts of a sorted
array and the fallible loop over a list, each with the rule that says what it
leaves behind.
-/

namespace ArrayLoop

variable {α β ε : Type}

/-- `for (k = last; k > hole; k--) a[k] = a[k-1];` -/
def shiftDown (hole : Nat) : Nat → (Nat → α) → (Nat → α)
  | 0, a => a
  | k+1, a =>
      if hole < k + 1 then shiftDown hole k (Function.update a (k + 1) (a k)) else a

theorem shiftDown_apply (hole : Nat) :
    ∀ last (a : Nat → α) i,
      shiftDown hole last a i = if hole < i ∧ i ≤ last then a (i - 1) else a i := by
  intro last
  induction last with
  | zero =>
      intro a i
      rw [shiftDown, if_neg (by omega)]
  | succ k ih =>
      intro a i
      by_cases hk : hole < k + 1
      · rw [shiftDown, if_pos hk, ih]
        by_cases hi : i = k + 1
        · subst hi
          simp [hk]
        · by_cases hin : hole < i ∧ i ≤ k
          · rw [if_pos hin, if_pos (by omega), Function.update_of_ne (by omega)]
          · rw [if_neg hin, if_neg (by omega), Function.update_of_ne hi]
      · rw [shiftDown, if_neg hk, if_neg (by omega)]

/-- The array after a shift that opened `hole` and a store into it. -/
theorem update_shiftDown_apply (hole last : Nat) (a : Nat → α) (x : α) (i : Nat) (hi : i ≤ last) :
    Function.update (shiftDown hole last a) hole x i =
      if i < hole then a i else if i = hole then x else a (i - 1) := by
  rcases lt_trichotomy i hole with h | rfl | h
  · rw [Function.update_of_ne (by omega), shiftDown_apply, if_neg (by omega), if_pos h]
  · simp
  · rw [Function.update_of_ne (by omega), shiftDown_apply, if_pos ⟨h, hi⟩, if_neg (by omega),
      if_neg (by omega)]

/-- `for (k = hole; k < hole + len; k++) a[k] = a[k+1];` -/
def shiftUp : Nat → Nat → (Nat → α) → (Nat → α)
  | 0, _, a => a
  | len+1, hole, a => shiftUp len (hole + 1) (Function.update a hole (a (hole + 1)))

theorem shiftUp_apply :
    ∀ len hole (a : Nat → α) i,
      shiftUp len hole a i = if hole ≤ i ∧ i < hole + len then a (i + 1) else a i := by
  intro len
  induction len with
  | zero =>
      intro hole a i
      rw [shiftUp, if_neg (by omega)]
  | succ len ih =>
      intro hole a i
      rw [shiftUp, ih]
      by_cases hi : i = hole
      · subst hi
        simp
      · by_cases hin : hole + 1 ≤ i ∧ i < hole + 1 + len
        · rw [if_pos hin, if_pos (by omega), Function.update_of_ne (by omega)]
        · rw [if_neg hin, if_neg (by omega), Function.update_of_ne hi]

/-- The first `n - 1` entries after the shift that closed the gap at `hole`. -/
theorem shiftUp_gap {n hole i : Nat} (a : Nat → α) (hhole : hole < n) (hi : i < n - 1) :
    shiftUp (n - 1 - hole) hole a i = if hole ≤ i then a (i + 1) else a i := by
  rw [shiftUp_apply, show hole + (n - 1 - hole) = n - 1 by omega]
  simp [hi]

/-- The rule for a fallible loop over a list: an invariant indexed by the part
already done and the part still to do. -/
theorem foldlM_inv {f : β → α → Except ε β} (P : List α → List α → β → Prop)
    (hstep : ∀ done a rest b b', P done (a :: rest) b → f b a = .ok b' → P (done ++ [a]) rest b')
    {l : List α} {b b' : β} (h0 : P [] l b) (hrun : l.foldlM f b = .ok b') : P l [] b' := by
  suffices haux : ∀ (rest done : List α) (b : β), P done rest b →
      rest.foldlM f b = .ok b' → P (done ++ rest) [] b' by
    simpa using haux l [] b h0 hrun
  intro rest
  induction rest with
  | nil =>
      intro done b hP hrun
      simp only [List.foldlM_nil, pure, Except.pure, Except.ok.injEq] at hrun
      subst hrun
      simpa using hP
  | cons a rest ih =>
      intro done b hP hrun
      rw [List.foldlM_cons] at hrun
      cases hfa : f b a with
      | error e => simp [hfa, bind, Except.bind] at hrun
      | ok b1 =>
          simp only [hfa, bind, Except.bind] at hrun
          simpa using ih (done ++ [a]) b1 (hstep done a rest b b1 hP hfa) hrun

/-- A loop over the lists of a list is a loop in a loop. -/
theorem foldlM_flatMap {γ : Type} (f : β → α → Except ε β) (g : γ → List α) (l : List γ) (b : β) :
    (l.flatMap g).foldlM f b = l.foldlM (fun b c => (g c).foldlM f b) b := by
  induction l generalizing b with
  | nil => rfl
  | cons c rest ih =>
      rw [List.flatMap_cons, List.foldlM_append, List.foldlM_cons]
      congr 1
      funext b'
      exact ih b'

/-- The rule for a plain loop over a list. -/
theorem foldl_inv {f : β → α → β} (P : List α → List α → β → Prop)
    (hstep : ∀ done a rest b, P done (a :: rest) b → P (done ++ [a]) rest (f b a))
    {l : List α} {b : β} (h0 : P [] l b) : P l [] (l.foldl f b) := by
  suffices haux : ∀ (rest done : List α) (b : β), P done rest b →
      P (done ++ rest) [] (rest.foldl f b) by
    simpa using haux l [] b h0
  intro rest
  induction rest with
  | nil => intro done b hP; simpa using hP
  | cons a rest ih =>
      intro done b hP
      simpa using ih (done ++ [a]) (f b a) (hstep done a rest b hP)

/-- A loop whose steps cannot fail. -/
theorem foldlM_ok {f : β → α → Except ε β} {g : β → α → β} {l : List α}
    (h : ∀ a ∈ l, ∀ b, f b a = .ok (g b a)) (b : β) : l.foldlM f b = .ok (l.foldl g b) := by
  induction l generalizing b with
  | nil => rfl
  | cons a rest ih =>
      rw [List.foldlM_cons, h a List.mem_cons_self b]
      exact ih (fun a' ha' => h a' (List.mem_cons_of_mem a ha')) (g b a)

/-- The rule for a loop that succeeds because each of its steps does under the
invariant. -/
theorem foldlM_exists {f : β → α → Except ε β} (P : List α → List α → β → Prop)
    (hstep : ∀ done a rest b, P done (a :: rest) b →
      ∃ b', f b a = .ok b' ∧ P (done ++ [a]) rest b')
    {l : List α} {b : β} (h0 : P [] l b) : ∃ b', l.foldlM f b = .ok b' ∧ P l [] b' := by
  suffices haux : ∀ (rest done : List α) (b : β), P done rest b →
      ∃ b', rest.foldlM f b = .ok b' ∧ P (done ++ rest) [] b' by
    simpa using haux l [] b h0
  intro rest
  induction rest with
  | nil =>
      intro done b hP
      exact ⟨b, rfl, by simpa using hP⟩
  | cons a rest ih =>
      intro done b hP
      obtain ⟨b1, hrun, hP1⟩ := hstep done a rest b hP
      obtain ⟨b2, hrest, hP2⟩ := ih (done ++ [a]) b1 hP1
      refine ⟨b2, ?_, by simpa using hP2⟩
      rw [List.foldlM_cons, hrun]
      exact hrest

/-- The rule for a loop each of whose steps succeeds under the invariant or
fails for the reason `Q`. -/
theorem foldlM_exists_or {f : β → α → Except ε β} {e : ε} {Q : Prop}
    (P : List α → List α → β → Prop)
    (hstep : ∀ done a rest b, P done (a :: rest) b →
      (∃ b', f b a = .ok b' ∧ P (done ++ [a]) rest b') ∨ f b a = .error e ∧ Q)
    {l : List α} {b : β} (h0 : P [] l b) :
    (∃ b', l.foldlM f b = .ok b' ∧ P l [] b') ∨ l.foldlM f b = .error e ∧ Q := by
  suffices haux : ∀ (rest done : List α) (b : β), P done rest b →
      (∃ b', rest.foldlM f b = .ok b' ∧ P (done ++ rest) [] b') ∨
        rest.foldlM f b = .error e ∧ Q by
    simpa using haux l [] b h0
  intro rest
  induction rest with
  | nil =>
      intro done b hP
      exact Or.inl ⟨b, rfl, by simpa using hP⟩
  | cons a rest ih =>
      intro done b hP
      rw [List.foldlM_cons]
      rcases hstep done a rest b hP with ⟨b1, hrun, hP1⟩ | ⟨hrun, hQ⟩
      · rw [hrun]
        have hrest := ih (done ++ [a]) b1 hP1
        rw [List.append_assoc, List.singleton_append] at hrest
        exact hrest
      · rw [hrun]
        exact Or.inr ⟨rfl, hQ⟩

/-- A loop with a step that always fails. -/
theorem foldlM_error {f : β → α → Except ε β} {l : List α} {a : α} (ha : a ∈ l)
    (h : ∀ b, ∃ e, f b a = .error e) (b : β) : ∃ e, l.foldlM f b = .error e := by
  induction l generalizing b with
  | nil => cases ha
  | cons a' rest ih =>
      rw [List.foldlM_cons]
      cases hstep : f b a' with
      | error e => exact ⟨e, rfl⟩
      | ok b' =>
          rcases List.mem_cons.mp ha with rfl | hrest
          · obtain ⟨e, he⟩ := h b
            rw [hstep] at he
            cases he
          · exact ih hrest b'

/-- Each step of a loop that succeeds has succeeded once. -/
theorem exists_of_foldlM_ok {f : β → α → Except ε β} {l : List α} {a : α} (ha : a ∈ l) {b b' : β}
    (hrun : l.foldlM f b = .ok b') : ∃ b1 b2, f b1 a = .ok b2 := by
  by_contra hnone
  obtain ⟨e, he⟩ := foldlM_error (f := f) ha (fun b1 => by
    cases hstep : f b1 a with
    | error e => exact ⟨e, rfl⟩
    | ok b2 => exact absurd ⟨b1, b2, hstep⟩ hnone) b
  rw [he] at hrun
  cases hrun

/-- A loop that fails does so in one of its steps. -/
theorem exists_mem_of_foldlM_error {f : β → α → Except ε β} {l : List α} {b : β} {e : ε}
    (h : l.foldlM f b = .error e) : ∃ b' a, a ∈ l ∧ f b' a = .error e := by
  induction l generalizing b with
  | nil => simp [pure, Except.pure] at h
  | cons a rest ih =>
      rw [List.foldlM_cons] at h
      cases hstep : f b a with
      | error e' =>
          rw [hstep] at h
          exact ⟨b, a, List.mem_cons_self, hstep.trans h⟩
      | ok b' =>
          rw [hstep] at h
          obtain ⟨b'', a', ha', hfail⟩ := ih h
          exact ⟨b'', a', List.mem_cons_of_mem a ha', hfail⟩

theorem exists_of_foldlM_error {f : β → α → Except ε β} {l : List α} {b : β} {e : ε}
    (h : l.foldlM f b = .error e) : ∃ b' a, f b' a = .error e := by
  obtain ⟨b', a, _, hfail⟩ := exists_mem_of_foldlM_error h
  exact ⟨b', a, hfail⟩

/-- What one step of a loop establishes and the others keep. -/
theorem foldl_establish {f : β → α → β} {l : List α} {a : α} {Q : β → Prop} (ha : a ∈ l)
    (hset : ∀ b, Q (f b a)) (hkeep : ∀ a' ∈ l, a' ≠ a → ∀ b, Q b → Q (f b a')) (b : β) :
    Q (l.foldl f b) := by
  induction l generalizing b with
  | nil => cases ha
  | cons a' rest ih =>
      rw [List.foldl_cons]
      by_cases hrest : a ∈ rest
      · exact ih hrest (fun x hx => hkeep x (List.mem_cons_of_mem a' hx)) _
      · have hhead : a = a' := (List.mem_cons.mp ha).resolve_right hrest
        subst hhead
        apply List.foldlRecOn rest f (hset b)
        intro b' hb' x hx
        have hne : x ≠ a := by
          intro e
          exact hrest (e ▸ hx)
        exact hkeep x (List.mem_cons_of_mem a hx) hne b' hb'

/-- A loop that lowers entries leaves in each the least of what it met. -/
theorem foldl_min [LinearOrder β] (slot : α → Nat) (b : α → β) (l : List α)
    (d : Nat → β) (e : Nat) :
    IsLeast (insert (d e) {v | ∃ k ∈ l, slot k = e ∧ b k = v})
      (l.foldl (fun d k => Function.update d (slot k) (min (b k) (d (slot k)))) d e) := by
  induction l generalizing d with
  | nil => simp
  | cons k rest ih =>
      have hrest := ih (Function.update d (slot k) (min (b k) (d (slot k))))
      rw [List.foldl_cons]
      by_cases he : e = slot k
      · subst he
        rw [Function.update_self] at hrest
        constructor
        · rcases hrest.1 with hmin | ⟨k', hk', hslot, hv⟩
          · rcases min_choice (b k) (d (slot k)) with hb | hd
            · exact Or.inr ⟨k, List.mem_cons_self, rfl, (hmin.trans hb).symm⟩
            · exact Or.inl (hmin.trans hd)
          · exact Or.inr ⟨k', List.mem_cons_of_mem k hk', hslot, hv⟩
        · intro v hv
          have hle := hrest.2 (Set.mem_insert _ _)
          rcases hv with rfl | ⟨k', hk', hslot, rfl⟩
          · exact hle.trans (min_le_right _ _)
          · rcases List.mem_cons.mp hk' with rfl | hk'
            · exact hle.trans (min_le_left _ _)
            · exact hrest.2 (Or.inr ⟨k', hk', hslot, rfl⟩)
      · rw [Function.update_of_ne he] at hrest
        have hsame : {v | ∃ k' ∈ k :: rest, slot k' = e ∧ b k' = v} =
            {v | ∃ k' ∈ rest, slot k' = e ∧ b k' = v} := by
          ext v
          simp only [Set.mem_ofPred_eq, List.mem_cons]
          grind
        rw [hsame]
        exact hrest

/-- In a loop over positions the next one is the number already done. -/
theorem range_split {n i : Nat} {done rest : List Nat} (h : done ++ i :: rest = List.range n) :
    i = done.length ∧ done.length < n := by
  have hlen := congrArg List.length h
  simp only [List.length_append, List.length_cons, List.length_range] at hlen
  have hget : (done ++ i :: rest)[done.length]? = some i := by simp
  rw [h, List.getElem?_range (by omega), Option.some.injEq] at hget
  omega

end ArrayLoop
