import Mathlib.Tactic

/-!
# Runs with fuel

A loop or a recursion whose end is not evident takes a number that falls with
each call; a run that is out of fuel has no result.  `Ends` says what holds of
the results, and when the fuel is out; its rules go through the steps of a run.
-/

/-- A run that may be out of fuel, and that may stop with an error. -/
abbrev Fueled (ε : Type) : Type → Type := ExceptT ε Option

namespace Fueled

variable {ε α β : Type}

/-- No fuel is left. -/
def out : Fueled ε α := ExceptT.mk none

/-- A run with a result. -/
def done (a : α) : Fueled ε α := ExceptT.mk (some (.ok a))

/-- A run with an error. -/
def stop (e : ε) : Fueled ε α := ExceptT.mk (some (.error e))

/-- A step that needs no fuel. -/
def lift (x : Except ε α) : Fueled ε α := ExceptT.mk (some x)

/-- The run has a result with `Q`, or an error with `E`, or no fuel, and then
`O` holds. -/
def Ends (r : Fueled ε α) (Q : α → Prop) (E : ε → Prop) (O : Prop) : Prop :=
  (∃ a, r = done a ∧ Q a) ∨ (∃ e, r = stop e ∧ E e) ∨ r = out ∧ O

variable {Q Q' : α → Prop} {E E' : ε → Prop} {O O' : Prop}

theorem done_ne_out {a : α} : (done a : Fueled ε α) ≠ out := by
  intro h
  cases h

theorem stop_ne_out {e : ε} : (stop e : Fueled ε α) ≠ out := by
  intro h
  cases h

theorem done_inj {a b : α} : (done a : Fueled ε α) = done b ↔ a = b := by
  constructor
  · intro h
    cases h
    rfl
  · rintro rfl
    rfl

theorem Ends.imp {r : Fueled ε α} (h : Ends r Q E O) (hQ : ∀ a, Q a → Q' a)
    (hE : ∀ e, E e → E' e) (hO : O → O') : Ends r Q' E' O' := by
  obtain ⟨a, hr, ha⟩ | ⟨e, hr, he⟩ | ⟨hr, ho⟩ := h
  · exact Or.inl ⟨a, hr, hQ a ha⟩
  · exact Or.inr (Or.inl ⟨e, hr, hE e he⟩)
  · exact Or.inr (Or.inr ⟨hr, hO ho⟩)

/-- What holds of a result. -/
theorem Ends.of_done {r : Fueled ε α} (h : Ends r Q E O) {a : α} (hr : r = done a) : Q a := by
  obtain ⟨b, hb, hQ⟩ | ⟨e, he, _⟩ | ⟨ho, _⟩ := h
  · rwa [done_inj.mp (hr.symm.trans hb)]
  · cases hr.symm.trans he
  · cases hr.symm.trans ho

/-- A result is the result of the run. -/
theorem Ends.and_run {r : Fueled ε α} (h : Ends r Q E O) :
    Ends r (fun a => r = done a ∧ Q a) E O := by
  obtain ⟨a, hr, ha⟩ | hr | hr := h
  · exact Or.inl ⟨a, hr, hr, ha⟩
  · exact Or.inr (Or.inl hr)
  · exact Or.inr (Or.inr hr)

/-- With fuel enough there is a result or an error. -/
theorem Ends.total {r : Fueled ε α} (h : Ends r Q E O) (hO : ¬ O) :
    (∃ a, r = done a ∧ Q a) ∨ ∃ e, r = stop e ∧ E e := by
  obtain hr | hr | ⟨_, ho⟩ := h
  · exact Or.inl hr
  · exact Or.inr hr
  · exact absurd ho hO

theorem ends_done {a : α} (ha : Q a) : Ends (pure a : Fueled ε α) Q E O := Or.inl ⟨a, rfl, ha⟩

theorem ends_out (ho : O) : Ends (out : Fueled ε α) Q E O := Or.inr (Or.inr ⟨rfl, ho⟩)

theorem ends_ok {x : Except ε α} {a : α} (hx : x = .ok a) (ha : Q a) : Ends (lift x) Q E O :=
  Or.inl ⟨a, by rw [hx]; rfl, ha⟩

theorem ends_error {x : Except ε α} {e : ε} (hx : x = .error e) (he : E e) :
    Ends (lift x) Q E O :=
  Or.inr (Or.inl ⟨e, by rw [hx]; rfl, he⟩)

/-- **Two runs in a row.** -/
theorem Ends.bind {r : Fueled ε α} (h : Ends r Q E O) {f : α → Fueled ε β} {P : β → Prop}
    (hf : ∀ a, Q a → Ends (f a) P E O) : Ends (r >>= f) P E O := by
  obtain ⟨a, rfl, ha⟩ | ⟨e, rfl, he⟩ | ⟨rfl, ho⟩ := h
  · exact hf a ha
  · exact Or.inr (Or.inl ⟨e, rfl, he⟩)
  · exact ends_out ho

/-- **A loop** keeps what each of its rounds keeps. -/
theorem ends_loop {f : α → Nat → Fueled ε α} {I : Nat → α → Prop} {n : Nat} {a : α} (ha : I 0 a)
    (hf : ∀ k a, k < n → I k a → Ends (f a k) (I (k + 1)) E O) :
    Ends ((List.range n).foldlM f a) (I n) E O := by
  induction n with
  | zero => exact ends_done ha
  | succ n ih =>
      rw [List.range_succ, List.foldlM_append]
      refine (ih fun k a hk => hf k a (Nat.lt_succ_of_lt hk)).bind fun b hb => ?_
      rw [List.foldlM_cons]
      exact (hf n b n.lt_succ_self hb).bind fun c hc => ends_done hc

end Fueled
