import Mathlib.Tactic

/-!
# Return codes and machine integers

Every function of the source returns a `REF_STATUS`; the model returns
`Except Status`, with `REF_SUCCESS` as `ok`.  `undefined` is not a code of the
source: it marks the inputs on which C itself gives no result (signed overflow
of a `REF_INT`, an index outside an array, a division by zero), so a call that
reaches one of them is never counted as a success.
-/

namespace RefineMesh

/-- The codes other than `REF_SUCCESS` in `ref_defs.h`, and `undefined`. -/
inductive Status
  | failure
  | null
  | invalid
  | divZero
  | notFound
  | implement
  | increaseLimit
  | illConditioned
  | undefined
  deriving DecidableEq, Repr

/-- The codes that the stores themselves return. -/
def Status.Plain (e : Status) : Prop := e ≠ .increaseLimit ∧ e ≠ .implement

instance (e : Status) : Decidable e.Plain := inferInstanceAs (Decidable (_ ∧ _))

/-- `REF_INT_MAX`. -/
def refIntMax : Nat := 2147483647

/-- `REF_EMPTY`, the terminator of every intrusive list. -/
def refEmpty : Int := -1

@[simp] theorem refEmpty_ne_natCast (k : Nat) : refEmpty ≠ (k : Int) := by
  unfold refEmpty; omega

@[simp] theorem natCast_ne_refEmpty (k : Nat) : (k : Int) ≠ refEmpty := by
  unfold refEmpty; omega

/-! ## Machine integers and arrays -/

/-- The value of an expression in `REF_INT`. -/
def intExpr (x : Nat) : Except Status Nat :=
  if x ≤ refIntMax then .ok x else .error .undefined

/-- `array[i]`, for an array of length `n`. -/
def readAt {β : Type} (n : Nat) (array : Nat → β) (i : Nat) : Except Status β :=
  if i < n then .ok (array i) else .error .undefined

/-- `array[i] = x`, for an array of length `n`. -/
def writeAt {β : Type} (n : Nat) (array : Nat → β) (i : Nat) (x : β) :
    Except Status (Nat → β) :=
  if i < n then .ok (Function.update array i x) else .error .undefined

theorem intExpr_ok {x : Nat} (h : x ≤ refIntMax) : intExpr x = .ok x := if_pos h

theorem readAt_ok {β : Type} {n i : Nat} (array : Nat → β) (h : i < n) :
    readAt n array i = .ok (array i) := if_pos h

theorem writeAt_ok {β : Type} {n i : Nat} (array : Nat → β) (x : β) (h : i < n) :
    writeAt n array i x = .ok (Function.update array i x) := if_pos h

/-! ## Sequences of calls -/

/-- A sequence of two calls succeeds exactly when both do. -/
theorem bind_eq_ok {ε α β : Type} {x : Except ε α} {f : α → Except ε β} {b : β} :
    (x >>= f) = Except.ok b ↔ ∃ a, x = Except.ok a ∧ f a = Except.ok b := by
  cases x with
  | error e => simp [bind, Except.bind]
  | ok a => simp [bind, Except.bind]

/-- A sequence of two calls fails where one of them does. -/
theorem bind_eq_error {ε α β : Type} {x : Except ε α} {f : α → Except ε β} {e : ε} :
    (x >>= f) = Except.error e ↔ x = .error e ∨ ∃ a, x = .ok a ∧ f a = .error e := by
  cases x with
  | error e => simp [bind, Except.bind]
  | ok a => simp [bind, Except.bind]

theorem mapError_eq_ok {ε ε' α : Type} {f : ε → ε'} {x : Except ε α} {a : α} :
    x.mapError f = .ok a ↔ x = .ok a := by
  cases x with
  | error e => simp [Except.mapError]
  | ok a' => simp [Except.mapError]

/-- Whether a call succeeded. -/
def succeeds {ε α : Type} : Except ε α → Bool
  | .ok _ => true
  | .error _ => false

theorem exists_ok_of_succeeds {ε α : Type} {x : Except ε α} (h : succeeds x = true) :
    ∃ a, x = .ok a := by
  cases x with
  | error e => cases h
  | ok a => exact ⟨a, rfl⟩

theorem exists_ok_of_map {ε α β : Type} {x : Except ε α} {f : α → β} {b : β}
    (h : x.toOption.map f = some b) : ∃ a, x = .ok a ∧ f a = b := by
  cases x with
  | error e => cases h
  | ok a => exact ⟨a, rfl, Option.some.inj h⟩

end RefineMesh
