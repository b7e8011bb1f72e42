import Mathlib.Tactic

/-!
# Binary files

Integers as bytes, least significant first, and readers that walk a file.  A
reader takes the bytes of the file and a position and returns a value and the
next position.  `Reads m bytes a` says that `m` finds `a` wherever `bytes` stand
and moves past exactly these bytes; it composes along the binds of a reader, so
a format is read back by reading back its parts.
-/

namespace Binary

/-! ## Integers -/

/-- The `w` bytes of `n`, least significant first. -/
def natBytes : Nat → Nat → List UInt8
  | 0, _ => []
  | w+1, n => UInt8.ofNat (n % 256) :: natBytes w (n / 256)

/-- The number with the given bytes. -/
def natOfBytes (bs : List UInt8) : Nat := bs.foldr (fun b n => b.toNat + 256 * n) 0

/-- The `w` bytes of an integer in two's complement. -/
def intBytes (w : Nat) (x : Int) : List UInt8 := natBytes w (x % 256 ^ w).toNat

/-- The integer with the given bytes in two's complement. -/
def intOfBytes (bs : List UInt8) : Int := (natOfBytes bs : Int).bmod (256 ^ bs.length)

@[simp] theorem length_natBytes (w n : Nat) : (natBytes w n).length = w := by
  induction w generalizing n with
  | zero => rfl
  | succ w ih => simp only [natBytes, List.length_cons, ih]

@[simp] theorem length_intBytes (w : Nat) (x : Int) : (intBytes w x).length = w :=
  length_natBytes _ _

theorem natOfBytes_natBytes (w n : Nat) : natOfBytes (natBytes w n) = n % 256 ^ w := by
  induction w generalizing n with
  | zero => simp [natBytes, natOfBytes, Nat.mod_one]
  | succ w ih =>
      have hbyte : (UInt8.ofNat (n % 256)).toNat = n % 256 := by
        rw [UInt8.toNat_ofNat']
        omega
      calc natOfBytes (natBytes (w + 1) n)
          = (UInt8.ofNat (n % 256)).toNat + 256 * natOfBytes (natBytes w (n / 256)) := rfl
        _ = n % 256 + 256 * (n / 256 % 256 ^ w) := by rw [hbyte, ih]
        _ = n % 256 ^ (w + 1) := by rw [pow_succ', Nat.mod_mul]

theorem intOfBytes_intBytes (w : Nat) (x : Int) :
    intOfBytes (intBytes w x) = x.bmod (256 ^ w) := by
  have hpos : (0 : Int) < 256 ^ w := by positivity
  have hnonneg : 0 ≤ x % 256 ^ w := Int.emod_nonneg x hpos.ne'
  have hlt : (x % 256 ^ w).toNat < 256 ^ w := by
    have := Int.emod_lt_of_pos x hpos
    zify
    rwa [Int.toNat_of_nonneg hnonneg]
  rw [intOfBytes, intBytes, natOfBytes_natBytes, Nat.mod_eq_of_lt hlt, length_natBytes,
    Int.toNat_of_nonneg hnonneg]
  have hcast : (256 : Int) ^ w = ((256 ^ w : Nat) : Int) := by push_cast; rfl
  rw [hcast, Int.emod_bmod]

/-! ## Places in a file -/

/-- `bytes` stand at `pos` in `file`. -/
def At (file : List UInt8) (pos : Nat) (bytes : List UInt8) : Prop :=
  ∃ before after, file = before ++ (bytes ++ after) ∧ before.length = pos

theorem at_whole (file : List UInt8) : At file 0 file := ⟨[], [], by simp, rfl⟩

theorem At.left {file : List UInt8} {pos : Nat} {bs bs' : List UInt8} (h : At file pos (bs ++ bs')) :
    At file pos bs := by
  obtain ⟨before, after, rfl, hlen⟩ := h
  exact ⟨before, bs' ++ after, by simp, hlen⟩

theorem At.right {file : List UInt8} {pos : Nat} {bs bs' : List UInt8}
    (h : At file pos (bs ++ bs')) : At file (pos + bs.length) bs' := by
  obtain ⟨before, after, rfl, hlen⟩ := h
  exact ⟨before ++ bs, after, by simp, by simp [hlen]⟩

theorem At.length_le {file : List UInt8} {pos : Nat} {bs : List UInt8} (h : At file pos bs) :
    pos + bs.length ≤ file.length := by
  obtain ⟨before, after, rfl, hlen⟩ := h
  simp only [List.length_append]
  omega

theorem At.take {file : List UInt8} {pos : Nat} {bs : List UInt8} (h : At file pos bs) :
    (file.drop pos).take bs.length = bs := by
  obtain ⟨before, after, rfl, hlen⟩ := h
  rw [List.drop_left' hlen, List.take_left']
  rfl

/-! ## Readers -/

/-- Bytes of the file and a position to a value and the next position. -/
def Reader (ε α : Type) : Type := List UInt8 → Nat → Except ε (α × Nat)

namespace Reader

variable {ε α β : Type}

instance : Monad (Reader ε) where
  pure a := fun _ pos => .ok (a, pos)
  bind m f := fun file pos =>
    match m file pos with
    | .ok (a, pos) => f a file pos
    | .error e => .error e

/-- A step that does not touch the file. -/
def lift (x : Except ε α) : Reader ε α := fun _ pos =>
  match x with
  | .ok a => .ok (a, pos)
  | .error e => .error e

/-- The next `n` bytes; a file that ends before fails with `e`. -/
def take (e : ε) (n : Nat) : Reader ε (List UInt8) := fun file pos =>
  if pos + n ≤ file.length then .ok ((file.drop pos).take n, pos + n) else .error e

/-- A check of what has been read. -/
def require (e : ε) (P : Prop) [Decidable P] : Reader ε Unit := lift (if P then .ok () else .error e)

/-- An integer of `w` bytes. -/
def int (e : ε) (w : Nat) : Reader ε Int := do
  let bytes ← take e w
  pure (intOfBytes bytes)

/-- A number of `w` bytes. -/
def nat (e : ε) (w : Nat) : Reader ε Nat := do
  let bytes ← take e w
  pure (natOfBytes bytes)

/-- `n` values one after the other. -/
def many (m : Reader ε α) : Nat → Reader ε (List α)
  | 0 => pure []
  | n+1 => do
      let a ← m
      let as ← many m n
      pure (a :: as)

end Reader

open Reader

variable {ε α β : Type}

/-- Wherever `bytes` stand, `m` finds `a` and moves past them. -/
def Reads (m : Reader ε α) (bytes : List UInt8) (a : α) : Prop :=
  ∀ file pos, At file pos bytes → m file pos = .ok (a, pos + bytes.length)

theorem reads_pure (a : α) : Reads (pure a : Reader ε α) [] a := fun _ _ _ => rfl

theorem Reads.bind {m : Reader ε α} {f : α → Reader ε β} {bs bs' : List UInt8} {a : α} {b : β}
    (h : Reads m bs a) (h' : Reads (f a) bs' b) : Reads (m >>= f) (bs ++ bs') b := by
  intro file pos hat
  change (match m file pos with
    | .ok (a, pos) => f a file pos
    | .error e => .error e) = _
  rw [h file pos hat.left]
  simp only
  rw [h' file _ hat.right, List.length_append, Nat.add_assoc]

/-- A bind after which nothing is read. -/
theorem Reads.bind_last {m : Reader ε α} {f : α → Reader ε β} {bs : List UInt8} {a : α} {b : β}
    (h : Reads m bs a) (h' : Reads (f a) [] b) : Reads (m >>= f) bs b := by
  have := h.bind h'
  rwa [List.append_nil] at this

/-- A bind before which nothing is read. -/
theorem Reads.bind_first {m : Reader ε α} {f : α → Reader ε β} {bs : List UInt8} {a : α} {b : β}
    (h : Reads m [] a) (h' : Reads (f a) bs b) : Reads (m >>= f) bs b := h.bind h'

theorem reads_lift (a : α) : Reads (Reader.lift (.ok a) : Reader ε α) [] a := fun _ _ _ => rfl

theorem reads_require (e : ε) {P : Prop} [Decidable P] (h : P) : Reads (require e P) [] () := by
  rw [require, if_pos h]
  exact reads_lift ()

theorem reads_take (e : ε) (bs : List UInt8) : Reads (take e bs.length) bs bs := by
  intro file pos hat
  rw [take, if_pos hat.length_le, hat.take]

theorem reads_nat (e : ε) {w n : Nat} (hn : n < 256 ^ w) :
    Reads (Reader.nat e w) (natBytes w n) n := by
  have htake := reads_take e (natBytes w n)
  rw [length_natBytes] at htake
  apply htake.bind_last
  rw [natOfBytes_natBytes, Nat.mod_eq_of_lt hn]
  exact reads_pure n

theorem reads_int (e : ε) (w : Nat) (x : Int) :
    Reads (Reader.int e w) (intBytes w x) (x.bmod (256 ^ w)) := by
  have htake := reads_take e (intBytes w x)
  rw [length_intBytes] at htake
  apply htake.bind_last
  rw [intOfBytes_intBytes]
  exact reads_pure _

/-- An integer that fits the width is read back. -/
theorem reads_int_of_fits (e : ε) {w : Nat} {x : Int} (hlo : -((256 ^ w : Nat) / 2 : Int) ≤ x)
    (hhi : x < ((256 ^ w : Nat) + 1 : Int) / 2) : Reads (Reader.int e w) (intBytes w x) x := by
  have h := reads_int e w x
  rwa [Int.bmod_eq_of_le hlo hhi] at h

theorem reads_many {m : Reader ε α} {γ : Type} {bytes : γ → List UInt8} {val : γ → α} :
    ∀ items : List γ, (∀ c ∈ items, Reads m (bytes c) (val c)) →
      Reads (many m items.length) (items.flatMap bytes) (items.map val) := by
  intro items
  induction items with
  | nil => exact fun _ => reads_pure _
  | cons c items ih =>
      intro h
      apply (h c List.mem_cons_self).bind
      apply (ih fun c hc => h c (List.mem_cons_of_mem _ hc)).bind_last
      exact reads_pure _

end Binary
