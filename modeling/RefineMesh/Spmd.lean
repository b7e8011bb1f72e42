import Mathlib.Tactic
import RefineMesh.Segments

/-!
# One program on every rank

Each rank runs its own program and the programs meet in collective calls.  A
program is a tree: it returns, fails, or makes a collective call and goes on
with what the call gives back.  A run of `p` ranks takes a collective step only
when all ranks make the same call, with send and receive counts that match, and
it is complete when all ranks have returned.  So a rank that fails, ranks that
call different collectives, counts that do not match and a rank that returns
while another still calls are all the same thing here: there is no run.

The elements moved by `alltoallv`, `bcast` and `reduce` have a tag, which the
ranks must agree on.  The root of the last two is rank 0.
-/

namespace Spmd

open Segments

/-- A program of one rank.  `mem` is what a receive buffer holds outside the
part that is received. -/
inductive Prog {Tag : Type} (Elem : Tag → Type) (ε α : Type) : Type
  | ret (a : α)
  | fail (e : ε)
  | allsum (x : Int) (k : Int → Prog Elem ε α)
  | allgather (x : Int) (k : (Nat → Int) → Prog Elem ε α)
  | allgatherv (counts : Nat → Nat) (mine mem : Nat → Int)
      (k : (Nat → Int) → Prog Elem ε α)
  | alltoall (send : Nat → Nat) (k : (Nat → Nat) → Prog Elem ε α)
  | alltoallv (t : Tag) (send : Nat → Elem t) (sendCount recvCount : Nat → Nat)
      (mem : Nat → Elem t) (k : (Nat → Elem t) → Prog Elem ε α)
  | bcast (t : Tag) (n : Nat) (buf : Nat → Elem t) (k : (Nat → Elem t) → Prog Elem ε α)
  | reduce (t : Tag) (op : Elem t → Elem t → Elem t) (n : Nat) (input mem : Nat → Elem t)
      (k : (Nat → Elem t) → Prog Elem ε α)

variable {Tag : Type} {Elem : Tag → Type} {ε α β : Type}

namespace Prog

/-- Sequencing. -/
def bind (P : Prog Elem ε α) (f : α → Prog Elem ε β) : Prog Elem ε β :=
  match P with
  | ret a => f a
  | fail e => fail e
  | allsum x k => allsum x fun v => (k v).bind f
  | allgather x k => allgather x fun v => (k v).bind f
  | allgatherv counts mine mem k => allgatherv counts mine mem fun v => (k v).bind f
  | alltoall send k => alltoall send fun v => (k v).bind f
  | alltoallv t send sendCount recvCount mem k =>
      alltoallv t send sendCount recvCount mem fun v => (k v).bind f
  | bcast t n buf k => bcast t n buf fun v => (k v).bind f
  | reduce t op n input mem k => reduce t op n input mem fun v => (k v).bind f

instance : Monad (Prog Elem ε) where
  pure := ret
  bind := bind

/-- A step without communication. -/
def lift : Except ε α → Prog Elem ε α
  | .ok a => ret a
  | .error e => fail e

@[simp] theorem lift_ok (a : α) : (lift (.ok a) : Prog Elem ε α) = ret a := rfl

@[simp] theorem ret_bind (a : α) (f : α → Prog Elem ε β) : (ret a).bind f = f a := rfl

@[simp] theorem fail_bind (e : ε) (f : α → Prog Elem ε β) : (fail e).bind f = fail e := rfl

theorem bind_ret (P : Prog Elem ε α) : P.bind ret = P := by
  induction P with
  | ret a => rfl
  | fail e => rfl
  | allsum x k ih => simp only [bind, ih]
  | allgather x k ih => simp only [bind, ih]
  | allgatherv counts mine mem k ih => simp only [bind, ih]
  | alltoall send k ih => simp only [bind, ih]
  | alltoallv t send sendCount recvCount mem k ih => simp only [bind, ih]
  | bcast t n buf k ih => simp only [bind, ih]
  | reduce t op n input mem k ih => simp only [bind, ih]

theorem bind_assoc {γ : Type} (P : Prog Elem ε α) (f : α → Prog Elem ε β)
    (g : β → Prog Elem ε γ) : (P.bind f).bind g = P.bind fun a => (f a).bind g := by
  induction P with
  | ret a => rfl
  | fail e => rfl
  | allsum x k ih => simp only [bind, ih]
  | allgather x k ih => simp only [bind, ih]
  | allgatherv counts mine mem k ih => simp only [bind, ih]
  | alltoall send k ih => simp only [bind, ih]
  | alltoallv t send sendCount recvCount mem k ih => simp only [bind, ih]
  | bcast t n buf k ih => simp only [bind, ih]
  | reduce t op n input mem k ih => simp only [bind, ih]

/-- The next thing the rank does is to broadcast elements of tag `t`. -/
def Broadcasts (t : Tag) : Prog Elem ε α → Prop
  | bcast t' _ _ _ => t' = t
  | _ => False

theorem Broadcasts.bind {t : Tag} {P : Prog Elem ε α} (h : P.Broadcasts t)
    (f : α → Prog Elem ε β) : (P.bind f).Broadcasts t := by
  cases P with
  | bcast t' n buf k => exact h
  | ret a => exact h.elim
  | fail e => exact h.elim
  | allsum x k => exact h.elim
  | allgather x k => exact h.elim
  | allgatherv counts mine mem k => exact h.elim
  | alltoall send k => exact h.elim
  | alltoallv t' send sendCount recvCount mem k => exact h.elim
  | reduce t' op n input mem k => exact h.elim

theorem Broadcasts.unique {t t' : Tag} {P : Prog Elem ε α} (h : P.Broadcasts t)
    (h' : P.Broadcasts t') : t = t' := by
  cases P with
  | bcast u n buf k => exact h.symm.trans h'
  | ret a => exact h.elim
  | fail e => exact h.elim
  | allsum x k => exact h.elim
  | allgather x k => exact h.elim
  | allgatherv counts mine mem k => exact h.elim
  | alltoall send k => exact h.elim
  | alltoallv u send sendCount recvCount mem k => exact h.elim
  | reduce u op n input mem k => exact h.elim

@[simp] theorem pure_eq (a : α) : (pure a : Prog Elem ε α) = ret a := rfl

@[simp] theorem bind_eq (P : Prog Elem ε α) (f : α → Prog Elem ε β) : (P >>= f) = P.bind f := rfl

end Prog

/-- An array with one entry for each rank. -/
def onRanks {γ : Type} [Zero γ] (p : Nat) (x : Nat → γ) : Nat → γ :=
  fun q => if q < p then x q else 0

theorem onRanks_of_lt {γ : Type} [Zero γ] {p q : Nat} (x : Nat → γ) (hq : q < p) :
    onRanks p x q = x q := if_pos hq

theorem onRanks_congr {γ : Type} [Zero γ] {p : Nat} {x y : Nat → γ}
    (h : ∀ q, q < p → x q = y q) : onRanks p x = onRanks p y := by
  funext q
  unfold onRanks
  split
  · rename_i hq
    exact h q hq
  · rfl

/-- The concatenation of the arrays of all ranks. -/
def gathered (p : Nat) (counts : Nat → Nat) (mine : Nat → Nat → Int) (mem : Nat → Int) :
    Nat → Int := fun i =>
  match locate p counts i with
  | some (q, j) => mine q j
  | none => mem i

/-- The receive buffer of rank `r`: the segment from rank `q` is the segment
of `q` for `r`. -/
def exchanged {γ : Type} (p : Nat) (send : Nat → Nat → γ) (sendCount recvCount : Nat → Nat → Nat)
    (mem : Nat → Nat → γ) (r : Nat) : Nat → γ := fun i =>
  match locate p (recvCount r) i with
  | some (q, j) => send q (start (sendCount q) r + j)
  | none => mem r i

/-- What a rank has after a broadcast of `n` entries from rank 0. -/
def broadcast {γ : Type} (n : Nat) (buf : Nat → Nat → γ) (r : Nat) : Nat → γ := fun i =>
  if i < n then buf 0 i else buf r i

/-- The combination of the values of ranks `0, .., q`, in rank order. -/
def combined {γ : Type} (op : γ → γ → γ) (x : Nat → γ) : Nat → γ
  | 0 => x 0
  | q+1 => op (combined op x q) (x (q + 1))

/-- The output buffer of rank `r` after a reduction to rank 0. -/
def reduced {γ : Type} (p : Nat) (op : γ → γ → γ) (n : Nat) (input mem : Nat → Nat → γ) (r : Nat) :
    Nat → γ := fun i =>
  if r = 0 ∧ i < n then combined op (fun q => input q i) (p - 1) else mem r i

/-- The gathered array, rank by rank. -/
theorem map_gathered (p : Nat) (counts : Nat → Nat) (mine : Nat → Nat → Int) (mem : Nat → Int) :
    (List.range (start counts p)).map (gathered p counts mine mem) =
      (List.range p).flatMap fun q => (List.range (counts q)).map (mine q) := by
  rw [range_start, List.map_flatMap]
  apply List.flatMap_congr
  intro q hq
  rw [List.map_map]
  apply List.map_congr_left
  intro j hj
  rw [Function.comp_apply, gathered,
    locate_start_add (List.mem_range.mp hq) (List.mem_range.mp hj)]

theorem gathered_congr {p : Nat} {counts : Nat → Nat} {mine mine' : Nat → Nat → Int}
    {mem : Nat → Int} (h : ∀ q, q < p → mine q = mine' q) :
    gathered p counts mine mem = gathered p counts mine' mem := by
  funext i
  unfold gathered
  split
  · rename_i q j hloc
    rw [h q (locate_eq_some hloc).1]
  · rfl

theorem exchanged_congr {γ : Type} {p : Nat} {send send' : Nat → Nat → γ}
    {sendCount sendCount' recvCount recvCount' : Nat → Nat → Nat} {mem mem' : Nat → Nat → γ}
    {r : Nat} (hsend : ∀ q, q < p → send q = send' q)
    (hcount : ∀ q, q < p → sendCount q = sendCount' q) (hrecv : recvCount r = recvCount' r)
    (hmem : mem r = mem' r) :
    exchanged p send sendCount recvCount mem r = exchanged p send' sendCount' recvCount' mem' r := by
  funext i
  unfold exchanged
  rw [hrecv, hmem]
  split
  · rename_i q j hloc
    rw [hsend q (locate_eq_some hloc).1, hcount q (locate_eq_some hloc).1]
  · rfl

theorem broadcast_congr {γ : Type} {n p r : Nat} {buf buf' : Nat → Nat → γ} (hr : r < p)
    (h : ∀ q, q < p → buf q = buf' q) : broadcast n buf r = broadcast n buf' r := by
  unfold broadcast
  rw [h 0 (by omega), h r hr]

theorem combined_congr {γ : Type} {op : γ → γ → γ} {x y : Nat → γ} {m : Nat}
    (h : ∀ q, q ≤ m → x q = y q) : combined op x m = combined op y m := by
  induction m with
  | zero => exact h 0 le_rfl
  | succ m ih =>
      unfold combined
      rw [ih fun q hq => h q (by omega), h (m + 1) le_rfl]

theorem combined_zero {γ : Type} {op : γ → γ → γ} {zero : γ} (hzero : ∀ v, op v zero = v)
    {x : Nat → γ} {m : Nat} (hx : ∀ q, q ≤ m → x q = zero) : combined op x m = zero := by
  induction m with
  | zero => exact hx 0 le_rfl
  | succ m ih =>
      unfold combined
      rw [hx (m + 1) le_rfl, hzero]
      exact ih fun q hq => hx q (by omega)

/-- Where one rank alone has a value, that value is the sum. -/
theorem combined_single {γ : Type} (op : γ → γ → γ) (zero : γ) (hright : ∀ v, op v zero = v)
    (hleft : ∀ v, op zero v = v) {x : Nat → γ} {m q : Nat} (hq : q ≤ m)
    (hx : ∀ q', q' ≤ m → q' ≠ q → x q' = zero) : combined op x m = x q := by
  induction m with
  | zero =>
      obtain rfl : q = 0 := by omega
      rfl
  | succ m ih =>
      unfold combined
      by_cases hlast : q = m + 1
      · subst hlast
        rw [combined_zero hright fun q' hq' => hx q' (by omega) (by omega), hleft]
      · rw [hx (m + 1) le_rfl fun h => hlast h.symm, hright]
        exact ih (by omega) fun q' hq' => hx q' (by omega)

theorem reduced_congr {γ : Type} {p n r : Nat} {op : γ → γ → γ} {input input' mem mem' : Nat → Nat → γ}
    (hp : 0 < p) (h : ∀ q, q < p → input q = input' q) (hmem : mem r = mem' r) :
    reduced p op n input mem r = reduced p op n input' mem' r := by
  funext i
  unfold reduced
  rw [hmem, combined_congr fun q hq => congrFun (h q (by omega)) i]

/-- Complete runs of `p` ranks. -/
inductive Runs (p : Nat) : (Nat → Prog Elem ε α) → (Nat → α) → Prop
  | ret {P : Nat → Prog Elem ε α} {out : Nat → α} :
      (∀ r, r < p → P r = .ret (out r)) → Runs p P out
  | allsum {P : Nat → Prog Elem ε α} {out : Nat → α} (x : Nat → Int)
      (k : Nat → Int → Prog Elem ε α) :
      (∀ r, r < p → P r = .allsum (x r) (k r)) →
      Runs p (fun r => k r (∑ q ∈ Finset.range p, x q)) out → Runs p P out
  | allgather {P : Nat → Prog Elem ε α} {out : Nat → α} (x : Nat → Int)
      (k : Nat → (Nat → Int) → Prog Elem ε α) :
      (∀ r, r < p → P r = .allgather (x r) (k r)) →
      Runs p (fun r => k r (onRanks p x)) out → Runs p P out
  | allgatherv {P : Nat → Prog Elem ε α} {out : Nat → α} (counts : Nat → Nat → Nat)
      (mine mem : Nat → Nat → Int) (k : Nat → (Nat → Int) → Prog Elem ε α) :
      (∀ r, r < p → P r = .allgatherv (counts r) (mine r) (mem r) (k r)) →
      (∀ r q, r < p → q < p → counts r q = counts q q) →
      Runs p (fun r => k r (gathered p (counts r) mine (mem r))) out → Runs p P out
  | alltoall {P : Nat → Prog Elem ε α} {out : Nat → α} (send : Nat → Nat → Nat)
      (k : Nat → (Nat → Nat) → Prog Elem ε α) :
      (∀ r, r < p → P r = .alltoall (send r) (k r)) →
      Runs p (fun r => k r (onRanks p fun q => send q r)) out → Runs p P out
  | alltoallv {P : Nat → Prog Elem ε α} {out : Nat → α} (t : Tag) (send : Nat → Nat → Elem t)
      (sendCount recvCount : Nat → Nat → Nat) (mem : Nat → Nat → Elem t)
      (k : Nat → (Nat → Elem t) → Prog Elem ε α) :
      (∀ r, r < p → P r = .alltoallv t (send r) (sendCount r) (recvCount r) (mem r) (k r)) →
      (∀ r q, r < p → q < p → sendCount q r = recvCount r q) →
      Runs p (fun r => k r (exchanged p send sendCount recvCount mem r)) out → Runs p P out
  | bcast {P : Nat → Prog Elem ε α} {out : Nat → α} (t : Tag) (n : Nat) (buf : Nat → Nat → Elem t)
      (k : Nat → (Nat → Elem t) → Prog Elem ε α) :
      (∀ r, r < p → P r = .bcast t n (buf r) (k r)) →
      Runs p (fun r => k r (broadcast n buf r)) out → Runs p P out
  | reduce {P : Nat → Prog Elem ε α} {out : Nat → α} (t : Tag) (op : Elem t → Elem t → Elem t)
      (n : Nat) (input mem : Nat → Nat → Elem t) (k : Nat → (Nat → Elem t) → Prog Elem ε α) :
      (∀ r, r < p → P r = .reduce t op n (input r) (mem r) (k r)) →
      Runs p (fun r => k r (reduced p op n input mem r)) out → Runs p P out

/-- Only the ranks below `p` take part. -/
theorem Runs.congr {p : Nat} {P P' : Nat → Prog Elem ε α} {out : Nat → α} (h : Runs p P out)
    (heq : ∀ r, r < p → P' r = P r) : Runs p P' out := by
  cases h with
  | ret hP => exact .ret fun r hr => (heq r hr).trans (hP r hr)
  | allsum x k hP hrest => exact .allsum x k (fun r hr => (heq r hr).trans (hP r hr)) hrest
  | allgather x k hP hrest => exact .allgather x k (fun r hr => (heq r hr).trans (hP r hr)) hrest
  | allgatherv counts mine mem k hP hcounts hrest =>
      exact .allgatherv counts mine mem k (fun r hr => (heq r hr).trans (hP r hr)) hcounts hrest
  | alltoall send k hP hrest => exact .alltoall send k (fun r hr => (heq r hr).trans (hP r hr)) hrest
  | alltoallv t send sendCount recvCount mem k hP hmatch hrest =>
      exact .alltoallv t send sendCount recvCount mem k (fun r hr => (heq r hr).trans (hP r hr))
        hmatch hrest
  | bcast t n buf k hP hrest => exact .bcast t n buf k (fun r hr => (heq r hr).trans (hP r hr)) hrest
  | reduce t op n input mem k hP hrest =>
      exact .reduce t op n input mem k (fun r hr => (heq r hr).trans (hP r hr)) hrest

theorem Runs.congr_out {p : Nat} {P : Nat → Prog Elem ε α} {out out' : Nat → α}
    (h : Runs p P out) (heq : ∀ r, r < p → out' r = out r) : Runs p P out' := by
  induction h with
  | ret hP => exact .ret fun r hr => by rw [hP r hr, heq r hr]
  | allsum x k hP _ ih => exact .allsum x k hP (ih heq)
  | allgather x k hP _ ih => exact .allgather x k hP (ih heq)
  | allgatherv counts mine mem k hP hcounts _ ih =>
      exact .allgatherv counts mine mem k hP hcounts (ih heq)
  | alltoall send k hP _ ih => exact .alltoall send k hP (ih heq)
  | alltoallv t send sendCount recvCount mem k hP hmatch _ ih =>
      exact .alltoallv t send sendCount recvCount mem k hP hmatch (ih heq)
  | bcast t n buf k hP _ ih => exact .bcast t n buf k hP (ih heq)
  | reduce t op n input mem k hP _ ih => exact .reduce t op n input mem k hP (ih heq)

/-! ## What a run of each call must be -/

section Inversion

variable {p : Nat} {P : Nat → Prog Elem ε α} {out : Nat → α}

/-- A rank that fails has no run. -/
theorem not_runs_of_fail {r : Nat} {e : ε} (hr : r < p) (hP : P r = .fail e) :
    ¬ Runs p P out := by
  intro h
  cases h with
  | ret h => cases (h r hr).symm.trans hP
  | allsum x k h => cases (h r hr).symm.trans hP
  | allgather x k h => cases (h r hr).symm.trans hP
  | allgatherv counts mine mem k h => cases (h r hr).symm.trans hP
  | alltoall send k h => cases (h r hr).symm.trans hP
  | alltoallv t send sendCount recvCount mem k h => cases (h r hr).symm.trans hP
  | bcast t n buf k h => cases (h r hr).symm.trans hP
  | reduce t op n input mem k h => cases (h r hr).symm.trans hP

/-- When one rank has returned, all have. -/
theorem Runs.of_ret {r : Nat} {a : α} (h : Runs p P out) (hr : r < p) (hP : P r = .ret a) :
    ∀ q, q < p → P q = .ret (out q) := by
  cases h with
  | ret h => exact h
  | allsum x k h => cases (h r hr).symm.trans hP
  | allgather x k h => cases (h r hr).symm.trans hP
  | allgatherv counts mine mem k h => cases (h r hr).symm.trans hP
  | alltoall send k h => cases (h r hr).symm.trans hP
  | alltoallv t send sendCount recvCount mem k h => cases (h r hr).symm.trans hP
  | bcast t n buf k h => cases (h r hr).symm.trans hP
  | reduce t op n input mem k h => cases (h r hr).symm.trans hP

theorem runs_ret_iff {a : Nat → α} (hp : 0 < p) (hP : ∀ r, r < p → P r = .ret (a r)) :
    Runs p P out ↔ ∀ r, r < p → out r = a r := by
  constructor
  · intro h r hr
    have := h.of_ret hp (hP 0 hp) r hr
    rw [hP r hr] at this
    exact (Prog.ret.inj this).symm
  · intro h
    exact .ret fun r hr => by rw [hP r hr, h r hr]

theorem runs_allsum_iff {x : Nat → Int} {k : Nat → Int → Prog Elem ε α} (hp : 0 < p)
    (hP : ∀ r, r < p → P r = .allsum (x r) (k r)) :
    Runs p P out ↔ Runs p (fun r => k r (∑ q ∈ Finset.range p, x q)) out := by
  refine ⟨fun h => ?_, fun h => .allsum x k hP h⟩
  cases h with
  | allsum x' k' h hrest =>
      have hxk : ∀ r, r < p → x r = x' r ∧ k r = k' r := by
        intro r hr
        have := (hP r hr).symm.trans (h r hr)
        simpa using this
      have hsum : ∑ q ∈ Finset.range p, x q = ∑ q ∈ Finset.range p, x' q :=
        Finset.sum_congr rfl fun q hq => (hxk q (Finset.mem_range.mp hq)).1
      refine hrest.congr fun r hr => ?_
      rw [hsum, (hxk r hr).2]
  | ret h => cases (h 0 hp).symm.trans (hP 0 hp)
  | allgather x k h => cases (h 0 hp).symm.trans (hP 0 hp)
  | allgatherv counts mine mem k h => cases (h 0 hp).symm.trans (hP 0 hp)
  | alltoall send k h => cases (h 0 hp).symm.trans (hP 0 hp)
  | alltoallv t send sendCount recvCount mem k h => cases (h 0 hp).symm.trans (hP 0 hp)
  | bcast t n buf k h => cases (h 0 hp).symm.trans (hP 0 hp)
  | reduce t op n input mem k h => cases (h 0 hp).symm.trans (hP 0 hp)

theorem runs_allgather_iff {x : Nat → Int} {k : Nat → (Nat → Int) → Prog Elem ε α} (hp : 0 < p)
    (hP : ∀ r, r < p → P r = .allgather (x r) (k r)) :
    Runs p P out ↔ Runs p (fun r => k r (onRanks p x)) out := by
  refine ⟨fun h => ?_, fun h => .allgather x k hP h⟩
  cases h with
  | allgather x' k' h hrest =>
      have hxk : ∀ r, r < p → x r = x' r ∧ k r = k' r := by
        intro r hr
        have := (hP r hr).symm.trans (h r hr)
        simpa using this
      refine hrest.congr fun r hr => ?_
      rw [onRanks_congr fun q hq => (hxk q hq).1, (hxk r hr).2]
  | ret h => cases (h 0 hp).symm.trans (hP 0 hp)
  | allsum x k h => cases (h 0 hp).symm.trans (hP 0 hp)
  | allgatherv counts mine mem k h => cases (h 0 hp).symm.trans (hP 0 hp)
  | alltoall send k h => cases (h 0 hp).symm.trans (hP 0 hp)
  | alltoallv t send sendCount recvCount mem k h => cases (h 0 hp).symm.trans (hP 0 hp)
  | bcast t n buf k h => cases (h 0 hp).symm.trans (hP 0 hp)
  | reduce t op n input mem k h => cases (h 0 hp).symm.trans (hP 0 hp)

theorem runs_allgatherv_iff {counts : Nat → Nat → Nat} {mine mem : Nat → Nat → Int}
    {k : Nat → (Nat → Int) → Prog Elem ε α} (hp : 0 < p)
    (hP : ∀ r, r < p → P r = .allgatherv (counts r) (mine r) (mem r) (k r)) :
    Runs p P out ↔ (∀ r q, r < p → q < p → counts r q = counts q q) ∧
      Runs p (fun r => k r (gathered p (counts r) mine (mem r))) out := by
  refine ⟨fun h => ?_, fun h => .allgatherv counts mine mem k hP h.1 h.2⟩
  cases h with
  | allgatherv counts' mine' mem' k' h hcounts hrest =>
      have heq : ∀ r, r < p → counts r = counts' r ∧ mine r = mine' r ∧ mem r = mem' r ∧
          k r = k' r := by
        intro r hr
        have := (hP r hr).symm.trans (h r hr)
        simpa using this
      refine ⟨fun r q hr hq => ?_, hrest.congr fun r hr => ?_⟩
      · rw [(heq r hr).1, (heq q hq).1]
        exact hcounts r q hr hq
      · obtain ⟨hc, _, hmem, hk⟩ := heq r hr
        rw [hc, hmem, hk, gathered_congr fun q hq => (heq q hq).2.1]
  | ret h => cases (h 0 hp).symm.trans (hP 0 hp)
  | allsum x k h => cases (h 0 hp).symm.trans (hP 0 hp)
  | allgather x k h => cases (h 0 hp).symm.trans (hP 0 hp)
  | alltoall send k h => cases (h 0 hp).symm.trans (hP 0 hp)
  | alltoallv t send sendCount recvCount mem k h => cases (h 0 hp).symm.trans (hP 0 hp)
  | bcast t n buf k h => cases (h 0 hp).symm.trans (hP 0 hp)
  | reduce t op n input mem k h => cases (h 0 hp).symm.trans (hP 0 hp)

theorem runs_alltoall_iff {send : Nat → Nat → Nat} {k : Nat → (Nat → Nat) → Prog Elem ε α}
    (hp : 0 < p) (hP : ∀ r, r < p → P r = .alltoall (send r) (k r)) :
    Runs p P out ↔ Runs p (fun r => k r (onRanks p fun q => send q r)) out := by
  refine ⟨fun h => ?_, fun h => .alltoall send k hP h⟩
  cases h with
  | alltoall send' k' h hrest =>
      have heq : ∀ r, r < p → send r = send' r ∧ k r = k' r := by
        intro r hr
        have := (hP r hr).symm.trans (h r hr)
        simpa using this
      have hreply : ∀ r, onRanks p (fun q => send q r) = onRanks p fun q => send' q r :=
        fun r => onRanks_congr fun q hq => by rw [(heq q hq).1]
      refine hrest.congr fun r hr => ?_
      rw [hreply r, (heq r hr).2]
  | ret h => cases (h 0 hp).symm.trans (hP 0 hp)
  | allsum x k h => cases (h 0 hp).symm.trans (hP 0 hp)
  | allgather x k h => cases (h 0 hp).symm.trans (hP 0 hp)
  | allgatherv counts mine mem k h => cases (h 0 hp).symm.trans (hP 0 hp)
  | alltoallv t send sendCount recvCount mem k h => cases (h 0 hp).symm.trans (hP 0 hp)
  | bcast t n buf k h => cases (h 0 hp).symm.trans (hP 0 hp)
  | reduce t op n input mem k h => cases (h 0 hp).symm.trans (hP 0 hp)

theorem runs_alltoallv_iff {t : Tag} {send mem : Nat → Nat → Elem t}
    {sendCount recvCount : Nat → Nat → Nat} {k : Nat → (Nat → Elem t) → Prog Elem ε α} (hp : 0 < p)
    (hP : ∀ r, r < p →
      P r = .alltoallv t (send r) (sendCount r) (recvCount r) (mem r) (k r)) :
    Runs p P out ↔ (∀ r q, r < p → q < p → sendCount q r = recvCount r q) ∧
      Runs p (fun r => k r (exchanged p send sendCount recvCount mem r)) out := by
  refine ⟨fun h => ?_, fun h => .alltoallv t send sendCount recvCount mem k hP h.1 h.2⟩
  cases h with
  | alltoallv t' send' sendCount' recvCount' mem' k' h hmatch hrest =>
      have htag : t = t' := by
        have := (hP 0 hp).symm.trans (h 0 hp)
        simp only [Prog.alltoallv.injEq] at this
        exact this.1
      subst htag
      have heq : ∀ r, r < p → send r = send' r ∧ sendCount r = sendCount' r ∧
          recvCount r = recvCount' r ∧ mem r = mem' r ∧ k r = k' r := by
        intro r hr
        have := (hP r hr).symm.trans (h r hr)
        simpa using this
      refine ⟨fun r q hr hq => ?_, hrest.congr fun r hr => ?_⟩
      · rw [(heq q hq).2.1, (heq r hr).2.2.1]
        exact hmatch r q hr hq
      · obtain ⟨_, _, hrecv, hmem, hk⟩ := heq r hr
        rw [hk, exchanged_congr (fun q hq => (heq q hq).1) (fun q hq => (heq q hq).2.1) hrecv hmem]
  | ret h => cases (h 0 hp).symm.trans (hP 0 hp)
  | allsum x k h => cases (h 0 hp).symm.trans (hP 0 hp)
  | allgather x k h => cases (h 0 hp).symm.trans (hP 0 hp)
  | allgatherv counts mine mem k h => cases (h 0 hp).symm.trans (hP 0 hp)
  | alltoall send k h => cases (h 0 hp).symm.trans (hP 0 hp)
  | bcast t n buf k h => cases (h 0 hp).symm.trans (hP 0 hp)
  | reduce t op n input mem k h => cases (h 0 hp).symm.trans (hP 0 hp)

theorem runs_bcast_iff {t : Tag} {n : Nat} {buf : Nat → Nat → Elem t}
    {k : Nat → (Nat → Elem t) → Prog Elem ε α} (hp : 0 < p)
    (hP : ∀ r, r < p → P r = .bcast t n (buf r) (k r)) :
    Runs p P out ↔ Runs p (fun r => k r (broadcast n buf r)) out := by
  refine ⟨fun h => ?_, fun h => .bcast t n buf k hP h⟩
  cases h with
  | bcast t' n' buf' k' h hrest =>
      have hcall := (hP 0 hp).symm.trans (h 0 hp)
      simp only [Prog.bcast.injEq] at hcall
      obtain ⟨htag, hn, -⟩ := hcall
      subst htag hn
      have heq : ∀ r, r < p → buf r = buf' r ∧ k r = k' r := by
        intro r hr
        have := (hP r hr).symm.trans (h r hr)
        simpa using this
      refine hrest.congr fun r hr => ?_
      rw [(heq r hr).2, broadcast_congr hr fun q hq => (heq q hq).1]
  | ret h => cases (h 0 hp).symm.trans (hP 0 hp)
  | allsum x k h => cases (h 0 hp).symm.trans (hP 0 hp)
  | allgather x k h => cases (h 0 hp).symm.trans (hP 0 hp)
  | allgatherv counts mine mem k h => cases (h 0 hp).symm.trans (hP 0 hp)
  | alltoall send k h => cases (h 0 hp).symm.trans (hP 0 hp)
  | alltoallv t send sendCount recvCount mem k h => cases (h 0 hp).symm.trans (hP 0 hp)
  | reduce t op n input mem k h => cases (h 0 hp).symm.trans (hP 0 hp)

theorem runs_reduce_iff {t : Tag} {op : Elem t → Elem t → Elem t} {n : Nat}
    {input mem : Nat → Nat → Elem t} {k : Nat → (Nat → Elem t) → Prog Elem ε α} (hp : 0 < p)
    (hP : ∀ r, r < p → P r = .reduce t op n (input r) (mem r) (k r)) :
    Runs p P out ↔ Runs p (fun r => k r (reduced p op n input mem r)) out := by
  refine ⟨fun h => ?_, fun h => .reduce t op n input mem k hP h⟩
  cases h with
  | reduce t' op' n' input' mem' k' h hrest =>
      have hcall := (hP 0 hp).symm.trans (h 0 hp)
      simp only [Prog.reduce.injEq] at hcall
      obtain ⟨htag, hop, hn, -⟩ := hcall
      subst htag hn
      obtain rfl := eq_of_heq hop
      have heq : ∀ r, r < p → input r = input' r ∧ mem r = mem' r ∧ k r = k' r := by
        intro r hr
        have := (hP r hr).symm.trans (h r hr)
        simpa using this
      refine hrest.congr fun r hr => ?_
      rw [(heq r hr).2.2, reduced_congr hp (fun q hq => (heq q hq).1) (heq r hr).2.1]
  | ret h => cases (h 0 hp).symm.trans (hP 0 hp)
  | allsum x k h => cases (h 0 hp).symm.trans (hP 0 hp)
  | allgather x k h => cases (h 0 hp).symm.trans (hP 0 hp)
  | allgatherv counts mine mem k h => cases (h 0 hp).symm.trans (hP 0 hp)
  | alltoall send k h => cases (h 0 hp).symm.trans (hP 0 hp)
  | alltoallv t send sendCount recvCount mem k h => cases (h 0 hp).symm.trans (hP 0 hp)
  | bcast t n buf k h => cases (h 0 hp).symm.trans (hP 0 hp)

/-- Ranks in a run broadcast elements of the same tag. -/
theorem Runs.broadcasts {r : Nat} {t : Tag} (h : Runs p P out) (hr : r < p)
    (hP : (P r).Broadcasts t) : ∀ q, q < p → (P q).Broadcasts t := by
  intro q hq
  cases h with
  | bcast t' n buf k h =>
      rw [h r hr] at hP
      rw [h q hq]
      exact hP
  | ret h => rw [h r hr] at hP; exact hP.elim
  | allsum x k h => rw [h r hr] at hP; exact hP.elim
  | allgather x k h => rw [h r hr] at hP; exact hP.elim
  | allgatherv counts mine mem k h => rw [h r hr] at hP; exact hP.elim
  | alltoall send k h => rw [h r hr] at hP; exact hP.elim
  | alltoallv t' send sendCount recvCount mem k h => rw [h r hr] at hP; exact hP.elim
  | reduce t' op n input mem k h => rw [h r hr] at hP; exact hP.elim

end Inversion

/-- **Runs are deterministic.** -/
theorem Runs.unique {p : Nat} {P : Nat → Prog Elem ε α} {out out' : Nat → α} (h : Runs p P out)
    (h' : Runs p P out') : ∀ r, r < p → out r = out' r := by
  intro r hr
  have hp : 0 < p := by omega
  induction h with
  | ret hP => exact ((runs_ret_iff hp hP).mp h' r hr).symm
  | allsum x k hP _ ih => exact ih ((runs_allsum_iff hp hP).mp h')
  | allgather x k hP _ ih => exact ih ((runs_allgather_iff hp hP).mp h')
  | allgatherv counts mine mem k hP _ _ ih => exact ih ((runs_allgatherv_iff hp hP).mp h').2
  | alltoall send k hP _ ih => exact ih ((runs_alltoall_iff hp hP).mp h')
  | alltoallv t send sendCount recvCount mem k hP _ _ ih =>
      exact ih ((runs_alltoallv_iff hp hP).mp h').2
  | bcast t n buf k hP _ ih => exact ih ((runs_bcast_iff hp hP).mp h')
  | reduce t op n input mem k hP _ ih => exact ih ((runs_reduce_iff hp hP).mp h')

/-- Two phases one after the other. -/
theorem Runs.bind {p : Nat} {P : Nat → Prog Elem ε α} {f : Nat → α → Prog Elem ε β}
    {mid : Nat → α} {out : Nat → β} (h : Runs p P mid)
    (h' : Runs p (fun r => f r (mid r)) out) : Runs p (fun r => (P r).bind (f r)) out := by
  induction h with
  | ret hP =>
      refine h'.congr fun r hr => ?_
      rw [hP r hr, Prog.ret_bind]
  | allsum x k hP _ ih =>
      exact .allsum x (fun r v => (k r v).bind (f r)) (fun r hr => by rw [hP r hr]; rfl) (ih h')
  | allgather x k hP _ ih =>
      exact .allgather x (fun r v => (k r v).bind (f r)) (fun r hr => by rw [hP r hr]; rfl) (ih h')
  | allgatherv counts mine mem k hP hcounts _ ih =>
      exact .allgatherv counts mine mem (fun r v => (k r v).bind (f r))
        (fun r hr => by rw [hP r hr]; rfl) hcounts (ih h')
  | alltoall send k hP _ ih =>
      exact .alltoall send (fun r v => (k r v).bind (f r)) (fun r hr => by rw [hP r hr]; rfl) (ih h')
  | alltoallv t send sendCount recvCount mem k hP hmatch _ ih =>
      exact .alltoallv t send sendCount recvCount mem (fun r v => (k r v).bind (f r))
        (fun r hr => by rw [hP r hr]; rfl) hmatch (ih h')
  | bcast t n buf k hP _ ih =>
      exact .bcast t n buf (fun r v => (k r v).bind (f r)) (fun r hr => by rw [hP r hr]; rfl) (ih h')
  | reduce t op n input mem k hP _ ih =>
      exact .reduce t op n input mem (fun r v => (k r v).bind (f r))
        (fun r hr => by rw [hP r hr]; rfl) (ih h')

/-- After a first phase whose run is known, only the second is left. -/
theorem Runs.bind_iff {p : Nat} {P : Nat → Prog Elem ε α} {f : Nat → α → Prog Elem ε β}
    {mid : Nat → α} {out : Nat → β} (hp : 0 < p) (h : Runs p P mid) :
    Runs p (fun r => (P r).bind (f r)) out ↔ Runs p (fun r => f r (mid r)) out := by
  refine ⟨fun hb => ?_, fun h' => h.bind h'⟩
  induction h with
  | ret hP =>
      apply hb.congr
      intro r hr
      rw [hP r hr, Prog.ret_bind]
  | allsum x k hP _ ih =>
      exact ih ((runs_allsum_iff hp fun r hr => by rw [hP r hr]; rfl).mp hb)
  | allgather x k hP _ ih =>
      exact ih ((runs_allgather_iff hp fun r hr => by rw [hP r hr]; rfl).mp hb)
  | allgatherv counts mine mem k hP _ _ ih =>
      exact ih ((runs_allgatherv_iff hp fun r hr => by rw [hP r hr]; rfl).mp hb).2
  | alltoall send k hP _ ih =>
      exact ih ((runs_alltoall_iff hp fun r hr => by rw [hP r hr]; rfl).mp hb)
  | alltoallv t send sendCount recvCount mem k hP _ _ ih =>
      exact ih ((runs_alltoallv_iff hp fun r hr => by rw [hP r hr]; rfl).mp hb).2
  | bcast t n buf k hP _ ih =>
      exact ih ((runs_bcast_iff hp fun r hr => by rw [hP r hr]; rfl).mp hb)
  | reduce t op n input mem k hP _ ih =>
      exact ih ((runs_reduce_iff hp fun r hr => by rw [hP r hr]; rfl).mp hb)

/-- Before the first call of a run every rank succeeds on its own. -/
theorem runs_lift_bind_iff {p : Nat} {x : Nat → Except ε α} {f : Nat → α → Prog Elem ε β}
    {out : Nat → β} (hp : 0 < p) :
    Runs p (fun r => (Prog.lift (x r)).bind (f r)) out ↔
      ∃ a : Nat → α, (∀ r, r < p → x r = .ok (a r)) ∧ Runs p (fun r => f r (a r)) out := by
  constructor
  · intro h
    have hok : ∀ r, r < p → ∃ a, x r = .ok a := by
      intro r hr
      cases hx : x r with
      | ok a => exact ⟨a, rfl⟩
      | error e => exact absurd h (not_runs_of_fail (e := e) hr (by rw [hx]; rfl))
    have : Nonempty α := (hok 0 hp).nonempty
    choose! a ha using hok
    exact ⟨a, ha, h.congr fun r hr => by rw [ha r hr]; rfl⟩
  · rintro ⟨a, ha, h⟩
    exact h.congr fun r hr => by rw [ha r hr]; rfl

theorem runs_lift_iff {p : Nat} {x : Nat → Except ε α} {out : Nat → α} (hp : 0 < p) :
    Runs p (fun r => (Prog.lift (x r) : Prog Elem ε α)) out ↔ ∀ r, r < p → x r = .ok (out r) := by
  constructor
  · intro h
    have hbind : Runs p (fun r => (Prog.lift (x r) : Prog Elem ε α).bind Prog.ret) out :=
      h.congr fun r _ => Prog.bind_ret _
    obtain ⟨a, ha, hret⟩ := (runs_lift_bind_iff hp).mp hbind
    have hout := (runs_ret_iff hp fun r _ => rfl).mp hret
    intro r hr
    rw [ha r hr, hout r hr]
  · exact fun h => .ret fun r hr => by rw [h r hr]; rfl

/-! ## Programs that cannot meet -/

namespace Prog

/-- The program fails or returns after exactly `m` collective calls. -/
def Calls : Nat → Prog Elem ε α → Prop
  | m, ret _ => m = 0
  | _, fail _ => True
  | m, allsum _ k => ∃ m', m = m' + 1 ∧ ∀ v, (k v).Calls m'
  | m, allgather _ k => ∃ m', m = m' + 1 ∧ ∀ v, (k v).Calls m'
  | m, allgatherv _ _ _ k => ∃ m', m = m' + 1 ∧ ∀ v, (k v).Calls m'
  | m, alltoall _ k => ∃ m', m = m' + 1 ∧ ∀ v, (k v).Calls m'
  | m, alltoallv _ _ _ _ _ k => ∃ m', m = m' + 1 ∧ ∀ v, (k v).Calls m'
  | m, bcast _ _ _ k => ∃ m', m = m' + 1 ∧ ∀ v, (k v).Calls m'
  | m, reduce _ _ _ _ _ k => ∃ m', m = m' + 1 ∧ ∀ v, (k v).Calls m'

/-- The program fails, whatever the calls give back. -/
def Doomed : Prog Elem ε α → Prop
  | ret _ => False
  | fail _ => True
  | allsum _ k => ∀ v, (k v).Doomed
  | allgather _ k => ∀ v, (k v).Doomed
  | allgatherv _ _ _ k => ∀ v, (k v).Doomed
  | alltoall _ k => ∀ v, (k v).Doomed
  | alltoallv _ _ _ _ _ k => ∀ v, (k v).Doomed
  | bcast _ _ _ k => ∀ v, (k v).Doomed
  | reduce _ _ _ _ _ k => ∀ v, (k v).Doomed

theorem Calls.bind {P : Prog Elem ε α} {f : α → Prog Elem ε β} {m m' : Nat} (h : P.Calls m)
    (hf : ∀ a, (f a).Calls m') : (P.bind f).Calls (m + m') := by
  induction P generalizing m with
  | ret a =>
      simp only [Calls] at h
      subst h
      rw [Nat.zero_add]
      exact hf a
  | fail e => exact trivial
  | allsum x k ih =>
      obtain ⟨n, rfl, hk⟩ := h
      exact ⟨n + m', by omega, fun v => ih v (hk v)⟩
  | allgather x k ih =>
      obtain ⟨n, rfl, hk⟩ := h
      exact ⟨n + m', by omega, fun v => ih v (hk v)⟩
  | allgatherv counts mine mem k ih =>
      obtain ⟨n, rfl, hk⟩ := h
      exact ⟨n + m', by omega, fun v => ih v (hk v)⟩
  | alltoall send k ih =>
      obtain ⟨n, rfl, hk⟩ := h
      exact ⟨n + m', by omega, fun v => ih v (hk v)⟩
  | alltoallv t send sendCount recvCount mem k ih =>
      obtain ⟨n, rfl, hk⟩ := h
      exact ⟨n + m', by omega, fun v => ih v (hk v)⟩
  | bcast t n buf k ih =>
      obtain ⟨n, rfl, hk⟩ := h
      exact ⟨n + m', by omega, fun v => ih v (hk v)⟩
  | reduce t op n input mem k ih =>
      obtain ⟨n, rfl, hk⟩ := h
      exact ⟨n + m', by omega, fun v => ih v (hk v)⟩

theorem calls_lift (x : Except ε α) : (lift x : Prog Elem ε α).Calls 0 := by
  cases x with
  | ok a => rfl
  | error e => trivial

theorem Doomed.bind {P : Prog Elem ε α} (h : P.Doomed) (f : α → Prog Elem ε β) :
    (P.bind f).Doomed := by
  induction P with
  | ret a => exact h.elim
  | fail e => trivial
  | allsum x k ih => exact fun v => ih v (h v)
  | allgather x k ih => exact fun v => ih v (h v)
  | allgatherv counts mine mem k ih => exact fun v => ih v (h v)
  | alltoall send k ih => exact fun v => ih v (h v)
  | alltoallv t send sendCount recvCount mem k ih => exact fun v => ih v (h v)
  | bcast t n buf k ih => exact fun v => ih v (h v)
  | reduce t op n input mem k ih => exact fun v => ih v (h v)

theorem doomed_lift_bind {x : Except ε α} {f : α → Prog Elem ε β} (h : ∃ e, x = .error e) :
    ((lift x : Prog Elem ε α).bind f).Doomed := by
  obtain ⟨e, rfl⟩ := h
  trivial

/-- A phase that reaches a doomed one is doomed. -/
theorem Doomed.of_bind {P : Prog Elem ε α} {f : α → Prog Elem ε β} (hf : ∀ a, (f a).Doomed) :
    (P.bind f).Doomed := by
  induction P with
  | ret a => exact hf a
  | fail e => trivial
  | allsum x k ih => exact ih
  | allgather x k ih => exact ih
  | allgatherv counts mine mem k ih => exact ih
  | alltoall send k ih => exact ih
  | alltoallv t send sendCount recvCount mem k ih => exact ih
  | bcast t n buf k ih => exact ih
  | reduce t op n input mem k ih => exact ih

end Prog

/-- In a run all ranks make the same number of calls. -/
theorem Runs.calls_eq {p : Nat} {P : Nat → Prog Elem ε α} {out : Nat → α} (h : Runs p P out)
    {r r' m m' : Nat} (hr : r < p) (hr' : r' < p) (hm : (P r).Calls m) (hm' : (P r').Calls m') :
    m = m' := by
  induction h generalizing m m' with
  | ret hP =>
      rw [hP r hr] at hm
      rw [hP r' hr'] at hm'
      exact Eq.trans hm (Eq.symm hm')
  | allsum x k hP _ ih =>
      rw [hP r hr] at hm
      rw [hP r' hr'] at hm'
      obtain ⟨n, rfl, hn⟩ := hm
      obtain ⟨n', rfl, hn'⟩ := hm'
      rw [ih (hn _) (hn' _)]
  | allgather x k hP _ ih =>
      rw [hP r hr] at hm
      rw [hP r' hr'] at hm'
      obtain ⟨n, rfl, hn⟩ := hm
      obtain ⟨n', rfl, hn'⟩ := hm'
      rw [ih (hn _) (hn' _)]
  | allgatherv counts mine mem k hP _ _ ih =>
      rw [hP r hr] at hm
      rw [hP r' hr'] at hm'
      obtain ⟨n, rfl, hn⟩ := hm
      obtain ⟨n', rfl, hn'⟩ := hm'
      rw [ih (hn _) (hn' _)]
  | alltoall send k hP _ ih =>
      rw [hP r hr] at hm
      rw [hP r' hr'] at hm'
      obtain ⟨n, rfl, hn⟩ := hm
      obtain ⟨n', rfl, hn'⟩ := hm'
      rw [ih (hn _) (hn' _)]
  | alltoallv t send sendCount recvCount mem k hP _ _ ih =>
      rw [hP r hr] at hm
      rw [hP r' hr'] at hm'
      obtain ⟨n, rfl, hn⟩ := hm
      obtain ⟨n', rfl, hn'⟩ := hm'
      rw [ih (hn _) (hn' _)]
  | bcast t n buf k hP _ ih =>
      rw [hP r hr] at hm
      rw [hP r' hr'] at hm'
      obtain ⟨n, rfl, hn⟩ := hm
      obtain ⟨n', rfl, hn'⟩ := hm'
      rw [ih (hn _) (hn' _)]
  | reduce t op n input mem k hP _ ih =>
      rw [hP r hr] at hm
      rw [hP r' hr'] at hm'
      obtain ⟨n, rfl, hn⟩ := hm
      obtain ⟨n', rfl, hn'⟩ := hm'
      rw [ih (hn _) (hn' _)]

/-- A doomed rank has no run. -/
theorem Runs.not_doomed {p : Nat} {P : Nat → Prog Elem ε α} {out : Nat → α} (h : Runs p P out)
    {r : Nat} (hr : r < p) : ¬ (P r).Doomed := by
  induction h with
  | ret hP =>
      rw [hP r hr]
      exact id
  | allsum x k hP _ ih =>
      rw [hP r hr]
      exact fun hd => ih (hd _)
  | allgather x k hP _ ih =>
      rw [hP r hr]
      exact fun hd => ih (hd _)
  | allgatherv counts mine mem k hP _ _ ih =>
      rw [hP r hr]
      exact fun hd => ih (hd _)
  | alltoall send k hP _ ih =>
      rw [hP r hr]
      exact fun hd => ih (hd _)
  | alltoallv t send sendCount recvCount mem k hP _ _ ih =>
      rw [hP r hr]
      exact fun hd => ih (hd _)
  | bcast t n buf k hP _ ih =>
      rw [hP r hr]
      exact fun hd => ih (hd _)
  | reduce t op n input mem k hP _ ih =>
      rw [hP r hr]
      exact fun hd => ih (hd _)

/-! ## What one rank guarantees -/

namespace Prog

/-- Whatever the calls give back, the program fails or returns what `good`
says. -/
def Ensures (good : α → Prop) : Prog Elem ε α → Prop
  | ret a => good a
  | fail _ => True
  | allsum _ k => ∀ v, (k v).Ensures good
  | allgather _ k => ∀ v, (k v).Ensures good
  | allgatherv _ _ _ k => ∀ v, (k v).Ensures good
  | alltoall _ k => ∀ v, (k v).Ensures good
  | alltoallv _ _ _ _ _ k => ∀ v, (k v).Ensures good
  | bcast _ _ _ k => ∀ v, (k v).Ensures good
  | reduce _ _ _ _ _ k => ∀ v, (k v).Ensures good

theorem ensures_lift {x : Except ε α} {good : α → Prop} (h : ∀ a, x = .ok a → good a) :
    (lift x : Prog Elem ε α).Ensures good := by
  cases x with
  | ok a => exact h a rfl
  | error e => trivial

theorem Ensures.bind {P : Prog Elem ε α} {f : α → Prog Elem ε β} {mid : α → Prop}
    {good : β → Prop} (h : P.Ensures mid) (hf : ∀ a, mid a → (f a).Ensures good) :
    (P.bind f).Ensures good := by
  induction P with
  | ret a => exact hf a h
  | fail e => trivial
  | allsum x k ih => exact fun v => ih v (h v)
  | allgather x k ih => exact fun v => ih v (h v)
  | allgatherv counts mine mem k ih => exact fun v => ih v (h v)
  | alltoall send k ih => exact fun v => ih v (h v)
  | alltoallv t send sendCount recvCount mem k ih => exact fun v => ih v (h v)
  | bcast t n buf k ih => exact fun v => ih v (h v)
  | reduce t op n input mem k ih => exact fun v => ih v (h v)

theorem Ensures.imp {P : Prog Elem ε α} {good good' : α → Prop} (h : P.Ensures good)
    (himp : ∀ a, good a → good' a) : P.Ensures good' := by
  have hret := h.bind (f := ret) fun a ha => show (ret a : Prog Elem ε α).Ensures good' from himp a ha
  rwa [bind_ret] at hret

theorem ensures_true (P : Prog Elem ε α) : P.Ensures fun _ => True := by
  induction P with
  | ret a => trivial
  | fail e => trivial
  | allsum x k ih => exact ih
  | allgather x k ih => exact ih
  | allgatherv counts mine mem k ih => exact ih
  | alltoall send k ih => exact ih
  | alltoallv t send sendCount recvCount mem k ih => exact ih
  | bcast t n buf k ih => exact ih
  | reduce t op n input mem k ih => exact ih

end Prog

/-- What a rank guarantees on its own holds of its result in every run. -/
theorem Runs.ensures {p : Nat} {P : Nat → Prog Elem ε α} {out : Nat → α} (h : Runs p P out)
    {r : Nat} (hr : r < p) {good : α → Prop} (hgood : (P r).Ensures good) : good (out r) := by
  induction h with
  | ret hP =>
      rw [hP r hr] at hgood
      exact hgood
  | allsum x k hP _ ih =>
      rw [hP r hr] at hgood
      exact ih (hgood _)
  | allgather x k hP _ ih =>
      rw [hP r hr] at hgood
      exact ih (hgood _)
  | allgatherv counts mine mem k hP _ _ ih =>
      rw [hP r hr] at hgood
      exact ih (hgood _)
  | alltoall send k hP _ ih =>
      rw [hP r hr] at hgood
      exact ih (hgood _)
  | alltoallv t send sendCount recvCount mem k hP _ _ ih =>
      rw [hP r hr] at hgood
      exact ih (hgood _)
  | bcast t n buf k hP _ ih =>
      rw [hP r hr] at hgood
      exact ih (hgood _)
  | reduce t op n input mem k hP _ ih =>
      rw [hP r hr] at hgood
      exact ih (hgood _)

/-- The program has a run, and every run of it ends with what `good` says. -/
def Yields (p : Nat) (P : Nat → Prog Elem ε α) (good : (Nat → α) → Prop) : Prop :=
  (∃ out, Runs p P out) ∧ ∀ out, Runs p P out → good out

/-- One run is enough for a property of the results of the ranks. -/
theorem Runs.yields {p : Nat} {P : Nat → Prog Elem ε α} {out : Nat → α}
    {good : (Nat → α) → Prop} (h : Runs p P out)
    (hgood : ∀ out', (∀ r, r < p → out' r = out r) → good out') : Yields p P good :=
  ⟨⟨out, h⟩, fun out' h' => hgood out' (h'.unique h)⟩

/-- The rule for sequencing. -/
theorem Yields.bind {p : Nat} {P : Nat → Prog Elem ε α} {f : Nat → α → Prog Elem ε β}
    {mid : (Nat → α) → Prop} {good : (Nat → β) → Prop} (hp : 0 < p) (h : Yields p P mid)
    (hrest : ∀ a, mid a → Yields p (fun r => f r (a r)) good) :
    Yields p (fun r => (P r).bind (f r)) good := by
  obtain ⟨⟨a, hrun⟩, hmid⟩ := h
  obtain ⟨⟨out, hout⟩, hgood⟩ := hrest a (hmid a hrun)
  refine ⟨⟨out, (hrun.bind_iff hp).mpr hout⟩, fun out' h' => ?_⟩
  exact hgood out' ((hrun.bind_iff hp).mp h')

/-- The rule for a step without communication. -/
theorem yields_lift_bind {p : Nat} {x : Nat → Except ε α} {f : Nat → α → Prog Elem ε β}
    {a : Nat → α} {good : (Nat → β) → Prop} (hp : 0 < p) (ha : ∀ r, r < p → x r = .ok (a r))
    (hrest : Yields p (fun r => f r (a r)) good) :
    Yields p (fun r => (Prog.lift (x r)).bind (f r)) good := by
  have hstep : ∀ out, Runs p (fun r => (Prog.lift (x r)).bind (f r)) out ↔
      Runs p (fun r => f r (a r)) out := by
    intro out
    rw [runs_lift_bind_iff hp]
    constructor
    · intro h
      obtain ⟨a', ha', hrun⟩ := h
      exact hrun.congr fun r hr => by rw [Except.ok.inj ((ha r hr).symm.trans (ha' r hr))]
    · exact fun hrun => ⟨a, ha, hrun⟩
  obtain ⟨⟨out, hout⟩, hgood⟩ := hrest
  exact ⟨⟨out, (hstep out).mpr hout⟩, fun out' h' => hgood out' ((hstep out').mp h')⟩

/-! ## Exchanging records -/

/-- With counts that match, the `j`-th record that `r` receives from `q` is
the `j`-th record that `q` sends to `r`. -/
theorem exchanged_record {γ : Type} {p n : Nat} {send mem : Nat → Nat → γ}
    {sendSize recvSize : Nat → Nat → Nat} {r q j l : Nat} (hq : q < p)
    (hj : j < recvSize r q) (hl : l < n) :
    exchanged p send (fun q r => n * sendSize q r) (fun r q => n * recvSize r q) mem r
        (l + n * (start (recvSize r) q + j)) =
      send q (l + n * (start (sendSize q) r + j)) := by
  have hplace : l + n * (start (recvSize r) q + j) =
      start (fun q => n * recvSize r q) q + (l + n * j) := by
    rw [start_mul]
    ring
  have hin : l + n * j < n * recvSize r q := by
    calc l + n * j < n + n * j := by omega
      _ = n * (j + 1) := by ring
      _ ≤ n * recvSize r q := Nat.mul_le_mul_left n hj
  unfold exchanged
  rw [hplace, locate_start_add hq hin]
  simp only [start_mul]
  congr 1
  ring

/-! ## One rank alone -/

/-- What a rank that runs alone returns. -/
def Prog.alone : Prog Elem ε α → Option α
  | .ret a => some a
  | .fail _ => none
  | .allsum x k => (k x).alone
  | .allgather x k => (k (onRanks 1 fun _ => x)).alone
  | .allgatherv counts mine mem k => (k (gathered 1 counts (fun _ => mine) mem)).alone
  | .alltoall send k => (k (onRanks 1 fun _ => send 0)).alone
  | .alltoallv _ send sendCount recvCount mem k =>
      if sendCount 0 = recvCount 0 then
        (k (exchanged 1 (fun _ => send) (fun _ => sendCount) (fun _ => recvCount)
          (fun _ => mem) 0)).alone
      else none
  | .bcast _ n buf k => (k (broadcast n (fun _ => buf) 0)).alone
  | .reduce _ op n input mem k => (k (reduced 1 op n (fun _ => input) (fun _ => mem) 0)).alone

@[simp] theorem Prog.alone_ret (a : α) : (ret a : Prog Elem ε α).alone = some a := rfl

theorem Prog.alone_bind (P : Prog Elem ε α) (f : α → Prog Elem ε β) :
    (P.bind f).alone = P.alone.bind fun a => (f a).alone := by
  induction P with
  | ret a => rfl
  | fail e => rfl
  | allsum x k ih => exact ih _
  | allgather x k ih => exact ih _
  | allgatherv counts mine mem k ih => exact ih _
  | alltoall send k ih => exact ih _
  | alltoallv t send sendCount recvCount mem k ih =>
      simp only [Prog.bind, alone]
      split
      · exact ih _
      · rfl
  | bcast t n buf k ih => exact ih _
  | reduce t op n input mem k ih => exact ih _

theorem Prog.alone_lift {x : Except ε α} {a : α} (h : x = .ok a) :
    (lift x : Prog Elem ε α).alone = some a := by
  rw [h, lift_ok, alone_ret]

theorem Prog.alone_lift_iff {x : Except ε α} {a : α} :
    (lift x : Prog Elem ε α).alone = some a ↔ x = .ok a := by
  constructor
  · intro h
    cases x with
    | error e => cases h
    | ok b => rw [Option.some.inj h]
  · exact alone_lift

/-- **The run of one rank.** -/
theorem Prog.runs_of_alone {P : Prog Elem ε α} {a : α} (h : P.alone = some a) :
    Runs 1 (fun _ => P) fun _ => a := by
  induction P with
  | ret b =>
      obtain rfl : b = a := Option.some.inj h
      exact .ret fun _ _ => rfl
  | fail e => cases h
  | allsum x k ih =>
      refine .allsum (fun _ => x) (fun _ => k) (fun _ _ => rfl) ?_
      rw [Finset.sum_range_one]
      exact ih _ h
  | allgather x k ih => exact .allgather (fun _ => x) (fun _ => k) (fun _ _ => rfl) (ih _ h)
  | allgatherv counts mine mem k ih =>
      exact .allgatherv (fun _ => counts) (fun _ => mine) (fun _ => mem) (fun _ => k)
        (fun _ _ => rfl) (fun _ _ _ _ => rfl) (ih _ h)
  | alltoall send k ih =>
      refine .alltoall (fun _ => send) (fun _ => k) (fun _ _ => rfl) ((ih _ h).congr ?_)
      intro r hr
      obtain rfl : r = 0 := by omega
      rfl
  | alltoallv t send sendCount recvCount mem k ih =>
      simp only [alone] at h
      split at h
      · rename_i hmatch
        refine .alltoallv t (fun _ => send) (fun _ => sendCount) (fun _ => recvCount) (fun _ => mem)
          (fun _ => k) (fun _ _ => rfl) (fun r q hr hq => ?_) ((ih _ h).congr ?_)
        · obtain rfl : r = 0 := by omega
          obtain rfl : q = 0 := by omega
          exact hmatch
        · intro r hr
          obtain rfl : r = 0 := by omega
          rfl
      · cases h
  | bcast t n buf k ih =>
      exact .bcast t n (fun _ => buf) (fun _ => k) (fun _ _ => rfl) ((ih _ h).congr fun _ _ => rfl)
  | reduce t op n input mem k ih =>
      refine .reduce t op n (fun _ => input) (fun _ => mem) (fun _ => k) (fun _ _ => rfl)
        ((ih _ h).congr ?_)
      intro r hr
      obtain rfl : r = 0 := by omega
      rfl

/-- What one rank returns is what it returns alone. -/
theorem Prog.alone_of_runs {P : Prog Elem ε α} {out : Nat → α} (h : Runs 1 (fun _ => P) out) :
    P.alone = some (out 0) := by
  have hfirst : ∀ {Q : Nat → Prog Elem ε α}, Runs 1 Q out → Runs 1 (fun _ => Q 0) out := by
    intro Q hQ
    refine hQ.congr fun r hr => ?_
    obtain rfl : r = 0 := by omega
    rfl
  induction P with
  | ret a =>
      have hret := (runs_ret_iff Nat.one_pos fun _ _ => rfl).mp h
      rw [alone_ret, hret 0 Nat.one_pos]
  | fail e =>
      cases h with
      | ret hP => cases hP 0 Nat.one_pos
      | allsum _ _ hP => cases hP 0 Nat.one_pos
      | allgather _ _ hP => cases hP 0 Nat.one_pos
      | allgatherv _ _ _ _ hP => cases hP 0 Nat.one_pos
      | alltoall _ _ hP => cases hP 0 Nat.one_pos
      | alltoallv _ _ _ _ _ _ hP => cases hP 0 Nat.one_pos
      | bcast _ _ _ _ hP => cases hP 0 Nat.one_pos
      | reduce _ _ _ _ _ _ hP => cases hP 0 Nat.one_pos
  | allsum x k ih =>
      have hrest := (runs_allsum_iff Nat.one_pos fun _ _ => rfl).mp h
      rw [Finset.sum_range_one] at hrest
      exact ih _ hrest
  | allgather x k ih => exact ih _ ((runs_allgather_iff Nat.one_pos fun _ _ => rfl).mp h)
  | allgatherv counts mine mem k ih =>
      exact ih _ ((runs_allgatherv_iff Nat.one_pos fun _ _ => rfl).mp h).2
  | alltoall send k ih => exact ih _ (hfirst ((runs_alltoall_iff Nat.one_pos fun _ _ => rfl).mp h))
  | alltoallv t send sendCount recvCount mem k ih =>
      obtain ⟨hmatch, hrest⟩ := (runs_alltoallv_iff Nat.one_pos fun _ _ => rfl).mp h
      rw [alone, if_pos (hmatch 0 0 Nat.one_pos Nat.one_pos)]
      exact ih _ (hfirst hrest)
  | bcast t n buf k ih => exact ih _ (hfirst ((runs_bcast_iff Nat.one_pos fun _ _ => rfl).mp h))
  | reduce t op n input mem k ih =>
      exact ih _ (hfirst ((runs_reduce_iff Nat.one_pos fun _ _ => rfl).mp h))

end Spmd
