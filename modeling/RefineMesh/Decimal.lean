import Mathlib.Tactic
import RefineMesh.Binary

/-!
# Numbers in text files

An integer printed in decimal and the reader that skips blanks and takes the
longest run of digits.  A printed number is read back wherever it stands, with
blanks before it and no digit behind it.
-/

namespace Decimal

open Binary

/-- The digits of a number in ASCII. -/
def natText (n : Nat) : List UInt8 :=
  if n = 0 then [48] else (Nat.digits 10 n).reverse.map fun d => UInt8.ofNat (48 + d)

/-- `printf("%ld", x)`. -/
def intText (x : Int) : List UInt8 :=
  if x < 0 then 45 :: natText x.natAbs else natText x.natAbs

/-- What `isspace` accepts. -/
def isSpace (b : UInt8) : Bool := b = 32 || (9 ≤ b && b ≤ 13)

/-- An ASCII digit. -/
def isDigit (b : UInt8) : Bool := 48 ≤ b && b ≤ 57

/-- The number that a run of digits denotes. -/
def digitsValue (ds : List UInt8) : Nat := ds.foldl (fun n b => 10 * n + (b.toNat - 48)) 0

/-- The number in front of `text` and how many bytes it takes: blanks, a sign
and digits. -/
def scanText (text : List UInt8) : Option (Int × Nat) :=
  let blanks := (text.takeWhile isSpace).length
  let body := text.drop blanks
  let sign : Nat := if body.head? = some 45 ∨ body.head? = some 43 then 1 else 0
  let ds := (body.drop sign).takeWhile isDigit
  if ds = [] then none
  else
    some (if body.head? = some 45 then -(digitsValue ds : Int) else digitsValue ds,
      blanks + sign + ds.length)

/-- `fscanf("%d")`, with `e` for text that is no number. -/
def scanInt {ε : Type} (e : ε) : Reader ε Int := fun file pos =>
  match scanText (file.drop pos) with
  | some (x, len) => .ok (x, pos + len)
  | none => .error e

/-! ## Printed numbers are read back -/

theorem toNat_digit {d : Nat} (hd : d < 10) : (UInt8.ofNat (48 + d)).toNat = 48 + d := by
  rw [UInt8.toNat_ofNat']
  omega

theorem isDigit_digit {d : Nat} (hd : d < 10) : isDigit (UInt8.ofNat (48 + d)) = true := by
  interval_cases d <;> decide

theorem isDigit_natText (n : Nat) : ∀ b ∈ natText n, isDigit b = true := by
  intro b hb
  by_cases hn : n = 0
  · rw [natText, if_pos hn, List.mem_singleton] at hb
    rw [hb]
    decide
  · rw [natText, if_neg hn] at hb
    obtain ⟨d, hd, rfl⟩ := List.mem_map.mp hb
    exact isDigit_digit (Nat.digits_lt_base (by norm_num) (List.mem_reverse.mp hd))

theorem natText_ne_nil (n : Nat) : natText n ≠ [] := by
  by_cases hn : n = 0
  · simp [natText, hn]
  · simp [natText, hn, Nat.digits_ne_nil_iff_ne_zero]

theorem digitsValue_natText (n : Nat) : digitsValue (natText n) = n := by
  by_cases hn : n = 0
  · subst hn
    rfl
  have hfold : ∀ l : List Nat, (∀ d ∈ l, d < 10) →
      digitsValue (l.reverse.map fun d => UInt8.ofNat (48 + d)) = Nat.ofDigits 10 l := by
    intro l
    induction l with
    | nil => intro _; rfl
    | cons d rest ih =>
        intro hlt
        have hrest := ih fun a ha => hlt a (List.mem_cons_of_mem d ha)
        rw [digitsValue] at hrest ⊢
        simp only [List.reverse_cons, List.map_append, List.map_cons, List.map_nil,
          List.foldl_append, List.foldl_cons, List.foldl_nil]
        rw [hrest, toNat_digit (hlt d List.mem_cons_self), Nat.ofDigits_cons]
        omega
  rw [natText, if_neg hn, hfold _ fun d hd => Nat.digits_lt_base (by norm_num) hd,
    Nat.ofDigits_digits]

theorem isDigit_not_space {b : UInt8} (h : isDigit b = true) : isSpace b = false := by
  simp only [isDigit, Bool.and_eq_true, decide_eq_true_eq, UInt8.le_iff_toNat_le] at h
  have hne : b ≠ 32 := by
    rintro rfl
    exact absurd h.1 (by decide)
  have hhigh : ¬ b ≤ 13 := by
    rw [UInt8.le_iff_toNat_le]
    have h48 : (48 : UInt8).toNat = 48 := rfl
    have h13 : (13 : UInt8).toNat = 13 := rfl
    omega
  simp [isSpace, hne, hhigh]

theorem head_natText (n : Nat) (rest : List UInt8) :
    ∃ b tail, natText n ++ rest = b :: tail ∧ isDigit b = true := by
  cases htext : natText n with
  | nil => exact absurd htext (natText_ne_nil n)
  | cons b tail =>
      refine ⟨b, tail ++ rest, rfl, isDigit_natText n b ?_⟩
      rw [htext]
      exact List.mem_cons_self

theorem takeWhile_blanks {blanks : List UInt8} (hblanks : ∀ b ∈ blanks, isSpace b = true) {b : UInt8}
    (hb : isSpace b = false) (tail : List UInt8) :
    (blanks ++ b :: tail).takeWhile isSpace = blanks := by
  rw [List.takeWhile_append_of_pos hblanks, List.takeWhile_cons, if_neg (by simp [hb]),
    List.append_nil]

theorem takeWhile_natText (n : Nat) {rest : List UInt8}
    (hrest : ∀ b tail, rest = b :: tail → isDigit b = false) :
    (natText n ++ rest).takeWhile isDigit = natText n := by
  rw [List.takeWhile_append_of_pos (isDigit_natText n)]
  cases rest with
  | nil => simp
  | cons b tail => rw [List.takeWhile_cons, if_neg (by simp [hrest b tail rfl]), List.append_nil]

/-- **A printed integer is scanned back.** -/
theorem scanText_intText {blanks : List UInt8} (hblanks : ∀ b ∈ blanks, isSpace b = true) (x : Int)
    {rest : List UInt8} (hrest : ∀ b tail, rest = b :: tail → isDigit b = false) :
    scanText (blanks ++ (intText x ++ rest)) =
      some (x, blanks.length + (intText x).length) := by
  by_cases hneg : x < 0
  · have htext : intText x ++ rest = 45 :: (natText x.natAbs ++ rest) := by
      rw [intText, if_pos hneg, List.cons_append]
    have hlen : (intText x).length = 1 + (natText x.natAbs).length := by
      rw [intText, if_pos hneg, List.length_cons, Nat.add_comm]
    rw [htext, hlen, scanText]
    simp only [takeWhile_blanks hblanks (show isSpace 45 = false by decide), List.drop_left,
      List.head?_cons, true_or, if_true, List.drop_succ_cons, List.drop_zero,
      takeWhile_natText x.natAbs hrest, if_neg (natText_ne_nil x.natAbs), digitsValue_natText]
    rw [show (-(x.natAbs : Int)) = x by omega, Nat.add_assoc]
  · have htext : intText x = natText x.natAbs := by rw [intText, if_neg hneg]
    obtain ⟨b, tail, hhead, hdigit⟩ := head_natText x.natAbs rest
    have hsign : b ≠ 45 ∧ b ≠ 43 := by
      constructor
      · rintro rfl
        exact absurd hdigit (by decide)
      · rintro rfl
        exact absurd hdigit (by decide)
    have hspaces : (blanks ++ (natText x.natAbs ++ rest)).takeWhile isSpace = blanks := by
      rw [hhead]
      exact takeWhile_blanks hblanks (isDigit_not_space hdigit) tail
    have hfirst : (natText x.natAbs ++ rest).head? = some b := by rw [hhead]; rfl
    rw [htext, scanText]
    simp only [hspaces, List.drop_left, hfirst, Option.some.injEq, hsign.1, hsign.2, or_self,
      if_false, List.drop_zero, takeWhile_natText x.natAbs hrest,
      if_neg (natText_ne_nil x.natAbs), digitsValue_natText]
    rw [show (x.natAbs : Int) = x by omega, Nat.add_zero]

/-- The same inside a file. -/
theorem scanInt_at {ε : Type} (e : ε) (file : List UInt8) (pos : Nat) (blanks : List UInt8) (x : Int)
    (rest : List UInt8) (hfile : file.drop pos = blanks ++ (intText x ++ rest))
    (hblanks : ∀ b ∈ blanks, isSpace b = true)
    (hrest : ∀ b tail, rest = b :: tail → isDigit b = false) :
    scanInt e file pos = .ok (x, pos + (blanks.length + (intText x).length)) := by
  rw [scanInt, hfile, scanText_intText hblanks x hrest]

end Decimal
