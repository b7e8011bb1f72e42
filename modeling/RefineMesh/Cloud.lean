import Mathlib.Tactic
import RefineMesh.Dict
import RefineMesh.CellQuery
import RefineMesh.NodeInvariant

/-!
# Clouds of nodes

A `REF_CLOUD` lists nodes by ascending global with what is known of each.  The
reconstruction starts with the nodes that share a cell with a node, and adds a
layer at a time: the immediate clouds of all nodes that are in the cloud.
-/

namespace RefineMesh

open ArrayLoop

/-! ## Runs in `REF_INT` -/

/-- The run ends with `P`.  It can only fail where a size leaves `REF_INT`, and
not when the sizes `fit`. -/
def EndsIf {α : Type} (fit : Prop) (run : Except Status α) (P : α → Prop) : Prop :=
  (∃ a, run = .ok a ∧ P a) ∨ run = .error .undefined ∧ ¬ fit

namespace EndsIf

variable {α β : Type} {fit : Prop} {run : Except Status α} {P : α → Prop}

theorem ok {a : α} (h : P a) : EndsIf fit (.ok a) P := Or.inl ⟨a, rfl, h⟩

theorem mono {Q : α → Prop} (h : EndsIf fit run P) (hPQ : ∀ a, P a → Q a) : EndsIf fit run Q := by
  rcases h with ⟨a, hrun, hP⟩ | hrun
  · exact Or.inl ⟨a, hrun, hPQ a hP⟩
  · exact Or.inr hrun

theorem bind {f : α → Except Status β} {Q : β → Prop} (h : EndsIf fit run P)
    (hf : ∀ a, P a → EndsIf fit (f a) Q) : EndsIf fit (run >>= f) Q := by
  rcases h with ⟨a, rfl, hP⟩ | ⟨rfl, hfit⟩
  · exact hf a hP
  · exact Or.inr ⟨rfl, hfit⟩

/-- The rule for a loop. -/
theorem foldlM {f : β → α → Except Status β} (I : List α → List α → β → Prop)
    (hstep : ∀ done a rest b, I done (a :: rest) b → EndsIf fit (f b a) (I (done ++ [a]) rest))
    {l : List α} {b : β} (h0 : I [] l b) : EndsIf fit (l.foldlM f b) (I l []) :=
  foldlM_exists_or I hstep h0

theorem exists_ok (h : EndsIf fit run P) (hfit : fit) : ∃ a, run = .ok a ∧ P a := by
  rcases h with hok | ⟨-, hnot⟩
  · exact hok
  · exact absurd hfit hnot

end EndsIf

/-- `REF_CLOUD_STRUCT`; `aux item` is the row of the `naux` entries from
`aux[naux*item]` on. -/
structure RefCloud (A : Type) where
  n : Nat
  max : Nat
  naux : Nat
  global : Nat → Int
  aux : Nat → A

namespace RefCloud

variable {A : Type}

/-- `ref_cloud_create`, over memory `mem` that the allocations do not clear. -/
def create (mem : RefCloud A) (naux : Nat) : RefCloud A :=
  { mem with n := 0, max := 20, naux := naux }

/-- The growth of `ref_cloud_store`; the sizes are computed in `REF_INT`. -/
def grow (c : RefCloud A) : Except Status (RefCloud A) :=
  if c.max = c.n then
    if refIntMax < c.naux * (c.max + 100) then .error .undefined
    else .ok { c with max := c.max + 100 }
  else .ok c

/-- `ref_cloud_store`. -/
def store (c : RefCloud A) (global : Int) (aux : A) : Except Status (RefCloud A) := do
  let c ← c.grow
  match RefDict.findPlace c.global global c.n with
  | .inl item => .ok { c with aux := Function.update c.aux item aux }
  | .inr insertPoint =>
      .ok { c with
        n := c.n + 1
        global := Function.update (shiftDown insertPoint c.n c.global) insertPoint global
        aux := Function.update (shiftDown insertPoint c.n c.aux) insertPoint aux }

/-- `ref_cloud_item`. -/
def item (c : RefCloud A) (global : Int) : Except Status Nat := RefDict.scan c.global global c.n 0

/-! ## The content of a cloud -/

/-- The globals of the cloud. -/
def members (c : RefCloud A) : Set Int := {g | ∃ i < c.n, c.global i = g}

/-- What is known of the nodes: the row of each global, and which globals there
are. -/
structure Known (A : Type) where
  row : Int → A
  naux : Nat
  globals : Finset Int

/-- A cloud of all globals, with room to grow, fits a `REF_INT`. -/
def Known.Fits (N : Known A) : Prop := N.naux * (N.globals.card + 100) ≤ refIntMax

/-- The cloud is ascending, and holds known globals with their rows. -/
structure Of (N : Known A) (c : RefCloud A) : Prop where
  naux : c.naux = N.naux
  ascending : ∀ i j, i < j → j < c.n → c.global i < c.global j
  known : ∀ i < c.n, c.global i ∈ N.globals
  aux : ∀ i < c.n, c.aux i = N.row (c.global i)

variable {N : Known A} {c : RefCloud A}

theorem create_of (mem : RefCloud A) : (create mem N.naux).Of N :=
  ⟨rfl, fun _ j _ hj => absurd hj (Nat.not_lt_zero j), fun i hi => absurd hi (Nat.not_lt_zero i),
    fun i hi => absurd hi (Nat.not_lt_zero i)⟩

theorem create_members (mem : RefCloud A) (naux : Nat) : (create mem naux).members = ∅ := by
  rw [Set.eq_empty_iff_forall_notMem]
  rintro g ⟨i, hi, _⟩
  exact absurd hi (Nat.not_lt_zero i)

theorem Of.inj (h : c.Of N) {i j : Nat} (hi : i < c.n) (hj : j < c.n)
    (heq : c.global i = c.global j) : i = j := by
  rcases lt_trichotomy i j with hlt | rfl | hlt
  · exact absurd heq (h.ascending i j hlt hj).ne
  · rfl
  · exact absurd heq.symm (h.ascending j i hlt hi).ne

theorem Of.n_le (h : c.Of N) : c.n ≤ N.globals.card := by
  have hcard := Finset.card_le_card_of_injOn (s := Finset.range c.n) (t := N.globals) c.global
    (fun i hi => h.known i (Finset.mem_range.mp hi)) fun i hi j hj heq =>
      h.inj (Finset.mem_range.mp hi) (Finset.mem_range.mp hj) heq
  rwa [Finset.card_range] at hcard

/-- `ref_cloud_item` finds exactly the members. -/
theorem item_spec (c : RefCloud A) (g : Int) :
    (∃ i, c.item g = .ok i ∧ i < c.n ∧ c.global i = g) ∨
      c.item g = .error .notFound ∧ g ∉ c.members := by
  rcases RefDict.scan_spec c.global g c.n 0 with ⟨i, hi, -, hlt, hval⟩ | ⟨hnone, habsent⟩
  · exact Or.inl ⟨i, hi, by omega, hval⟩
  · refine Or.inr ⟨hnone, ?_⟩
    rintro ⟨i, hi, hval⟩
    exact habsent i (Nat.zero_le i) (by omega) hval

theorem grow_spec (h : c.Of N) :
    EndsIf N.Fits c.grow fun c' => c'.Of N ∧ c'.members = c.members := by
  rw [grow]
  split_ifs with hfull hover
  · refine Or.inr ⟨rfl, fun hfit => ?_⟩
    have hle := Nat.mul_le_mul_left N.naux (Nat.add_le_add_right h.n_le 100)
    rw [h.naux, hfull] at hover
    rw [Known.Fits] at hfit
    omega
  · exact EndsIf.ok ⟨⟨h.naux, h.ascending, h.known, h.aux⟩, rfl⟩
  · exact EndsIf.ok ⟨h, rfl⟩

/-- The insertion of a global at its place. -/
theorem Of.insertAt (h : c.Of N) {g : Int} (hg : g ∈ N.globals) {p : Nat} (hp : p ≤ c.n)
    (hbelow : ∀ i < p, c.global i < g) (habove : ∀ i, p ≤ i → i < c.n → g < c.global i) :
    Of N { c with
      n := c.n + 1
      global := Function.update (shiftDown p c.n c.global) p g
      aux := Function.update (shiftDown p c.n c.aux) p (N.row g) } ∧
    members { c with
      n := c.n + 1
      global := Function.update (shiftDown p c.n c.global) p g
      aux := Function.update (shiftDown p c.n c.aux) p (N.row g) } = insert g c.members := by
  have hglobal : ∀ i ≤ c.n, Function.update (shiftDown p c.n c.global) p g i =
      if i < p then c.global i else if i = p then g else c.global (i - 1) := fun i hi =>
    update_shiftDown_apply p c.n c.global g i hi
  have ha : ∀ i ≤ c.n, Function.update (shiftDown p c.n c.aux) p (N.row g) i =
      if i < p then c.aux i else if i = p then N.row g else c.aux (i - 1) := fun i hi =>
    update_shiftDown_apply p c.n c.aux (N.row g) i hi
  refine ⟨⟨h.naux, fun i j hij hj => ?_, fun i hi => ?_, fun i hi => ?_⟩, ?_⟩
  · dsimp only at hj ⊢
    rw [hglobal i (by omega), hglobal j (by omega)]
    rcases lt_trichotomy i p with hip | rfl | hip
    · rcases lt_trichotomy j p with hjp | rfl | hjp
      · rw [if_pos hip, if_pos hjp]
        exact h.ascending i j hij (by omega)
      · rw [if_pos hip, if_neg (lt_irrefl _), if_pos rfl]
        exact hbelow i hip
      · rw [if_pos hip, if_neg (by omega), if_neg (by omega)]
        exact (hbelow i hip).trans (habove (j - 1) (by omega) (by omega))
    · rw [if_neg (lt_irrefl _), if_pos rfl, if_neg (by omega), if_neg (by omega)]
      exact habove (j - 1) (by omega) (by omega)
    · rw [if_neg (by omega), if_neg (by omega), if_neg (by omega), if_neg (by omega)]
      exact h.ascending (i - 1) (j - 1) (by omega) (by omega)
  · dsimp only at hi ⊢
    rw [hglobal i (by omega)]
    split_ifs with h1 h2
    · exact h.known i (by omega)
    · exact hg
    · exact h.known (i - 1) (by omega)
  · dsimp only at hi ⊢
    rw [hglobal i (by omega), ha i (by omega)]
    split_ifs with h1 h2
    · exact h.aux i (by omega)
    · rfl
    · exact h.aux (i - 1) (by omega)
  · ext x
    constructor
    · rintro ⟨i, hi, rfl⟩
      dsimp only at hi ⊢
      rw [hglobal i (by omega)]
      split_ifs with h1 h2
      · exact Or.inr ⟨i, by omega, rfl⟩
      · exact Or.inl rfl
      · exact Or.inr ⟨i - 1, by omega, rfl⟩
    · rintro (rfl | ⟨i, hi, rfl⟩)
      · refine ⟨p, by dsimp only; omega, ?_⟩
        dsimp only
        rw [hglobal p hp, if_neg (lt_irrefl _), if_pos rfl]
      · by_cases hip : i < p
        · refine ⟨i, by dsimp only; omega, ?_⟩
          dsimp only
          rw [hglobal i (by omega), if_pos hip]
        · refine ⟨i + 1, by dsimp only; omega, ?_⟩
          dsimp only
          rw [hglobal (i + 1) (by omega), if_neg (by omega), if_neg (by omega), Nat.add_sub_cancel]

/-- **A store** adds one global. -/
theorem store_spec (hc : c.Of N) {g : Int} (hg : g ∈ N.globals) :
    EndsIf N.Fits (c.store g (N.row g)) fun c' =>
      c'.Of N ∧ c'.members = insert g c.members := by
  refine (grow_spec hc).bind fun d hd => ?_
  obtain ⟨hd, hmembers⟩ := hd
  rw [← hmembers]
  rcases RefDict.findPlace_spec g d.n hd.ascending with
    ⟨at_, hfind, hlt, hkey⟩ | ⟨p, hfind, hp, hbelow, habove⟩
  · rw [hfind]
    refine EndsIf.ok ⟨⟨hd.naux, hd.ascending, hd.known, fun i hi => ?_⟩, ?_⟩
    · by_cases hi' : i = at_
      · subst hi'
        exact (Function.update_self ..).trans (congrArg N.row hkey).symm
      · exact (Function.update_of_ne hi' ..).trans (hd.aux i hi)
    · exact (Set.insert_eq_of_mem (show g ∈ d.members from ⟨at_, hlt, hkey⟩)).symm
  · rw [hfind]
    exact EndsIf.ok (hd.insertAt hg hp hbelow habove)

/-- A loop of stores adds their globals. -/
theorem stores_spec {α : Type} {g : α → Int} {f : α → A} {l : List α} (hc : c.Of N)
    (hg : ∀ a ∈ l, g a ∈ N.globals) (hf : ∀ a ∈ l, f a = N.row (g a)) :
    EndsIf N.Fits (l.foldlM (fun (c : RefCloud A) a => c.store (g a) (f a)) c) fun c' =>
      c'.Of N ∧ c'.members = c.members ∪ {x | ∃ a ∈ l, g a = x} := by
  refine (EndsIf.foldlM (fun done rest (c' : RefCloud A) => done ++ rest = l ∧ c'.Of N ∧
    c'.members = c.members ∪ {x | ∃ a ∈ done, g a = x}) ?_ ⟨rfl, hc, ?_⟩).mono
      fun c' h => h.2
  · rintro done a rest d ⟨hl, hd, hmembers⟩
    have ha : a ∈ l := hl ▸ List.mem_append_right done List.mem_cons_self
    rw [hf a ha]
    refine (store_spec hd (hg a ha)).mono fun d' h => ⟨?_, h.1, ?_⟩
    · rw [List.append_assoc, List.singleton_append, hl]
    · rw [h.2, hmembers]
      ext x
      simp only [Set.mem_union, Set.mem_insert_iff, Set.mem_ofPred_eq, List.mem_append,
        List.mem_singleton, or_and_right, exists_or, exists_eq_left, eq_comm (a := x)]
      exact or_comm.trans or_assoc
  · ext x
    simp

end RefCloud

end RefineMesh
