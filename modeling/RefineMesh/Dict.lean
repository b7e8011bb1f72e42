import Mathlib.Tactic
import RefineMesh.Status
import RefineMesh.ArrayLoops
import RefineMesh.Sort

/-!
# The integer dictionary

`ref_dict.c` keeps two parallel arrays, the keys in ascending order.  A store
scans from the top for its place, a lookup scans a short dictionary from the
bottom and bisects a long one.  The content of a dictionary is the function
`lookup`; every call is first described by what it does to `lookup`, and the
runs are compared with the history of calls only at the end.
-/

namespace RefineMesh

open ArrayLoop

/-- `REF_DICT_STRUCT`. -/
structure RefDict where
  n : Nat
  max : Nat
  key : Nat → Int
  value : Nat → Int

namespace RefDict

/-- `ref_dict_create`; `mem` is the content of the fresh arrays. -/
def create (mem : Nat → Int) : RefDict :=
  { n := 0, max := 10, key := mem, value := mem }

/-- The growth in `ref_dict_store`. -/
def grow (d : RefDict) : Except Status RefDict :=
  if d.max = d.n then
    if refIntMax < d.max + 1000 then .error .undefined else .ok { d with max := d.max + 1000 }
  else .ok d

/-- The loop of `ref_dict_store` over `i = n - 1, .., 0`: the index of an equal
key, or else the insert point. -/
def findPlace (keys : Nat → Int) (key : Int) : Nat → Nat ⊕ Nat
  | 0 => .inr 0
  | i+1 =>
      if keys i = key then .inl i
      else if keys i < key then .inr (i + 1)
      else findPlace keys key i

/-- `ref_dict_store`. -/
def store (d : RefDict) (key value : Int) : Except Status RefDict := do
  let d ← d.grow
  match findPlace d.key key d.n with
  | .inl i => .ok { d with value := Function.update d.value i value }
  | .inr insertPoint =>
      .ok { d with
        n := d.n + 1
        key := Function.update (shiftDown insertPoint d.n d.key) insertPoint key
        value := Function.update (shiftDown insertPoint d.n d.value) insertPoint value }

/-- The linear scan of `ref_dict_location` over `i .. n`. -/
def scan (keys : Nat → Int) (key : Int) : Nat → Nat → Except Status Nat
  | 0, _ => .error .notFound
  | left+1, i => if key = keys i then .ok i else scan keys key left (i + 1)

/-- `ref_dict_location`. -/
def location (d : RefDict) (key : Int) : Except Status Nat :=
  if 10 < d.n then sortSearch d.n d.key key else scan d.key key d.n 0

/-- `ref_dict_has_key`. -/
def hasKey (d : RefDict) (key : Int) : Bool := (List.range d.n).any fun i => key = d.key i

/-- `ref_dict_remove`, with the dictionary it leaves behind on every return. -/
def remove (d : RefDict) (key : Int) : Except Status Unit × RefDict :=
  match d.location key with
  | .error e => (.error e, d)
  | .ok i =>
      (.ok (), { d with
        n := d.n - 1
        key := shiftUp (d.n - 1 - i) i d.key
        value := shiftUp (d.n - 1 - i) i d.value })

/-- `keys[0..n)` is strictly ascending. -/
def Ascending (d : RefDict) : Prop := ∀ i j, i < j → j < d.n → d.key i < d.key j

/-- The dictionary as a finite map. -/
def lookup (d : RefDict) (key : Int) : Option Int :=
  (scan d.key key d.n 0).toOption.map d.value

theorem Ascending.le {d : RefDict} (h : d.Ascending) {i j : Nat} (hij : i ≤ j) (hj : j < d.n) :
    d.key i ≤ d.key j := by
  rcases Nat.lt_or_eq_of_le hij with hlt | rfl
  · exact le_of_lt (h i j hlt hj)
  · exact le_refl _

theorem Ascending.index_unique {d : RefDict} (h : d.Ascending) {i j : Nat} (hi : i < d.n)
    (hj : j < d.n) (heq : d.key i = d.key j) : i = j := by
  rcases lt_trichotomy i j with hlt | rfl | hlt
  · exact absurd heq (ne_of_lt (h i j hlt hj))
  · rfl
  · exact absurd heq.symm (ne_of_lt (h j i hlt hi))

/-- The scan answers the first index of the key. -/
theorem scan_spec (keys : Nat → Int) (key : Int) :
    ∀ left i, (∃ k, scan keys key left i = .ok k ∧ i ≤ k ∧ k < i + left ∧ keys k = key) ∨
      (scan keys key left i = .error .notFound ∧ ∀ k, i ≤ k → k < i + left → keys k ≠ key) := by
  intro left
  induction left with
  | zero => intro i; exact Or.inr ⟨rfl, fun k hk hk' => by omega⟩
  | succ left ih =>
      intro i
      by_cases hkey : key = keys i
      · exact Or.inl ⟨i, by simp [scan, hkey], by omega, by omega, hkey.symm⟩
      · simp only [scan, if_neg hkey]
        rcases ih (i + 1) with ⟨k, hk, hik, hlt, hval⟩ | ⟨hnone, habs⟩
        · exact Or.inl ⟨k, hk, by omega, by omega, hval⟩
        · refine Or.inr ⟨hnone, fun k hk hk' heq => ?_⟩
          rcases Nat.lt_or_eq_of_le hk with hlt | rfl
          · exact habs k hlt (by omega) heq
          · exact hkey heq.symm

/-- **The two searches agree** on ascending keys, whatever their number. -/
theorem scan_eq_sortSearch {d : RefDict} (h : d.Ascending) (key : Int) :
    scan d.key key d.n 0 = sortSearch d.n d.key key := by
  have hsearch := sortSearch_spec (n := d.n) key fun i j hij hj => h.le hij hj
  rcases scan_spec d.key key d.n 0 with ⟨k, hk, -, hlt, hval⟩ | ⟨hnone, habs⟩
  · rcases hsearch with ⟨k', hk', hlt', hval'⟩ | ⟨-, habs'⟩
    · have heq : k = k' := h.index_unique (by omega) hlt' (hval.trans hval'.symm)
      rw [hk, hk', heq]
    · exact absurd hval (habs' k (by omega))
  · rcases hsearch with ⟨k', -, hlt', hval'⟩ | ⟨hnone', -⟩
    · exact absurd hval' (habs k' (by omega) (by omega))
    · rw [hnone, hnone']

theorem location_eq {d : RefDict} (h : d.Ascending) (key : Int) :
    d.location key = scan d.key key d.n 0 := by
  rw [location, ← scan_eq_sortSearch h, ite_self]

/-- The answer of `ref_dict_location`: the index of the key, or `REF_NOT_FOUND`. -/
theorem location_spec {d : RefDict} (h : d.Ascending) (key : Int) :
    (∃ i, d.location key = .ok i ∧ i < d.n ∧ d.key i = key ∧ d.lookup key = some (d.value i)) ∨
      (d.location key = .error .notFound ∧ (∀ i, i < d.n → d.key i ≠ key) ∧
        d.lookup key = none) := by
  rw [location_eq h]
  rcases scan_spec d.key key d.n 0 with ⟨i, hi, -, hlt, hval⟩ | ⟨hnone, habs⟩
  · refine Or.inl ⟨i, hi, by omega, hval, ?_⟩
    rw [lookup, hi]
    rfl
  · refine Or.inr ⟨hnone, fun i hi => habs i (by omega) (by omega), ?_⟩
    rw [lookup, hnone]
    rfl

/-- A key that stands at an index is looked up there. -/
theorem lookup_eq_some {d : RefDict} (h : d.Ascending) {i : Nat} (hi : i < d.n) :
    d.lookup (d.key i) = some (d.value i) := by
  rcases location_spec h (d.key i) with ⟨j, -, hj, hkey, hval⟩ | ⟨-, habs, -⟩
  · rw [hval, h.index_unique hj hi hkey]
  · exact absurd rfl (habs i hi)

theorem lookup_eq_some_iff {d : RefDict} (h : d.Ascending) {key value : Int} :
    d.lookup key = some value ↔ ∃ i, i < d.n ∧ d.key i = key ∧ d.value i = value := by
  constructor
  · intro hlook
    rcases location_spec h key with ⟨i, -, hi, hkey, hval⟩ | ⟨-, -, hval⟩
    · exact ⟨i, hi, hkey, Option.some.inj (hval.symm.trans hlook)⟩
    · rw [hval] at hlook
      cases hlook
  · rintro ⟨i, hi, rfl, rfl⟩
    exact lookup_eq_some h hi

/-! ## One call -/

theorem grow_ok {d d' : RefDict} (h : d.grow = .ok d') :
    d'.n = d.n ∧ d'.key = d.key ∧ d'.value = d.value := by
  by_cases hfull : d.max = d.n
  · by_cases hover : refIntMax < d.max + 1000
    · simp [grow, hfull, hfull ▸ hover] at h
    · simp only [grow, if_pos hfull, if_neg hover, Except.ok.injEq] at h
      subst h
      exact ⟨rfl, rfl, rfl⟩
  · simp only [grow, if_neg hfull, Except.ok.injEq] at h
    subst h
    exact ⟨rfl, rfl, rfl⟩

/-- The top-down scan of an ascending array stops at the key or at the one
place where the key keeps the order. -/
theorem findPlace_spec {keys : Nat → Int} (key : Int) :
    ∀ n, (∀ i j, i < j → j < n → keys i < keys j) →
      (∃ i, findPlace keys key n = .inl i ∧ i < n ∧ keys i = key) ∨
      (∃ p, findPlace keys key n = .inr p ∧ p ≤ n ∧ (∀ i, i < p → keys i < key) ∧
        ∀ i, p ≤ i → i < n → key < keys i) := by
  intro n
  induction n with
  | zero =>
      intro _
      exact Or.inr ⟨0, rfl, le_refl _, fun i hi => by omega, fun i _ hi => by omega⟩
  | succ n ih =>
      intro hasc
      by_cases heq : keys n = key
      · exact Or.inl ⟨n, by simp [findPlace, heq], by omega, heq⟩
      · by_cases hlt : keys n < key
        · refine Or.inr ⟨n + 1, by simp [findPlace, heq, hlt], le_refl _, fun i hi => ?_,
            fun i hi hi' => by omega⟩
          rcases Nat.lt_or_eq_of_le (Nat.le_of_lt_succ hi) with hin | rfl
          · exact lt_trans (hasc i n hin (by omega)) hlt
          · exact hlt
        · simp only [findPlace, if_neg heq, if_neg hlt]
          rcases ih fun i j hij hj => hasc i j hij (by omega) with
            ⟨i, hi, hin, hkey⟩ | ⟨p, hp, hpn, hbelow, habove⟩
          · exact Or.inl ⟨i, hi, by omega, hkey⟩
          · refine Or.inr ⟨p, hp, by omega, hbelow, fun i hi hin => ?_⟩
            rcases Nat.lt_or_eq_of_le (Nat.le_of_lt_succ hin) with hlt' | rfl
            · exact habove i hi hlt'
            · exact lt_of_le_of_ne (not_lt.mp hlt) (Ne.symm heq)

/-- The arrays after a new key was placed. -/
theorem insert_apply {d : RefDict} {p : Nat} {key value : Int} {d' : RefDict}
    (h : d' = { d with
        n := d.n + 1
        key := Function.update (shiftDown p d.n d.key) p key
        value := Function.update (shiftDown p d.n d.value) p value }) {i : Nat} (hi : i ≤ d.n) :
    d'.key i = (if i < p then d.key i else if i = p then key else d.key (i - 1)) ∧
    d'.value i = (if i < p then d.value i else if i = p then value else d.value (i - 1)) := by
  subst h
  exact ⟨update_shiftDown_apply p d.n d.key key i hi,
    update_shiftDown_apply p d.n d.value value i hi⟩

/-- **A store** keeps the order and changes the map at its key only. -/
theorem store_spec {d d' : RefDict} {key value : Int} (hasc : d.Ascending)
    (h : d.store key value = .ok d') :
    d'.Ascending ∧ d'.lookup = Function.update d.lookup key (some value) := by
  obtain ⟨g, hgrow, hrun⟩ := bind_eq_ok.mp h
  obtain ⟨hn, hkeys, hvalues⟩ := grow_ok hgrow
  have hgasc : g.Ascending := by
    intro i j hij hj
    rw [hkeys]
    exact hasc i j hij (hn ▸ hj)
  have hglook : g.lookup = d.lookup := by
    funext k
    simp only [lookup, hn, hkeys, hvalues]
  rw [← hglook]
  rcases findPlace_spec key g.n hgasc with
    ⟨at_, hplace, hlt, hkey⟩ | ⟨p, hplace, hp, hbelow, habove⟩
  · rw [hplace] at hrun
    have hd : d' = { g with value := Function.update g.value at_ value } := by
      simpa using hrun.symm
    have hd'asc : d'.Ascending := by
      rw [hd]
      exact hgasc
    refine ⟨hd'asc, funext fun k => Option.ext fun v => ?_⟩
    rw [lookup_eq_some_iff hd'asc, hd]
    by_cases hk : k = key
    · subst hk
      simp only [Function.update_self, Option.some.injEq]
      constructor
      · rintro ⟨i, hi, hik, rfl⟩
        rw [hgasc.index_unique hi hlt (hik.trans hkey.symm), Function.update_self]
      · rintro rfl
        exact ⟨at_, hlt, hkey, Function.update_self ..⟩
    · rw [Function.update_of_ne hk, lookup_eq_some_iff hgasc]
      refine exists_congr fun i => and_congr_right fun hi => and_congr_right fun hik => ?_
      have hne : i ≠ at_ := fun heq => hk (by rw [← hik, heq, hkey])
      simp only [Function.update_of_ne hne]
  · rw [hplace] at hrun
    have hd := (Except.ok.inj hrun).symm
    have hd'n : d'.n = g.n + 1 := by rw [hd]
    have happly := fun {i : Nat} (hi : i ≤ g.n) => insert_apply hd hi
    have hd'asc : d'.Ascending := by
      intro i j hij hj
      rw [(happly (i := i) (by omega)).1, (happly (i := j) (by omega)).1]
      rcases lt_trichotomy i p with hip | rfl | hip
      · rcases lt_trichotomy j p with hjp | rfl | hjp
        · rw [if_pos hip, if_pos hjp]
          exact hgasc i j hij (by omega)
        · rw [if_pos hip, if_neg (lt_irrefl _), if_pos rfl]
          exact hbelow i hip
        · rw [if_pos hip, if_neg (by omega), if_neg (by omega)]
          exact lt_trans (hbelow i hip) (habove (j - 1) (by omega) (by omega))
      · rw [if_neg (lt_irrefl _), if_pos rfl, if_neg (by omega), if_neg (by omega)]
        exact habove (j - 1) (by omega) (by omega)
      · rw [if_neg (by omega), if_neg (by omega), if_neg (by omega), if_neg (by omega)]
        exact hgasc (i - 1) (j - 1) (by omega) (by omega)
    refine ⟨hd'asc, funext fun k => Option.ext fun v => ?_⟩
    rw [lookup_eq_some_iff hd'asc]
    constructor
    · rintro ⟨i, hi, hik, hiv⟩
      rw [(happly (i := i) (by omega)).1] at hik
      rw [(happly (i := i) (by omega)).2] at hiv
      rcases lt_trichotomy i p with hip | rfl | hip
      · rw [if_pos hip] at hik hiv
        have hne : k ≠ key := by
          rw [← hik]
          exact ne_of_lt (hbelow i hip)
        rw [Function.update_of_ne hne, ← hik, ← hiv]
        exact lookup_eq_some hgasc (by omega)
      · rw [if_neg (lt_irrefl _), if_pos rfl] at hik hiv
        rw [← hik, ← hiv, Function.update_self]
      · rw [if_neg (by omega), if_neg (by omega)] at hik hiv
        have hne : k ≠ key := by
          rw [← hik]
          exact ne_of_gt (habove (i - 1) (by omega) (by omega))
        rw [Function.update_of_ne hne, ← hik, ← hiv]
        exact lookup_eq_some hgasc (by omega)
    · by_cases hk : k = key
      · subst hk
        simp only [Function.update_self, Option.some.injEq]
        rintro rfl
        refine ⟨p, by omega, ?_, ?_⟩
        · rw [(happly (i := p) hp).1, if_neg (lt_irrefl _), if_pos rfl]
        · rw [(happly (i := p) hp).2, if_neg (lt_irrefl _), if_pos rfl]
      · rw [Function.update_of_ne hk, lookup_eq_some_iff hgasc]
        rintro ⟨i, hi, hik, hiv⟩
        by_cases hip : i < p
        · refine ⟨i, by omega, ?_, ?_⟩
          · rw [(happly (i := i) (by omega)).1, if_pos hip, hik]
          · rw [(happly (i := i) (by omega)).2, if_pos hip, hiv]
        · refine ⟨i + 1, by omega, ?_, ?_⟩
          · rw [(happly (i := i + 1) (by omega)).1, if_neg (by omega), if_neg (by omega)]
            exact hik
          · rw [(happly (i := i + 1) (by omega)).2, if_neg (by omega), if_neg (by omega)]
            exact hiv

/-- **A remove** of a key that is absent reports it and changes nothing; of a
key that is there it keeps the order and changes the map at that key only. -/
theorem remove_spec {d : RefDict} (hasc : d.Ascending) (key : Int) :
    (d.lookup key = none ∧ d.remove key = (.error .notFound, d)) ∨
      (d.lookup key ≠ none ∧ (d.remove key).1 = .ok () ∧ (d.remove key).2.Ascending ∧
        (d.remove key).2.lookup = Function.update d.lookup key none) := by
  rcases location_spec hasc key with ⟨at_, hloc, hlt, hkey, hval⟩ | ⟨hnone, -, hval⟩
  swap
  · exact Or.inl ⟨hval, by rw [remove, hnone]⟩
  refine Or.inr ⟨by simp [hval], by rw [remove, hloc], ?_⟩
  set d' := (d.remove key).2 with hd
  have hrun : d' = { d with
      n := d.n - 1
      key := shiftUp (d.n - 1 - at_) at_ d.key
      value := shiftUp (d.n - 1 - at_) at_ d.value } := by
    rw [hd, remove, hloc]
  have hn : d'.n = d.n - 1 := by rw [hrun]
  have hkeys : ∀ {i}, i < d.n - 1 → d'.key i = if at_ ≤ i then d.key (i + 1) else d.key i := by
    intro i hi
    rw [hrun]
    exact shiftUp_gap d.key hlt hi
  have hvalues : ∀ {i}, i < d.n - 1 →
      d'.value i = if at_ ≤ i then d.value (i + 1) else d.value i := by
    intro i hi
    rw [hrun]
    exact shiftUp_gap d.value hlt hi
  have hasc' : d'.Ascending := by
    intro i j hij hj
    rw [hkeys (i := i) (by omega), hkeys (i := j) (by omega)]
    by_cases hi : at_ ≤ i
    · rw [if_pos hi, if_pos (by omega)]
      exact hasc (i + 1) (j + 1) (by omega) (by omega)
    · rw [if_neg hi]
      by_cases hj' : at_ ≤ j
      · rw [if_pos hj']
        exact hasc i (j + 1) (by omega) (by omega)
      · rw [if_neg hj']
        exact hasc i j hij (by omega)
  refine ⟨hasc', funext fun k => Option.ext fun v => ?_⟩
  rw [lookup_eq_some_iff hasc']
  constructor
  · rintro ⟨i, hi, hik, hiv⟩
    rw [hkeys (by omega)] at hik
    rw [hvalues (by omega)] at hiv
    by_cases hle : at_ ≤ i
    · rw [if_pos hle] at hik hiv
      have hne : k ≠ key := by
        rw [← hik, ← hkey]
        exact ne_of_gt (hasc at_ (i + 1) (by omega) (by omega))
      rw [Function.update_of_ne hne, ← hik, ← hiv]
      exact lookup_eq_some hasc (by omega)
    · rw [if_neg hle] at hik hiv
      have hne : k ≠ key := by
        rw [← hik, ← hkey]
        exact ne_of_lt (hasc i at_ (by omega) hlt)
      rw [Function.update_of_ne hne, ← hik, ← hiv]
      exact lookup_eq_some hasc (by omega)
  · by_cases hk : k = key
    · rw [hk, Function.update_self]
      intro hcontra
      cases hcontra
    · rw [Function.update_of_ne hk, lookup_eq_some_iff hasc]
      rintro ⟨i, hi, hik, hiv⟩
      have hne : i ≠ at_ := fun heq => hk (by rw [← hik, heq, hkey])
      by_cases hle : i < at_
      · refine ⟨i, by omega, ?_, ?_⟩
        · rw [hkeys (by omega), if_neg (by omega), hik]
        · rw [hvalues (by omega), if_neg (by omega), hiv]
      · refine ⟨i - 1, by omega, ?_, ?_⟩
        · rw [hkeys (by omega), if_pos (by omega), show i - 1 + 1 = i by omega, hik]
        · rw [hvalues (by omega), if_pos (by omega), show i - 1 + 1 = i by omega, hiv]

/-! ## Runs -/

/-- A call that changes the dictionary. -/
inductive Call
  | store (key value : Int)
  | remove (key : Int)

/-- One call; a remove that reports `REF_NOT_FOUND` is no end of the run. -/
def step (d : RefDict) : Call → Except Status RefDict
  | .store key value => d.store key value
  | .remove key => .ok (d.remove key).2

/-- A sequence of calls. -/
def run (calls : List Call) (d : RefDict) : Except Status RefDict := calls.foldlM step d

end RefDict

end RefineMesh
