import Mathlib.Tactic
import RefineMesh.Status
import RefineMesh.BallTree

/-!
# The search tree

`ref_search.c` keeps a tree of balls in arrays: slot `0` is the root, a slot
holds an item with its position and radius, the links to two children and
`children_ball`.  The distance is any metric on the positions, and the numbers
are exact.  The arrays are shown to hold a `Balls.BallTree` over the slots, and
each recursion of the source to compute the query of that tree.
-/

namespace RefineMesh

open Balls

/-- `REF_SEARCH_STRUCT` over positions `P` and numbers `R`. -/
structure RefSearch (P R : Type) where
  n : Nat
  empty : Nat
  item : Nat → Int
  left : Nat → Int
  right : Nat → Int
  pos : Nat → P
  radius : Nat → R
  childrenBall : Nat → R

/-- The arguments of one `ref_search_insert`. -/
structure SearchItem (P R : Type) where
  item : Int
  position : P
  radius : R

/-- `REF_DBL_MAX`. -/
def refDblMax (R : Type) [CommRing R] : R := 10 ^ 200

namespace RefSearch

variable {P R : Type}

section Code

variable [CommRing R] [LinearOrder R] (m : Metric P R)

/-- `ref_search_create`; `pos` and `radius` come from `ref_malloc` with the
content `memPos` and `memRadius`. -/
def create (n : Nat) (memPos : Nat → P) (memRadius : Nat → R) : RefSearch P R :=
  { n := n
    empty := 0
    item := fun _ => refEmpty
    left := fun _ => refEmpty
    right := fun _ => refEmpty
    pos := memPos
    radius := memRadius
    childrenBall := fun _ => 0 }

/-- `ref_search_home`. -/
def home : Nat → RefSearch P R → Int → Int → Except Status (RefSearch P R)
  | 0, _, _, _ => .error .undefined
  | fuel+1, s, child, parent =>
      if child = refEmpty then .error .failure
      else if parent = refEmpty then .error .failure
      else if child = parent then .ok s
      else
        let c := child.toNat
        let p := parent.toNat
        let childDistance := m.dist (s.pos c) (s.pos p)
        let s := { s with
          childrenBall :=
            Function.update s.childrenBall p (max (s.childrenBall p) (childDistance + s.radius c)) }
        if s.left p = refEmpty then .ok { s with left := Function.update s.left p child }
        else if s.right p = refEmpty then .ok { s with right := Function.update s.right p child }
        else
          let leftDistance := m.dist (s.pos c) (s.pos (s.left p).toNat)
          let rightDistance := m.dist (s.pos c) (s.pos (s.right p).toNat)
          if leftDistance < rightDistance then home fuel s child (s.left p)
          else home fuel s child (s.right p)

/-- `ref_search_insert`. -/
def insert (s : RefSearch P R) (c : SearchItem P R) : Except Status (RefSearch P R) :=
  if s.n ≤ s.empty then .error .increaseLimit
  else if c.item < 0 then .error .invalid
  else
    let location := s.empty
    let s := { s with
      empty := s.empty + 1
      item := Function.update s.item location c.item
      pos := Function.update s.pos location c.position
      radius := Function.update s.radius location c.radius }
    home m s.n s location 0

/-- `ref_search_gather`, from the list `refList` on. -/
def gather (s : RefSearch P R) (position : P) (radius : R) :
    Nat → Int → List Int → Except Status (List Int)
  | 0, _, _ => .error .undefined
  | fuel+1, parent, refList =>
      if s.n = 0 then .ok refList
      else if parent = refEmpty then .ok refList
      else if ¬ (0 ≤ parent ∧ parent < s.n) then .error .failure
      else
        let p := parent.toNat
        if s.item p = refEmpty then .ok refList
        else
          let distance := m.dist position (s.pos p)
          let refList :=
            if distance ≤ s.radius p + radius then refList ++ [s.item p] else refList
          if distance - radius ≤ s.childrenBall p then do
            let refList ← gather s position radius fuel (s.left p) refList
            gather s position radius fuel (s.right p) refList
          else .ok refList

/-- `ref_search_touching` on an empty list. -/
def touching (s : RefSearch P R) (position : P) (radius : R) : Except Status (List Int) :=
  s.gather m position radius (s.n + 1) 0 []

/-- `ref_search_trim`. -/
def trim (s : RefSearch P R) (position : P) : Nat → Int → R → Except Status R
  | 0, _, _ => .error .undefined
  | fuel+1, parent, trimRadius =>
      if parent = refEmpty then .ok trimRadius
      else if s.n ≤ parent then .ok trimRadius
      else
        let p := parent.toNat
        if s.item p = refEmpty then .ok trimRadius
        else
          let distance := m.dist position (s.pos p)
          let trimRadius :=
            if distance + s.radius p < trimRadius then distance + s.radius p else trimRadius
          if distance - s.childrenBall p < trimRadius then do
            let trimRadius ← trim s position fuel (s.left p) trimRadius
            trim s position fuel (s.right p) trimRadius
          else .ok trimRadius

/-- `ref_search_trim_radius`. -/
def trimRadius (s : RefSearch P R) (position : P) : Except Status R :=
  s.trim m position (s.n + 1) 0 (refDblMax R)

/-- `ref_search_nearest_candidates` on an empty list. -/
def nearestCandidates (s : RefSearch P R) (position : P) : Except Status (List Int) := do
  let trimRadius ← s.trimRadius m position
  s.touching m position trimRadius

/-- `ref_search_gather_seg` and `ref_search_gather_tri`, which differ in the
distance to an element only. -/
def gatherElement (s : RefSearch P R) (elementDist : Int → P → R) (position : P) :
    Nat → Int → R → Except Status R
  | 0, _, _ => .error .undefined
  | fuel+1, parent, distance =>
      if s.n = 0 then .ok distance
      else if parent = refEmpty then .ok distance
      else if ¬ (0 ≤ parent ∧ parent < s.n) then .error .failure
      else
        let p := parent.toNat
        if s.item p = refEmpty then .ok distance
        else
          let dist := m.dist position (s.pos p)
          let distance :=
            if dist - s.radius p ≤ distance then min distance (elementDist (s.item p) position)
            else distance
          if dist - s.childrenBall p ≤ distance then do
            let distance ← gatherElement s elementDist position fuel (s.left p) distance
            gatherElement s elementDist position fuel (s.right p) distance
          else .ok distance

/-- The distance of `ref_search_gather_seg`: `ref_search_distance2` on the two
points of the element. -/
def segDist (distance2 : P → P → P → R) (xyz : Nat → P) (element : Int) (position : P) : R :=
  distance2 (xyz (2 * element.toNat)) (xyz (1 + 2 * element.toNat)) position

/-- The distance of `ref_search_gather_tri`: `ref_search_distance3` on the three
points of the element. -/
def triDist (distance3 : P → P → P → P → R) (xyz : Nat → P) (element : Int) (position : P) : R :=
  distance3 (xyz (3 * element.toNat)) (xyz (1 + 3 * element.toNat)) (xyz (2 + 3 * element.toNat))
    position

/-- The element distance that `ref_search_nearest_element` selects. -/
def elementDistance (distance2 : P → P → P → R) (distance3 : P → P → P → P → R) (nodePer : Nat)
    (xyz : Nat → P) : Int → P → R :=
  if 2 = nodePer then segDist distance2 xyz else triDist distance3 xyz

/-- `ref_search_nearest_element`. -/
def nearestElement (s : RefSearch P R) (distance2 : P → P → P → R)
    (distance3 : P → P → P → P → R) (nodePer : Nat) (xyz : Nat → P) (position : P)
    (distance : R) : Except Status R :=
  if 2 = nodePer then s.gatherElement m (segDist distance2 xyz) position (s.n + 1) 0 distance
  else s.gatherElement m (triDist distance3 xyz) position (s.n + 1) 0 distance

end Code

/-! ## The arrays hold a tree -/

/-- The links from `i` on are those of the tree over slots. -/
def Shape (s : RefSearch P R) : Int → BallTree Nat R → Prop
  | i, .tip => i = refEmpty
  | i, .node k ball left right =>
      i = k ∧ s.childrenBall k = ball ∧ s.Shape (s.left k) left ∧ s.Shape (s.right k) right

/-- The two stores have the same links and ball at a slot. -/
def SameAt (s s' : RefSearch P R) (k : Nat) : Prop :=
  s'.left k = s.left k ∧ s'.right k = s.right k ∧ s'.childrenBall k = s.childrenBall k

/-- Only links and balls differ. -/
structure Relinked (s s' : RefSearch P R) : Prop where
  n : s'.n = s.n
  empty : s'.empty = s.empty
  item : s'.item = s.item
  pos : s'.pos = s.pos
  radius : s'.radius = s.radius

theorem SameAt.refl (s : RefSearch P R) (k : Nat) : s.SameAt s k := ⟨rfl, rfl, rfl⟩

theorem SameAt.trans {s s' s'' : RefSearch P R} {k : Nat} (h : s.SameAt s' k)
    (h' : s'.SameAt s'' k) : s.SameAt s'' k :=
  ⟨h'.1.trans h.1, h'.2.1.trans h.2.1, h'.2.2.trans h.2.2⟩

theorem Relinked.trans {s s' s'' : RefSearch P R} (h : s.Relinked s') (h' : s'.Relinked s'') :
    s.Relinked s'' :=
  ⟨h'.n.trans h.n, h'.empty.trans h.empty, h'.item.trans h.item, h'.pos.trans h.pos,
    h'.radius.trans h.radius⟩

/-- What happens outside the slots of a tree leaves the tree alone. -/
theorem Shape.frame {s s' : RefSearch P R} {t : BallTree Nat R} :
    ∀ {i}, s.Shape i t → (∀ k ∈ t.entries, s.SameAt s' k) → s'.Shape i t := by
  induction t with
  | tip => exact fun h _ => h
  | node k ball left right ihl ihr =>
      rintro i ⟨hi, hball, hleft, hright⟩ hsame
      obtain ⟨hl, hr, hb⟩ := hsame k List.mem_cons_self
      refine ⟨hi, hb.trans hball, ?_, ?_⟩
      · rw [hl]
        exact ihl hleft fun a ha => hsame a (List.mem_cons_of_mem k (List.mem_append_left _ ha))
      · rw [hr]
        exact ihr hright fun a ha => hsame a (List.mem_cons_of_mem k (List.mem_append_right _ ha))

variable [CommRing R] [LinearOrder R] (m : Metric P R)

/-- **The walk home.**  From the root of a tree the recursion of the source
puts a fresh slot where the tree puts it and touches no slot outside. -/
theorem home_spec {c : Nat} {t : BallTree Nat R} :
    ∀ fuel (s : RefSearch P R) i, s.Shape i t → t.entries.Nodup → c ∉ t.entries → t ≠ .tip →
      t.size ≤ fuel → s.left c = refEmpty → s.right c = refEmpty → s.childrenBall c = 0 →
      ∃ s', home m fuel s c i = .ok s' ∧ s.Relinked s' ∧
        s'.Shape i (t.insert m s.pos s.radius c) ∧ ∀ k, k ∉ t.entries → k ≠ c → s.SameAt s' k := by
  induction t with
  | tip => exact fun _ _ _ _ _ _ hne => absurd rfl hne
  | node e ball left right ihl ihr =>
      rintro fuel s i ⟨rfl, hball, hleft, hright⟩ hnodup hc - hfuel hcl hcr hcb
      obtain ⟨fuel, rfl⟩ : ∃ f, fuel = f + 1 := ⟨fuel - 1, by simp [BallTree.size] at hfuel; omega⟩
      simp only [BallTree.size] at hfuel
      simp only [BallTree.entries, List.nodup_cons, List.mem_append, List.mem_cons, not_or,
        List.nodup_append] at hnodup hc
      obtain ⟨⟨hel, her⟩, hndl, hndr, hdisj⟩ := hnodup
      obtain ⟨hce, hcleft, hcright⟩ := hc
      -- the ball of the node is widened before the child is placed
      set wide := max ball (m.dist (s.pos c) (s.pos e) + s.radius c) with hwide
      set s1 : RefSearch P R := { s with
        childrenBall := Function.update s.childrenBall e wide } with hs1
      have hrun : home m (fuel + 1) s c (e : Int) =
          if s1.left e = refEmpty then .ok { s1 with left := Function.update s1.left e c }
          else if s1.right e = refEmpty then .ok { s1 with right := Function.update s1.right e c }
          else if m.dist (s.pos c) (s.pos (s.left e).toNat) <
              m.dist (s.pos c) (s.pos (s.right e).toNat) then home m fuel s1 c (s.left e)
          else home m fuel s1 c (s.right e) := by
        simp only [home, natCast_ne_refEmpty, if_false, Int.toNat_natCast, hball]
        rw [if_neg (by omega)]
      have hsame1 : ∀ k, k ≠ e → s.SameAt s1 k := fun k hk =>
        ⟨rfl, rfl, Function.update_of_ne hk _ _⟩
      have hrel1 : s.Relinked s1 := ⟨rfl, rfl, rfl, rfl, rfl⟩
      have hleft1 : s1.Shape (s.left e) left :=
        hleft.frame fun k hk => hsame1 k (ne_of_mem_of_not_mem hk hel)
      have hright1 : s1.Shape (s.right e) right :=
        hright.frame fun k hk => hsame1 k (ne_of_mem_of_not_mem hk her)
      have hball1 : s1.childrenBall e = wide := Function.update_self ..
      have hcb1 : s1.childrenBall c = 0 := (Function.update_of_ne hce _ _).trans hcb
      have hout : ∀ {k}, k ∉ (BallTree.node e ball left right).entries →
          k ≠ e ∧ k ∉ left.entries ∧ k ∉ right.entries := by
        intro k hk
        simpa [BallTree.entries] using hk
      cases left with
      | tip =>
          have hfree : s1.left e = refEmpty := hleft
          refine ⟨_, hrun.trans (if_pos hfree), ⟨rfl, rfl, rfl, rfl, rfl⟩, ?_, ?_⟩
          · refine ⟨rfl, hball1, ?_, ?_⟩
            · exact ⟨Function.update_self .., hcb1,
                (Function.update_of_ne hce _ _).trans hcl, hcr⟩
            · exact hright1.frame fun k hk =>
                ⟨Function.update_of_ne (ne_of_mem_of_not_mem hk her) _ _, rfl, rfl⟩
          · intro k hk _
            have hke := (hout hk).1
            exact (hsame1 k hke).trans ⟨Function.update_of_ne hke _ _, rfl, rfl⟩
      | node l bl ll lr =>
          have htaken : s1.left e ≠ refEmpty := by
            rw [show s1.left e = (l : Int) from hleft.1]
            exact natCast_ne_refEmpty l
          cases right with
          | tip =>
              have hfree : s1.right e = refEmpty := hright
              refine ⟨_, hrun.trans ((if_neg htaken).trans (if_pos hfree)),
                ⟨rfl, rfl, rfl, rfl, rfl⟩, ?_, ?_⟩
              · refine ⟨rfl, hball1, ?_, ?_⟩
                · exact hleft1.frame fun k hk =>
                    ⟨rfl, Function.update_of_ne (ne_of_mem_of_not_mem hk hel) _ _, rfl⟩
                · exact ⟨Function.update_self .., hcb1, hcl,
                    (Function.update_of_ne hce _ _).trans hcr⟩
              · intro k hk _
                have hke := (hout hk).1
                exact (hsame1 k hke).trans ⟨rfl, Function.update_of_ne hke _ _, rfl⟩
          | node r br rl rr =>
              have htaken' : s1.right e ≠ refEmpty := by
                rw [show s1.right e = (r : Int) from hright.1]
                exact natCast_ne_refEmpty r
              rw [hrun, if_neg htaken, if_neg htaken', show s.left e = (l : Int) from hleft.1,
                show s.right e = (r : Int) from hright.1, Int.toNat_natCast, Int.toNat_natCast]
              simp only [BallTree.insert]
              split_ifs with hnear
              · rw [hleft.1] at hleft1
                obtain ⟨s', hs', hrel, hshape, hsame⟩ := ihl fuel s1 l hleft1 hndl hcleft (by simp)
                  (by simp only [BallTree.size] at hfuel ⊢; omega) hcl hcr hcb1
                have hkeep : ∀ k, k ∉ (BallTree.node l bl ll lr).entries → k ≠ c → k ≠ e →
                    s.SameAt s' k := fun k hk hkc hke => (hsame1 k hke).trans (hsame k hk hkc)
                obtain ⟨hkl, hkr, hkb⟩ := hsame e hel (Ne.symm hce)
                refine ⟨s', hs', hrel1.trans hrel, ⟨rfl, hkb.trans hball1, ?_, ?_⟩, ?_⟩
                · rw [hkl, show s1.left e = (l : Int) from hleft.1]
                  exact hshape
                · rw [hkr]
                  refine hright1.frame fun k hk => hsame k (fun hkl => ?_) fun heq => ?_
                  · exact hdisj k hkl k hk rfl
                  · exact hcright (heq ▸ hk)
                · intro k hk hkc
                  obtain ⟨hke, hkl, -⟩ := hout hk
                  exact hkeep k hkl hkc hke
              · rw [hright.1] at hright1
                obtain ⟨s', hs', hrel, hshape, hsame⟩ := ihr fuel s1 r hright1 hndr hcright (by simp)
                  (by simp only [BallTree.size] at hfuel ⊢; omega) hcl hcr hcb1
                have hkeep : ∀ k, k ∉ (BallTree.node r br rl rr).entries → k ≠ c → k ≠ e →
                    s.SameAt s' k := fun k hk hkc hke => (hsame1 k hke).trans (hsame k hk hkc)
                obtain ⟨hkl, hkr, hkb⟩ := hsame e her (Ne.symm hce)
                refine ⟨s', hs', hrel1.trans hrel, ⟨rfl, hkb.trans hball1, ?_, ?_⟩, ?_⟩
                · rw [hkl]
                  refine hleft1.frame fun k hk => hsame k (fun hkr => ?_) fun heq => ?_
                  · exact hdisj k hk k hkr rfl
                  · exact hcleft (heq ▸ hk)
                · rw [hkr, show s1.right e = (r : Int) from hright.1]
                  exact hshape
                · intro k hk hkc
                  obtain ⟨hke, -, hkr⟩ := hout hk
                  exact hkeep k hkr hkc hke

/-- The slots of a tree are inside the arrays and in use. -/
def InUse (s : RefSearch P R) (t : BallTree Nat R) : Prop :=
  ∀ k ∈ t.entries, k < s.n ∧ 0 ≤ s.item k

omit [CommRing R] [LinearOrder R] in
theorem InUse.node {s : RefSearch P R} {e : Nat} {ball : R} {left right : BallTree Nat R}
    (h : s.InUse (.node e ball left right)) :
    (e < s.n ∧ 0 ≤ s.item e) ∧ s.InUse left ∧ s.InUse right :=
  ⟨h e List.mem_cons_self,
    fun k hk => h k (List.mem_cons_of_mem e (List.mem_append_left _ hk)),
    fun k hk => h k (List.mem_cons_of_mem e (List.mem_append_right _ hk))⟩

omit [CommRing R] [LinearOrder R] in
theorem item_ne_refEmpty {s : RefSearch P R} {e : Nat} (h : 0 ≤ s.item e) :
    s.item e ≠ refEmpty := by
  unfold refEmpty
  omega

theorem gather_spec {s : RefSearch P R} (q : P) (radius : R) {t : BallTree Nat R} :
    ∀ fuel i refList, s.Shape i t → s.InUse t → t.size < fuel →
      s.gather m q radius fuel i refList =
        .ok (refList ++ (t.gather m s.pos s.radius q radius).map s.item) := by
  induction t with
  | tip =>
      rintro (_ | fuel) i refList hi - hfuel
      · simp [BallTree.size] at hfuel
      · simp [gather, show i = refEmpty from hi, BallTree.gather]
  | node e ball left right ihl ihr =>
      rintro (_ | fuel) i refList ⟨rfl, hball, hleft, hright⟩ huse hfuel
      · simp at hfuel
      · simp only [BallTree.size] at hfuel
        obtain ⟨⟨hin, hitem⟩, hul, hur⟩ := huse.node
        have hn : s.n ≠ 0 := by omega
        simp only [gather, if_neg hn, natCast_ne_refEmpty, if_false, Int.toNat_natCast, hball,
          if_neg (item_ne_refEmpty hitem), BallTree.gather]
        rw [if_neg (by omega)]
        have hhead : (if m.dist q (s.pos e) ≤ s.radius e + radius then refList ++ [s.item e]
            else refList) = refList ++
              (if m.dist q (s.pos e) ≤ s.radius e + radius then [e] else []).map s.item := by
          split_ifs <;> simp
        rw [hhead]
        split_ifs with hnear
        · rw [ihl fuel _ _ hleft hul (by omega)]
          simp only [bind, Except.bind]
          rw [ihr fuel _ _ hright hur (by omega)]
          simp
        · rw [ihl fuel _ _ hleft hul (by omega)]
          simp only [bind, Except.bind]
          rw [ihr fuel _ _ hright hur (by omega)]
          simp
        · simp
        · simp

theorem trim_spec {s : RefSearch P R} (q : P) {t : BallTree Nat R} :
    ∀ fuel i bound, s.Shape i t → s.InUse t → t.size < fuel →
      s.trim m q fuel i bound = .ok (t.trim m s.pos s.radius q bound) := by
  induction t with
  | tip =>
      rintro (_ | fuel) i bound hi - hfuel
      · simp [BallTree.size] at hfuel
      · simp [trim, show i = refEmpty from hi, BallTree.trim]
  | node e ball left right ihl ihr =>
      rintro (_ | fuel) i bound ⟨rfl, hball, hleft, hright⟩ huse hfuel
      · simp at hfuel
      · simp only [BallTree.size] at hfuel
        obtain ⟨⟨hin, hitem⟩, hul, hur⟩ := huse.node
        simp only [trim, natCast_ne_refEmpty, if_false, Int.toNat_natCast, hball,
          if_neg (item_ne_refEmpty hitem), BallTree.trim]
        rw [if_neg (by omega)]
        split_ifs with hnear hnear' hnear'
        · rw [ihl fuel _ _ hleft hul (by omega)]
          exact ihr fuel _ _ hright hur (by omega)
        · rfl
        · rw [ihl fuel _ _ hleft hul (by omega)]
          exact ihr fuel _ _ hright hur (by omega)
        · rfl

theorem gatherElement_spec {s : RefSearch P R} (elementDist : Int → P → R) (q : P)
    {t : BallTree Nat R} :
    ∀ fuel i bound, s.Shape i t → s.InUse t → t.size < fuel →
      s.gatherElement m elementDist q fuel i bound =
        .ok (t.nearest m s.pos s.radius q (fun k => elementDist (s.item k) q) bound) := by
  induction t with
  | tip =>
      rintro (_ | fuel) i bound hi - hfuel
      · simp [BallTree.size] at hfuel
      · simp [gatherElement, show i = refEmpty from hi, BallTree.nearest]
  | node e ball left right ihl ihr =>
      rintro (_ | fuel) i bound ⟨rfl, hball, hleft, hright⟩ huse hfuel
      · simp at hfuel
      · simp only [BallTree.size] at hfuel
        obtain ⟨⟨hin, hitem⟩, hul, hur⟩ := huse.node
        have hn : s.n ≠ 0 := by omega
        simp only [gatherElement, if_neg hn, natCast_ne_refEmpty, if_false, Int.toNat_natCast,
          hball, if_neg (item_ne_refEmpty hitem), BallTree.nearest]
        rw [if_neg (by omega)]
        split_ifs with hnear hnear' hnear'
        · rw [ihl fuel _ _ hleft hul (by omega)]
          exact ihr fuel _ _ hright hur (by omega)
        · rfl
        · rw [ihl fuel _ _ hleft hul (by omega)]
          exact ihr fuel _ _ hright hur (by omega)
        · rfl

/-! ## The store after a sequence of inserts -/

/-- The arrays hold the tree `t`, whose entries are the used slots. -/
structure Holds (s : RefSearch P R) (t : BallTree Nat R) : Prop where
  root : s.empty = 0 ∧ t = .tip ∨ s.Shape 0 t ∧ t ≠ .tip
  slots : t.entries.Perm (List.range s.empty)
  covers : t.Covers m s.pos s.radius
  fit : s.empty ≤ s.n
  filled : ∀ k, k < s.empty → 0 ≤ s.item k
  blank : ∀ k, s.empty ≤ k → s.item k = refEmpty ∧ s.left k = refEmpty ∧ s.right k = refEmpty ∧
    s.childrenBall k = 0

/-- What a slot holds. -/
def slotItem (s : RefSearch P R) (k : Nat) : SearchItem P R := ⟨s.item k, s.pos k, s.radius k⟩

/-- What the used slots hold, in the order they were filled. -/
def contents (s : RefSearch P R) : List (SearchItem P R) := (List.range s.empty).map s.slotItem

variable {m}

theorem Holds.mem_entries {s : RefSearch P R} {t : BallTree Nat R} (h : s.Holds m t) {k : Nat} :
    k ∈ t.entries ↔ k < s.empty := by
  rw [h.slots.mem_iff, List.mem_range]

theorem Holds.inUse {s : RefSearch P R} {t : BallTree Nat R} (h : s.Holds m t) : s.InUse t := by
  intro k hk
  have hlt := h.mem_entries.mp hk
  exact ⟨lt_of_lt_of_le hlt h.fit, h.filled k hlt⟩

theorem Holds.size_eq {s : RefSearch P R} {t : BallTree Nat R} (h : s.Holds m t) :
    t.size = s.empty := by
  rw [← BallTree.entries_length, h.slots.length_eq, List.length_range]

theorem Holds.size_lt {s : RefSearch P R} {t : BallTree Nat R} (h : s.Holds m t) :
    t.size < s.n + 1 := by
  rw [h.size_eq]
  exact Nat.lt_succ_of_le h.fit

theorem create_holds (n : Nat) (memPos : Nat → P) (memRadius : Nat → R) :
    (create n memPos memRadius).Holds m .tip where
  root := Or.inl ⟨rfl, rfl⟩
  slots := List.Perm.refl _
  covers := trivial
  fit := Nat.zero_le n
  filled := fun _ hk => absurd hk (Nat.not_lt_zero _)
  blank := fun _ _ => ⟨rfl, rfl, rfl, rfl⟩

/-- **An insert** is refused when the arrays are full or the item is negative;
otherwise the tree gets one more entry, the item of the call. -/
theorem insert_spec {s : RefSearch P R} {t : BallTree Nat R} (h : s.Holds m t)
    (c : SearchItem P R) :
    s.n ≤ s.empty ∧ s.insert m c = .error .increaseLimit ∨
      c.item < 0 ∧ s.insert m c = .error .invalid ∨
      (s.empty < s.n ∧ 0 ≤ c.item) ∧ ∃ s' t', s.insert m c = .ok s' ∧ s'.Holds m t' ∧
        s'.n = s.n ∧ s'.contents = s.contents ++ [c] := by
  by_cases hfull : s.n ≤ s.empty
  · exact Or.inl ⟨hfull, by rw [insert, if_pos hfull]⟩
  by_cases hneg : c.item < 0
  · exact Or.inr (Or.inl ⟨hneg, by rw [insert, if_neg hfull, if_pos hneg]⟩)
  refine Or.inr (Or.inr ⟨⟨by omega, by omega⟩, ?_⟩)
  set location := s.empty with hlocation
  set s1 : RefSearch P R := { s with
    empty := s.empty + 1
    item := Function.update s.item location c.item
    pos := Function.update s.pos location c.position
    radius := Function.update s.radius location c.radius } with hs1
  have hrun : s.insert m c = home m s.n s1 location 0 := by
    rw [insert, if_neg hfull, if_neg hneg]
  obtain ⟨-, hcl, hcr, hcb⟩ := h.blank location (le_refl _)
  have hold : ∀ k, k ∈ t.entries → k ≠ location := fun k hk => by
    have := h.mem_entries.mp hk
    omega
  have hcovers1 : t.Covers m s1.pos s1.radius := h.covers.congr m s.pos s.radius fun k hk =>
    ⟨Function.update_of_ne (hold k hk) _ _, Function.update_of_ne (hold k hk) _ _⟩
  have hnotin : location ∉ t.entries := fun hmem => hold location hmem rfl
  -- the data of the slots, whatever the walk home does to the links
  have hdone : ∀ s', s1.Relinked s' → (∀ k, k ∉ t.entries → k ≠ location → s1.SameAt s' k) →
      ∀ t' : BallTree Nat R, s'.Shape 0 t' → t' ≠ .tip → t'.entries.Perm (location :: t.entries) →
        t'.Covers m s1.pos s1.radius →
        s'.Holds m t' ∧ s'.n = s.n ∧ s'.contents = s.contents ++ [c] := by
    intro s' hrel hsame t' hshape hne hperm hcov
    have hempty : s'.empty = s.empty + 1 := hrel.empty
    refine ⟨⟨Or.inr ⟨hshape, hne⟩, ?_, ?_, ?_, ?_, ?_⟩, hrel.n, ?_⟩
    · rw [hempty, List.range_succ]
      exact hperm.trans ((h.slots.cons location).trans (List.perm_append_singleton _ _).symm)
    · rw [hrel.pos, hrel.radius]
      exact hcov
    · rw [hempty, hrel.n]
      exact not_le.mp hfull
    · intro k hk
      rw [hrel.item]
      by_cases hkl : k = location
      · rw [hkl, show s1.item location = c.item from Function.update_self ..]
        omega
      · rw [show s1.item k = s.item k from Function.update_of_ne hkl _ _]
        exact h.filled k (by omega)
    · intro k hk
      have hkl : k ≠ location := by omega
      obtain ⟨hitem, hl, hr, hb⟩ := h.blank k (by omega)
      obtain ⟨hsl, hsr, hsb⟩ := hsame k (fun hmem => by
        have := h.mem_entries.mp hmem
        omega) hkl
      refine ⟨?_, hsl.trans hl, hsr.trans hr, hsb.trans hb⟩
      rw [hrel.item]
      exact (Function.update_of_ne hkl _ _).trans hitem
    · simp only [contents, hempty, List.range_succ, List.map_append, List.map_cons, List.map_nil]
      congr 1
      · refine List.map_congr_left fun k hk => ?_
        have hkl : k ≠ location := by
          have := List.mem_range.mp hk
          omega
        simp only [slotItem, hrel.item, hrel.pos, hrel.radius, hs1, Function.update_of_ne hkl]
      · simp only [slotItem, hrel.item, hrel.pos, hrel.radius, hs1, ← hlocation,
          Function.update_self]
  rcases h.root with ⟨hnone, rfl⟩ | ⟨hshape, hne⟩
  · have hzero : location = 0 := hnone
    obtain ⟨n, hn⟩ : ∃ n, s.n = n + 1 := ⟨s.n - 1, by omega⟩
    have hstay : home m s.n s1 location 0 = .ok s1 := by
      rw [hn, hzero]
      simp [home, refEmpty]
    refine ⟨s1, .single location, hrun.trans hstay, hdone s1 ⟨rfl, rfl, rfl, rfl, rfl⟩
      (fun k _ _ => SameAt.refl s1 k) _ ?_ (by simp [BallTree.single]) (List.Perm.refl _)
      (BallTree.covers_single m s1.pos s1.radius location)⟩
    exact ⟨by rw [hzero]; rfl, hcb, hcl, hcr⟩
  · have hsize := h.size_eq
    have hshape1 : s1.Shape 0 t := hshape.frame fun k _ => ⟨rfl, rfl, rfl⟩
    obtain ⟨s', hs', hrel, hshape', hsame⟩ := home_spec m s.n s1 0 hshape1
      (h.slots.nodup_iff.mpr List.nodup_range) hnotin hne (by omega) hcl hcr hcb
    have hperm := BallTree.entries_insert m s1.pos s1.radius location t
    refine ⟨s', t.insert m s1.pos s1.radius location, hrun.trans hs', hdone s' hrel hsame _ hshape'
      (fun htip => ?_) hperm (hcovers1.insert m s1.pos s1.radius location)⟩
    have hlen := hperm.length_eq
    rw [htip] at hlen
    simp [BallTree.entries] at hlen

variable (m)

/-- A sequence of inserts.  A refused insert returned before it wrote. -/
def insertAll (s : RefSearch P R) (calls : List (SearchItem P R)) : RefSearch P R :=
  calls.foldl (fun s c => match s.insert m c with
    | .ok s' => s'
    | .error _ => s) s

/-- The calls that are not refused: the first `n` whose item is not negative. -/
def accepted (n : Nat) (calls : List (SearchItem P R)) : List (SearchItem P R) :=
  (calls.filter fun c => 0 ≤ c.item).take n

variable {m}

/-- After any sequence of inserts the arrays hold a tree of the accepted
calls. -/
theorem insertAll_spec (n : Nat) (memPos : Nat → P) (memRadius : Nat → R)
    (calls : List (SearchItem P R)) :
    ∃ t, (insertAll m (create n memPos memRadius) calls).Holds m t ∧
      (insertAll m (create n memPos memRadius) calls).n = n ∧
      (insertAll m (create n memPos memRadius) calls).contents = accepted n calls := by
  induction calls using List.reverseRecOn with
  | nil => exact ⟨.tip, create_holds n memPos memRadius, rfl, by simp [insertAll, contents,
      create, accepted]⟩
  | append_singleton calls c ih =>
      obtain ⟨t, hold, hn, hcontents⟩ := ih
      set s := insertAll m (create n memPos memRadius) calls with hs
      have hlast : insertAll m (create n memPos memRadius) (calls ++ [c]) =
          match s.insert m c with
          | .ok s' => s'
          | .error _ => s := by
        simp only [insertAll, List.foldl_append, List.foldl_cons, List.foldl_nil, hs]
      have hlen : s.empty = (accepted n calls).length := by
        rw [← hcontents, contents, List.length_map, List.length_range]
      rw [hlast]
      rcases insert_spec hold c with ⟨hfull, hrun⟩ | ⟨hneg, hrun⟩ |
        ⟨⟨hroom, hpos⟩, s', t', hrun, hold', hn', hcontents'⟩
      · rw [hrun]
        refine ⟨t, hold, hn, hcontents.trans ?_⟩
        have htake : n ≤ (calls.filter fun c => 0 ≤ c.item).length := by
          rw [accepted, List.length_take] at hlen
          omega
        simp only [accepted, List.filter_append]
        rw [List.take_append_of_le_length htake]
      · rw [hrun]
        refine ⟨t, hold, hn, hcontents.trans ?_⟩
        simp [accepted, not_le.mpr hneg]
      · rw [hrun]
        refine ⟨t', hold', hn'.trans hn, hcontents'.trans ?_⟩
        have hshort : (calls.filter fun c => 0 ≤ c.item).length < n := by
          rw [accepted, List.length_take] at hlen
          omega
        rw [hcontents]
        simp only [accepted, List.filter_append, List.filter_cons, hpos, decide_true, if_true,
          List.filter_nil]
        rw [List.take_of_length_le (le_of_lt hshort), List.take_of_length_le]
        rw [List.length_append]
        exact hshort

theorem Holds.mem_contents {s : RefSearch P R} {t : BallTree Nat R} (h : s.Holds m t)
    {c : SearchItem P R} : c ∈ s.contents ↔ ∃ k ∈ t.entries, s.slotItem k = c := by
  simp only [contents, List.mem_map, List.mem_range, h.mem_entries]

theorem Holds.leastOf_isLeast {s : RefSearch P R} {t : BallTree Nat R} (h : s.Holds m t)
    (value : SearchItem P R → R) (bound : R) :
    IsLeast {r | r = bound ∨ ∃ c ∈ s.contents, r = value c}
      (leastOf (fun k => value (s.slotItem k)) t.entries bound) := by
  obtain ⟨hmem, hlow⟩ := Balls.leastOf_isLeast (fun k => value (s.slotItem k)) t.entries bound
  constructor
  · rcases hmem with hmem | ⟨k, hk, hval⟩
    · exact Or.inl hmem
    · exact Or.inr ⟨s.slotItem k, h.mem_contents.mpr ⟨k, hk, rfl⟩, hval⟩
  · rintro r (rfl | ⟨c, hc, rfl⟩)
    · exact hlow (Or.inl rfl)
    · obtain ⟨k, hk, rfl⟩ := h.mem_contents.mp hc
      exact hlow (Or.inr ⟨k, hk, rfl⟩)

/-- Where a recursion starts at slot `0` it sees the whole tree: with nothing
inserted the slot is empty. -/
theorem Holds.from_root {s : RefSearch P R} {t : BallTree Nat R} (h : s.Holds m t) :
    s.empty = 0 ∧ t = .tip ∧ s.item 0 = refEmpty ∨ s.Shape 0 t := by
  rcases h.root with ⟨hnone, htip⟩ | ⟨hshape, -⟩
  · exact Or.inl ⟨hnone, htip, (h.blank 0 (by omega)).1⟩
  · exact Or.inr hshape

variable [IsStrictOrderedRing R]

theorem Holds.touching_eq {s : RefSearch P R} {t : BallTree Nat R} (h : s.Holds m t) (q : P)
    (radius : R) :
    ∃ l, s.touching m q radius = .ok l ∧
      l.Perm ((s.contents.filter fun c => m.dist q c.position ≤ c.radius + radius).map
        SearchItem.item) := by
  have hperm : ((t.gather m s.pos s.radius q radius).map s.item).Perm
      ((s.contents.filter fun c => m.dist q c.position ≤ c.radius + radius).map
        SearchItem.item) := by
    rw [h.covers.gather_eq, contents, List.filter_map, List.map_map]
    exact (h.slots.filter _).map _
  refine ⟨_, ?_, hperm⟩
  rcases h.from_root with ⟨-, rfl, hitem⟩ | hshape
  · rw [touching, gather]
    by_cases hn : s.n = 0
    · simp [hn, BallTree.gather]
    · simp [hn, hitem, refEmpty, BallTree.gather]
  · rw [touching, gather_spec m q radius _ _ _ hshape h.inUse h.size_lt, List.nil_append]

theorem Holds.trim_eq {s : RefSearch P R} {t : BallTree Nat R} (h : s.Holds m t) (q : P)
    (hradius : ∀ c ∈ s.contents, 0 ≤ c.radius) (bound : R) :
    ∃ r, s.trim m q (s.n + 1) 0 bound = .ok r ∧
      IsLeast {r | r = bound ∨ ∃ c ∈ s.contents, r = m.dist q c.position + c.radius} r := by
  refine ⟨_, ?_, h.leastOf_isLeast (fun c => m.dist q c.position + c.radius) bound⟩
  have htrim := h.covers.trim_eq q (fun k hk => hradius _ (h.mem_contents.mpr ⟨k, hk, rfl⟩)) bound
  simp only [slotItem]
  rw [← htrim]
  rcases h.from_root with ⟨-, rfl, hitem⟩ | hshape
  · rw [trim]
    by_cases hn : s.n = 0
    · simp [hn, refEmpty, BallTree.trim]
    · simp [hn, hitem, refEmpty, BallTree.trim]
  · exact trim_spec m q _ _ bound hshape h.inUse h.size_lt

theorem Holds.gatherElement_eq {s : RefSearch P R} {t : BallTree Nat R} (h : s.Holds m t)
    (elementDist : Int → P → R) (q : P)
    (hnear : ∀ c ∈ s.contents, m.dist q c.position - c.radius ≤ elementDist c.item q)
    (bound : R) :
    ∃ r, s.gatherElement m elementDist q (s.n + 1) 0 bound = .ok r ∧
      IsLeast {r | r = bound ∨ ∃ c ∈ s.contents, r = elementDist c.item q} r := by
  refine ⟨_, ?_, h.leastOf_isLeast (fun c => elementDist c.item q) bound⟩
  have hleast := h.covers.nearest_eq q (fun k => elementDist (s.item k) q)
    (fun k hk => hnear _ (h.mem_contents.mpr ⟨k, hk, rfl⟩)) bound
  simp only [slotItem]
  rw [← hleast]
  rcases h.from_root with ⟨-, rfl, hitem⟩ | hshape
  · rw [gatherElement]
    by_cases hn : s.n = 0
    · simp [hn, BallTree.nearest]
    · simp [hn, hitem, refEmpty, BallTree.nearest]
  · exact gatherElement_spec m elementDist q _ _ bound hshape h.inUse h.size_lt

/-- **The search tree answers exactly**, whatever the order of the inserts.
The numbers are exact; an element is the set of its points, its distance the
least distance to a point, and the ball of its item contains it. -/
theorem search_answers_exactly (m : Metric P R) (n : Nat) (memPos : Nat → P)
    (memRadius : Nat → R) (calls : List (SearchItem P R)) (hradius : ∀ c ∈ calls, 0 ≤ c.radius) :
    (∀ q radius, ∃ l,
      (insertAll m (create n memPos memRadius) calls).touching m q radius = .ok l ∧
      l.Perm (((accepted n calls).filter fun c => m.dist q c.position ≤ c.radius + radius).map
        SearchItem.item)) ∧
    (∀ q, ∃ r, (insertAll m (create n memPos memRadius) calls).trimRadius m q = .ok r ∧
      IsLeast {r | r = refDblMax R ∨
        ∃ c ∈ accepted n calls, r = m.dist q c.position + c.radius} r) ∧
    ∀ (distance2 : P → P → P → R) (distance3 : P → P → P → P → R) (nodePer : Nat) (xyz : Nat → P)
      (element : Int → Set P),
      (∀ c ∈ accepted n calls, ∀ q, IsLeast {r | ∃ x ∈ element c.item, r = m.dist q x}
        (elementDistance distance2 distance3 nodePer xyz c.item q)) →
      (∀ c ∈ accepted n calls, ∀ x ∈ element c.item, m.dist x c.position ≤ c.radius) →
      (∀ q bound, ∃ r, (insertAll m (create n memPos memRadius) calls).nearestElement m distance2
          distance3 nodePer xyz q bound = .ok r ∧
        IsLeast {r | r = bound ∨ ∃ c ∈ accepted n calls,
          r = elementDistance distance2 distance3 nodePer xyz c.item q} r) ∧
      ∀ q, ∃ l, (insertAll m (create n memPos memRadius) calls).nearestCandidates m q = .ok l ∧
        ∀ c ∈ accepted n calls,
          (∀ c' ∈ accepted n calls, elementDistance distance2 distance3 nodePer xyz c.item q ≤
            elementDistance distance2 distance3 nodePer xyz c'.item q) →
          elementDistance distance2 distance3 nodePer xyz c.item q ≤ refDblMax R → c.item ∈ l := by
  obtain ⟨t, hold, -, hcontents⟩ := insertAll_spec (m := m) n memPos memRadius calls
  set s := insertAll m (create n memPos memRadius) calls with hs
  have hrad : ∀ c ∈ s.contents, 0 ≤ c.radius := by
    intro c hc
    rw [hcontents] at hc
    exact hradius c (List.mem_of_mem_filter (List.mem_of_mem_take hc))
  rw [← hcontents]
  refine ⟨hold.touching_eq, fun q => hold.trim_eq q hrad _, ?_⟩
  intro distance2 distance3 nodePer xyz element hleast hball
  set elementDist := elementDistance distance2 distance3 nodePer xyz with helement
  -- the ball of an item reaches as far as its element
  have hnear : ∀ q, ∀ c ∈ s.contents,
      m.dist q c.position - c.radius ≤ elementDist c.item q := by
    intro q c hc
    obtain ⟨x, hx, hdist⟩ := (hleast c hc q).1
    rw [hdist]
    linarith [m.triangle q x c.position, hball c hc x hx]
  refine ⟨fun q bound => ?_, fun q => ?_⟩
  · have hsel : s.nearestElement m distance2 distance3 nodePer xyz q bound =
        s.gatherElement m elementDist q (s.n + 1) 0 bound := by
      rw [nearestElement, helement, elementDistance]
      split_ifs <;> rfl
    rw [hsel]
    exact hold.gatherElement_eq elementDist q (hnear q) bound
  · obtain ⟨r, hr, hmem, -⟩ := hold.trim_eq q hrad (refDblMax R)
    obtain ⟨l, hl, hperm⟩ := hold.touching_eq q r
    refine ⟨l, bind_eq_ok.mpr ⟨r, hr, hl⟩, fun c hc hmin hmax => ?_⟩
    -- the trimmed radius is at least the least element distance
    have hreach : elementDist c.item q ≤ r := by
      rcases hmem with rfl | ⟨c', hc', rfl⟩
      · exact hmax
      · obtain ⟨x, hx, -⟩ := (hleast c' hc' q).1
        have hle := (hleast c' hc' q).2 ⟨x, hx, rfl⟩
        have hflip := m.comm x c'.position
        linarith [hmin c' hc', m.triangle q c'.position x, hball c' hc' x hx]
    rw [hperm.mem_iff, List.mem_map]
    refine ⟨c, List.mem_filter.mpr ⟨hc, ?_⟩, rfl⟩
    rw [decide_eq_true_eq]
    linarith [hnear q c hc]

/-- The distance of two integers. -/
def lineMetric : Metric Int Int where
  dist a b := |a - b|
  comm := abs_sub_comm
  triangle := abs_sub_le

/-- Two items on a line, the farther one inserted first. -/
theorem search_answers_exactly_two_items :
    ∃ l, (insertAll lineMetric (create 2 (fun _ => 0) fun _ => 0)
        [⟨4, 10, 1⟩, ⟨7, 3, 1⟩]).nearestCandidates lineMetric 1 = .ok l ∧ (7 : Int) ∈ l := by
  have hexact := search_answers_exactly lineMetric 2 (fun _ => 0) (fun _ => 0)
    [⟨4, 10, 1⟩, ⟨7, 3, 1⟩] (by simp)
  have hacc : accepted 2 [(⟨4, 10, 1⟩ : SearchItem Int Int), ⟨7, 3, 1⟩] =
      [⟨4, 10, 1⟩, ⟨7, 3, 1⟩] := rfl
  rw [hacc] at hexact
  obtain ⟨-, hnearest⟩ := hexact.2.2 (fun a _ q => |q - a|) (fun a _ _ q => |q - a|) 2
    (fun k => if k = 8 then 10 else 3) (fun item => {if item = 4 then 10 else 3})
    (by
      intro c hc q
      simp only [List.mem_cons, List.not_mem_nil, or_false] at hc
      rcases hc with rfl | rfl <;> simp [lineMetric, elementDistance, segDist, IsLeast, lowerBounds])
    (by
      intro c hc x hx
      simp only [List.mem_cons, List.not_mem_nil, or_false] at hc
      rcases hc with rfl | rfl <;> simp_all [lineMetric])
  obtain ⟨l, hl, hlist⟩ := hnearest 1
  refine ⟨l, hl, hlist ⟨7, 3, 1⟩ (by simp) ?_ ?_⟩
  · intro c' hc'
    simp only [List.mem_cons, List.not_mem_nil, or_false] at hc'
    rcases hc' with rfl | rfl <;> decide
  · decide +kernel

/-- Farther than `REF_DBL_MAX` from the only item, whose element is its own
position, no candidate is listed. -/
theorem nearestCandidates_beyond_bound :
    accepted 1 [(⟨0, 2 * 10 ^ 200, 0⟩ : SearchItem Int Int)] = [⟨0, 2 * 10 ^ 200, 0⟩] ∧
    (∀ q, IsLeast {r | ∃ x ∈ ({2 * 10 ^ 200} : Set Int), r = lineMetric.dist q x}
      (elementDistance (fun a _ q => |q - a|) (fun a _ _ q => |q - a|) 2 (fun _ => 2 * 10 ^ 200)
        0 q)) ∧
    (∀ x ∈ ({2 * 10 ^ 200} : Set Int), lineMetric.dist x (2 * 10 ^ 200) ≤ 0) ∧
    (insertAll lineMetric (create 1 (fun _ => 0) fun _ => 0)
        [⟨0, 2 * 10 ^ 200, 0⟩]).nearestCandidates lineMetric 0 = .ok [] := by
  refine ⟨rfl, fun q => ?_, ?_, by decide +kernel⟩
  · constructor
    · exact ⟨_, Set.mem_singleton _, rfl⟩
    · rintro r ⟨x, rfl, rfl⟩
      exact le_refl _
  · rintro x rfl
    exact le_of_eq (by simp [lineMetric])

end RefSearch

end RefineMesh
