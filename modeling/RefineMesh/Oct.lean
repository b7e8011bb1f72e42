import Mathlib.Tactic
import RefineMesh.ExactMath
import RefineMesh.Fueled
import RefineMesh.Octree
import RefineMesh.Status

/-!
# The octree of `ref_oct`

The tree is a table of rows of eight children; a row whose first child is
`REF_EMPTY` is a leaf.  The boxes are not stored: every descent starts with the
root box and takes eighths.  The rows lie in the tree of cubes of `Octree`, and
a split adds one cube to those that are cut.
-/

namespace RefineMesh

open Octree Fueled

-- the numerals of every field, and of the axes and the ends of a box
local instance atLeastTwo_oct : Nat.AtLeastTwo 2 := ⟨le_rfl⟩
local instance atLeastTwo_ten_oct : Nat.AtLeastTwo 10 := ⟨by decide⟩
local instance atLeastTwo_eleven_oct : Nat.AtLeastTwo 11 := ⟨by decide⟩
local instance neZero_three_oct : NeZero 3 := ⟨by decide⟩
local instance neZero_six_oct : NeZero 6 := ⟨by decide⟩

/-- `REF_OCT_STRUCT`, with the rows of the two tables. -/
structure RefOct (K : Type) where
  bbox : Fin 6 → K
  n : Nat
  max : Nat
  nnode : Nat
  children : Nat → Nat → Int
  nodes : Nat → Nat → Int

namespace RefOct

variable {K : Type}

/-- `ref_oct_leaf_node`. -/
def LeafNode (s : RefOct K) (node : Nat) : Prop := s.children node 0 = refEmpty

instance (s : RefOct K) (node : Nat) : Decidable (s.LeafNode node) :=
  inferInstanceAs (Decidable (_ = _))

/-- The check of all children of a row in `ref_oct_split`. -/
def Childless (s : RefOct K) (node : Nat) : Prop := ∀ i < 8, s.children node i = refEmpty

instance (s : RefOct K) (node : Nat) : Decidable (s.Childless node) :=
  inferInstanceAs (Decidable (∀ i < 8, s.children node i = refEmpty))

/-- The reallocation of a full table in `ref_oct_split`. -/
def grow (s : RefOct K) : Except Status (RefOct K) :=
  let maxLimit := refIntMax / 27
  let chunk := 3 * s.max / 2
  if maxLimit ≤ s.max then .error .failure
  else
    let max := s.max + min chunk (maxLimit - s.max)
    .ok { s with
      max := max
      children := fun v i => if s.max ≤ v ∧ v < max then refEmpty else s.children v i
      nodes := fun v i => if s.max ≤ v ∧ v < max then refEmpty else s.nodes v i }

/-- The children of a row, taken from the end of the table. -/
def addChildren (s : RefOct K) (node : Nat) : RefOct K :=
  (List.range 8).foldl (fun s i =>
    { s with
      children := Function.update s.children node
        (Function.update (s.children node) i (s.n : Int))
      n := s.n + 1 }) s

/-- `ref_oct_split`. -/
def split (s : RefOct K) (node : Int) : Except Status (RefOct K) :=
  if node < 0 then .error .failure
  else if (s.n : Int) ≤ node then .error .failure
  else if (s.max : Int) ≤ node then .error .failure
  else if ¬ s.Childless node.toNat then .error .failure
  else if s.max < s.n + 8 then do
    let s ← s.grow
    .ok (s.addChildren node.toNat)
  else .ok (s.addChildren node.toNat)

/-- `ref_oct_nleaf`. -/
def nleaf (s : RefOct K) : Nat := (List.range s.n).countP fun i => s.LeafNode i

section Boxes

variable [Field K]

/-- `ref_oct_create`. -/
def create : RefOct K where
  bbox := ![0, 1, 0, 1, 0, 1]
  n := 1
  max := 100 * 1024
  nnode := 0
  children := fun _ _ => refEmpty
  nodes := fun _ _ => refEmpty

/-- `0.5 * (bbox[i] + bbox[j])`. -/
def middle (bbox : Fin 6 → K) (i j : Fin 6) : K := 1 / 2 * (bbox i + bbox j)

/-- `ref_oct_child_bbox`. -/
def childBbox (bbox : Fin 6 → K) : Nat → Except Status (Fin 6 → K)
  | 0 => .ok ![bbox 0, middle bbox 0 1, bbox 2, middle bbox 2 3, bbox 4, middle bbox 4 5]
  | 1 => .ok ![middle bbox 0 1, bbox 1, bbox 2, middle bbox 2 3, bbox 4, middle bbox 4 5]
  | 2 => .ok ![middle bbox 0 1, bbox 1, middle bbox 2 3, bbox 3, bbox 4, middle bbox 4 5]
  | 3 => .ok ![bbox 0, middle bbox 0 1, middle bbox 2 3, bbox 3, bbox 4, middle bbox 4 5]
  | 4 => .ok ![bbox 0, middle bbox 0 1, bbox 2, middle bbox 2 3, middle bbox 4 5, bbox 5]
  | 5 => .ok ![middle bbox 0 1, bbox 1, bbox 2, middle bbox 2 3, middle bbox 4 5, bbox 5]
  | 6 => .ok ![middle bbox 0 1, bbox 1, middle bbox 2 3, bbox 3, middle bbox 4 5, bbox 5]
  | 7 => .ok ![bbox 0, middle bbox 0 1, middle bbox 2 3, bbox 3, middle bbox 4 5, bbox 5]
  | _ => .error .failure

/-- `ref_oct_bbox_scale`. -/
def bboxScale (bbox0 : Fin 6 → K) (factor : K) : Fin 6 → K :=
  ![bbox0 0 - 1 / 2 * (factor - 1) * (bbox0 1 - bbox0 0),
    bbox0 1 + 1 / 2 * (factor - 1) * (bbox0 1 - bbox0 0),
    bbox0 2 - 1 / 2 * (factor - 1) * (bbox0 3 - bbox0 2),
    bbox0 3 + 1 / 2 * (factor - 1) * (bbox0 3 - bbox0 2),
    bbox0 4 - 1 / 2 * (factor - 1) * (bbox0 5 - bbox0 4),
    bbox0 5 + 1 / 2 * (factor - 1) * (bbox0 5 - bbox0 4)]

variable [LinearOrder K]

/-- `ref_oct_bbox_overlap`. -/
def bboxOverlap (bbox0 bbox1 : Fin 6 → K) : Bool :=
  if bbox0 1 < bbox1 0 ∨ bbox1 1 < bbox0 0 then false
  else if bbox0 3 < bbox1 2 ∨ bbox1 3 < bbox0 2 then false
  else if bbox0 5 < bbox1 4 ∨ bbox1 5 < bbox0 4 then false
  else true

/-- `ref_oct_contains_node`: the row and its box, or `REF_EMPTY` and the box of
the caller. -/
def containsNode (s : RefOct K) (xyz : Fin 3 → K) :
    Nat → (Fin 6 → K) → Nat → (Fin 6 → K) → Fueled Status (Int × (Fin 6 → K))
  | 0, _, _, _ => out
  | fuel+1, bbox, current, nodeBbox =>
      if xyz 0 < bbox 0 ∨ bbox 1 < xyz 0 ∨ xyz 1 < bbox 2 ∨ bbox 3 < xyz 1 ∨
          xyz 2 < bbox 4 ∨ bbox 5 < xyz 2 then pure (refEmpty, nodeBbox)
      else if s.LeafNode current then pure ((current : Int), bbox)
      else
        -- the loop returns with the first child that has the point
        (List.range 8).foldlM (fun found i =>
          if found.1 ≠ refEmpty then pure found
          else do
            let box ← lift (childBbox bbox i)
            s.containsNode xyz fuel box (s.children current i).toNat found.2)
          (refEmpty, nodeBbox)

/-- `ref_oct_contains`. -/
def contains (s : RefOct K) (xyz : Fin 3 → K) (fuel : Nat) (bbox : Fin 6 → K) :
    Fueled Status (Int × (Fin 6 → K)) :=
  s.containsNode xyz fuel s.bbox 0 bbox

variable [ExactSqrt K]

/-- `ref_oct_bbox_diag`. -/
def bboxDiag (bbox : Fin 6 → K) : K :=
  ExactSqrt.sqrt ((bbox 1 - bbox 0) ^ 2 + (bbox 3 - bbox 2) ^ 2 + (bbox 5 - bbox 4) ^ 2)

/-- `ref_oct_split_at`. -/
def splitAt (xyz : Fin 3 → K) (h : K) (depth : Nat) : Nat → RefOct K → Fueled Status (RefOct K)
  | 0, _ => out
  | fuel+1, s => do
      let (node, bbox) ← s.contains xyz depth fun _ => 0
      if node < 0 then lift (.error .failure)
      else if h < bboxDiag bbox then do
        let s ← lift (s.split node)
        splitAt xyz h depth fuel s
      else pure s

/-- `ref_oct_split_touching_node`. -/
def splitTouchingNode (bbox : Fin 6 → K) (h : K) :
    Nat → RefOct K → Nat → (Fin 6 → K) → Fueled Status (RefOct K)
  | 0, _, _, _ => out
  | fuel+1, s, node, myBbox =>
      let descend := fun s : RefOct K => (List.range 8).foldlM (fun s i => do
        let box ← lift (childBbox myBbox i)
        splitTouchingNode bbox h fuel s (s.children node i).toNat box) s
      if bboxOverlap myBbox bbox = false then pure s
      else if s.LeafNode node then
        if h < bboxDiag myBbox then do
          let s ← lift (s.split node)
          descend s
        else pure s
      else descend s

/-- `ref_oct_split_touching`. -/
def splitTouching (bbox : Fin 6 → K) (h : K) (fuel : Nat) (s : RefOct K) :
    Fueled Status (RefOct K) :=
  splitTouchingNode bbox h fuel s 0 s.bbox

/-- `factor` of `ref_oct_gradation_node`. -/
def gradationFactor : K := 11 / 10

/-- `ref_oct_gradation_node`. -/
def gradationNode (depth : Nat) :
    Nat → RefOct K → Nat → (Fin 6 → K) → Fueled Status (RefOct K)
  | 0, _, _, _ => out
  | fuel+1, s, node, bbox =>
      if s.LeafNode node then
        let tool := bboxScale bbox gradationFactor
        let h := gradationFactor * 2 * bboxDiag bbox
        splitTouching tool h depth s
      else
        (List.range 8).foldlM (fun s i => do
          let box ← lift (childBbox bbox i)
          gradationNode depth fuel s (s.children node i).toNat box) s

/-- The `while` loop of `ref_oct_gradation`. -/
def gradationLoop (depth : Nat) : Nat → Int → RefOct K → Fueled Status (RefOct K)
  | 0, _, _ => out
  | fuel+1, lastN, s =>
      if (s.n : Int) ≠ lastN then do
        let s' ← gradationNode depth depth s 0 s.bbox
        gradationLoop depth fuel s.n s'
      else pure s

/-- `ref_oct_gradation`. -/
def gradation (depth fuel : Nat) (s : RefOct K) : Fueled Status (RefOct K) :=
  gradationLoop depth fuel refEmpty s

end Boxes

end RefOct

end RefineMesh
