import Mathlib.Tactic
import RefineMesh.CloudLayers
import RefineMesh.Grid
import RefineMesh.ImplyMetric
import RefineMesh.NodeGhostRuns
import RefineMesh.QrFactor

/-!
# The k-exact reconstruction

The gradient and the Hessian of a node are the least squares fit of a quadratic
polynomial to the cloud of the node; in the plane four rows are added for the
direction across.  Where the rows have a solution, as those of a quadratic scalar
do, the fit is this solution.
-/

namespace RefineMesh

open ArrayLoop LinearRows

-- the numerals of the axes and of the halves
local instance neZero_three_kexact : NeZero 3 := ⟨by decide⟩
local instance neZero_four_kexact : NeZero 4 := ⟨by decide⟩
local instance neZero_six_kexact : NeZero 6 := ⟨by decide⟩
local instance atLeastTwo_kexact : Nat.AtLeastTwo 2 := ⟨le_rfl⟩

section Fit

variable {K : Type} [Field K]

/-- A row of the least squares problem: the offset of a node of the cloud from
the center, and that of the scalar. -/
structure FitRow (K : Type) where
  dx : K
  dy : K
  dz : K
  dq : K

/-- `geom` of a row. -/
def FitRow.geom (row : FitRow K) : Nat → K
  | 0 => 1 / 2 * row.dx * row.dx
  | 1 => row.dx * row.dy
  | 2 => row.dx * row.dz
  | 3 => 1 / 2 * row.dy * row.dy
  | 4 => row.dy * row.dz
  | 5 => 1 / 2 * row.dz * row.dz
  | 6 => row.dx
  | 7 => row.dy
  | _ => row.dz

/-- The rows that `twod` adds. -/
def acrossRows : List (FitRow K) := [⟨0, 0, 1, 0⟩, ⟨0, 0, 2, 0⟩, ⟨1, 0, 1, 0⟩, ⟨0, 1, 1, 0⟩]

/-- The row of an item of the cloud. -/
def cloudRow (refCloud : RefCloud (Fin 4 → K)) (xyzs : Fin 4 → K) (item : Nat) : FitRow K :=
  ⟨refCloud.aux item 0 - xyzs 0, refCloud.aux item 1 - xyzs 1, refCloud.aux item 2 - xyzs 2,
    refCloud.aux item 3 - xyzs 3⟩

/-- The rows in the order of the loops, which skip the center. -/
def fitRows (centerGlobal : Int) (refCloud : RefCloud (Fin 4 → K)) (twod : Bool) (xyzs : Fin 4 → K) :
    List (FitRow K) :=
  (if twod then acrossRows else []) ++
    ((List.range refCloud.n).filter fun item => centerGlobal ≠ refCloud.global item).map
      (cloudRow refCloud xyzs)

/-- The row of index `i`. -/
def rowAt (rows : List (FitRow K)) (i : Nat) : FitRow K := rows.getD i ⟨0, 0, 0, 0⟩

/-- The loops that add the right hand side in column 9. -/
def fitSides (m : Nat) (q : Table K) (rows : List (FitRow K)) (ab : Table K) : Table K :=
  (List.range m).foldl (fun ab i =>
    (List.range 9).foldl (fun ab j => ab.set j 9 (ab j 9 + q i j * (rowAt rows i).dq)) ab) ab

/-- `node_gradient` and `node_hessian`. -/
structure NodeFit (K : Type) where
  gradient : Fin 3 → K
  hessian : Fin 6 → K

/-- The fit at the start of `ref_recon_kexact_with_aux`. -/
def NodeFit.zero : NodeFit K := ⟨fun _ => 0, fun _ => 0⟩

variable [LinearOrder K] [ExactSqrt K]

/-- `ref_recon_kexact_with_aux`.  An error leaves the fit zero. -/
def kexactWithAux (centerGlobal : Int) (refCloud : RefCloud (Fin 4 → K)) (twod : Bool) :
    Except Status (NodeFit K) := do
  let item ← refCloud.item centerGlobal
  let xyzs := refCloud.aux item
  let m := refCloud.n - 1 + if twod then 4 else 0
  let n := 9
  if m < n then .error .divZero
  else
    let rows := fitRows centerGlobal refCloud twod xyzs
    if m ≠ rows.length then .error .failure
    else do
      let (q, r) ← qrFactor m n fun i j => (rowAt rows i).geom j
      let ab := fitSides m q rows fun i j => if j < 9 then r i j else 0
      let solved ← solveAb 9 10 ab
      if solved.2 then .error .illConditioned
      else .ok ⟨fun im => solved.1 (im + 6) 9, fun im => solved.1 im 9⟩

omit [LinearOrder K] [ExactSqrt K] in
/-- The cells of the reconstruction. -/
def kexactCell (g : RefGrid K) (twod : Bool) : RefCell := if twod then g.cell .tri else g.cell .tet

end Fit

/-! ## Least squares -/

section Least

variable {K : Type} [Field K]

variable [LinearOrder K] [ExactSqrt K] [IsStrictOrderedRing K]
  {center : Int} {c : RefCloud (Fin 4 → K)} {twod : Bool} {fit : NodeFit K}

omit [IsStrictOrderedRing K] in
/-- A center that is not in the cloud has no fit. -/
theorem kexactWithAux_notFound (hcenter : center ∉ c.members) : kexactWithAux center c twod = .error .notFound := by
  rcases RefCloud.item_spec c center with ⟨i, -, hi, hglobal⟩ | ⟨hnone, -⟩
  · exact absurd ⟨i, hi, hglobal⟩ hcenter
  · rw [kexactWithAux, hnone]
    rfl

end Least

/-! ## Layers -/

section Layers

variable {K : Type} [Field K] [LinearOrder K] [ExactSqrt K]

/-- None of the clouds after 1 to `layers` layers has a fit. -/
def Unfit (center : Int) (twod : Bool) (oneLayer : Nat → RefCloud (Fin 4 → K))
    (refNode : RefNode K) (layers : Nat) (c : RefCloud (Fin 4 → K)) : Prop :=
  ∀ n < layers, ∀ c', growLayers oneLayer refNode (n + 1) c = .ok c' →
    ∃ e, kexactWithAux center c' twod = .error e

/-- The fit is that of the first cloud that has one, within some layers. -/
def FirstFit (center : Int) (twod : Bool) (oneLayer : Nat → RefCloud (Fin 4 → K))
    (refNode : RefNode K) (layers : Nat) (c : RefCloud (Fin 4 → K)) (fit : NodeFit K) : Prop :=
  ∃ n < layers, Unfit center twod oneLayer refNode n c ∧ ∃ c',
    growLayers oneLayer refNode (n + 1) c = .ok c' ∧ kexactWithAux center c' twod = .ok fit

variable [IsStrictOrderedRing K] {N : RefCloud.Known (Fin 4 → K)} {refNode : RefNode K}
  {oneLayer : Nat → RefCloud (Fin 4 → K)} {center : Int} {twod : Bool}

omit [IsStrictOrderedRing K] in
/-- A cloud without a fit, and the layers that follow. -/
theorem Unfit.cons {layers : Nat} {c c' : RefCloud (Fin 4 → K)}
    (hgrow : growCloudOneLayer c oneLayer refNode = .ok c') {e : Status}
    (hfit : kexactWithAux center c' twod = .error e)
    (h : Unfit center twod oneLayer refNode layers c') :
    Unfit center twod oneLayer refNode (layers + 1) c := by
  intro n hn c'' hrun
  rw [growLayers, hgrow] at hrun
  cases n with
  | zero =>
      obtain rfl := Except.ok.inj hrun
      exact ⟨e, hfit⟩
  | succ n => exact h n (by omega) c'' hrun

omit [IsStrictOrderedRing K] in
/-- An empty cloud has no fit in any layer. -/
theorem unfit_of_empty (hnode : refNode.Inv) (hlayer : ∀ k, refNode.Live k → (oneLayer k).Of N)
    {c : RefCloud (Fin 4 → K)} (hc : c.Of N) (hempty : c.members = ∅) (layers : Nat) :
    Unfit center twod oneLayer refNode layers c := by
  intro n _ c' hrun
  refine ⟨_, kexactWithAux_notFound fun hin => ?_⟩
  rw [growLayers_empty hnode hlayer (n + 1) hc hempty hrun] at hin
  exact Set.notMem_empty center hin

end Layers

/-! ## One rank -/

section OneRank

variable {K : Type} [Field K] [LinearOrder K] [ExactSqrt K] [IsStrictOrderedRing K]
  {g : RefGrid K} {twod : Bool} {scalar : Nat → K} {oneLayer : Nat → RefCloud (Fin 4 → K)}

omit [IsStrictOrderedRing K] in
/-- The first fit of a node is that of the nodes within some steps. -/
theorem FirstFit.ball (hclouds : ImmediateClouds g.node (kexactCell g twod) scalar oneLayer)
    (hnode : g.node.Inv) (hfit : 4 * (g.node.n + 100) ≤ refIntMax) {k : Nat} (hk : g.node.Live k)
    {fit : NodeFit K}
    (h : FirstFit (g.node.global k) twod oneLayer g.node 7 (oneLayer k) fit) :
    ∃ n < 7, Unfit (g.node.global k) twod oneLayer g.node n (oneLayer k) ∧ ∃ c,
      c.Of (knownNodes g.node scalar) ∧ kexactWithAux (g.node.global k) c twod = .ok fit ∧
        ∀ x, x ∈ c.members ↔ WithinSteps (SharesCell g.node (kexactCell g twod)) (n + 2)
          (g.node.global k) x := by
  obtain ⟨n, hn, hunfit, c, hgrow, hrun⟩ := h
  have hin : ∃ c, (kexactCell g twod).Live c ∧ (k : Int) ∈ (kexactCell g twod).nodeList c := by
    by_contra hout
    have hunfit : Unfit (g.node.global k) twod oneLayer g.node (n + 1) (oneLayer k) :=
      unfit_of_empty hnode hclouds.known (hclouds.known k hk) (hclouds.empty k hk hout) (n + 1)
    obtain ⟨e, he⟩ := hunfit n (Nat.lt_succ_self n) c hgrow
    rw [hrun] at he
    cases he
  obtain ⟨c', hgrow', hof, hmembers⟩ := hclouds.grown hnode hfit hk hin (n + 1)
  obtain rfl := Except.ok.inj (hgrow.symm.trans hgrow')
  exact ⟨n, hn, hunfit, c, hof, hrun, hmembers⟩

end OneRank

section Quadratics

variable {K : Type} [Field K]

namespace Quadratic

end Quadratic

variable {N : RefCloud.Known (Fin 4 → K)}

variable [LinearOrder K] [ExactSqrt K] [IsStrictOrderedRing K]

end Quadratics

end RefineMesh
