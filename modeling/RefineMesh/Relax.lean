import Mathlib.Tactic
import RefineMesh.EdgeGhost
import RefineMesh.Subdiv

/-!
# Relaxing the marks

`ref_subdiv_mark_relax` adds marks until every cell can be cut.  Each sweep
goes over the cells of a rank, then the owners' marks replace those of the
other ranks, and the ranks stop together when no rank has added a mark.
-/

namespace RefineMesh

open Spmd

variable {D : Type}

/-- `ref_mpi_all_or`: the flags are added up. -/
def allOr {α : Type} (flag : Bool) (k : Bool → RankProg D α) : RankProg D α :=
  .allsum (if flag then 1 else 0) fun total => k (min total 1 ≠ 0)

namespace RefSubdiv

/-- The marks and `again`. -/
abbrev Relaxation : Type := (Nat → Int) × Bool

variable (s : RefSubdiv D) (refCell : RefCell) (cell : Nat)

/-- `edge_or`. -/
def edgeOr (ce0 ce1 : Nat) (acc : Relaxation) : Except Status Relaxation := do
  let ge0 ← s.c2e refCell ce0 cell
  let ge1 ← s.c2e refCell ce1 cell
  if acc.1 ge0 ≠ acc.1 ge1 then
    .ok (Function.update (Function.update acc.1 ge0 1) ge1 1, true)
  else .ok acc

/-- `promote_2_3`. -/
def promote23 (ce0 ce1 ce2 : Nat) (acc : Relaxation) : Except Status Relaxation := do
  let ge0 ← s.c2e refCell ce0 cell
  let ge1 ← s.c2e refCell ce1 cell
  let ge2 ← s.c2e refCell ce2 cell
  if acc.1 ge0 + acc.1 ge1 + acc.1 ge2 = 2 then
    .ok (Function.update (Function.update (Function.update acc.1 ge0 1) ge1 1) ge2 1, true)
  else .ok acc

/-- `promote_2_all`; its second test is on the indices of the edges. -/
def promote2All (acc : Relaxation) : Except Status Relaxation := do
  let ge0 ← s.c2e refCell 0 cell
  let ge1 ← s.c2e refCell 1 cell
  let ge2 ← s.c2e refCell 2 cell
  let ge3 ← s.c2e refCell 3 cell
  let ge4 ← s.c2e refCell 4 cell
  let ge5 ← s.c2e refCell 5 cell
  let sum := acc.1 ge0 + acc.1 ge1 + acc.1 ge2 + acc.1 ge3 + acc.1 ge4 + acc.1 ge5
  if sum = 2 ∧ ((0 < ge0 ∧ 0 < ge5) ∨ (0 < ge1 ∧ 0 < ge4) ∨ (0 < ge2 ∧ 3 < ge1)) then
    .ok (Function.update (Function.update (Function.update (Function.update (Function.update
      (Function.update acc.1 ge0 1) ge1 1) ge2 1) ge3 1) ge4 1) ge5 1, true)
  else .ok acc

/-- The `switch` over the nodes of a cell. -/
def relaxCell (acc : Relaxation) : Except Status Relaxation :=
  match refCell.nodePer with
  | 4 => do
      let acc ← s.promote23 refCell cell 3 4 5 acc
      let acc ← s.promote23 refCell cell 1 2 5 acc
      let acc ← s.promote23 refCell cell 0 2 4 acc
      let acc ← s.promote23 refCell cell 0 1 3 acc
      s.promote2All refCell cell acc
  | 5 => do
      let acc ← s.edgeOr refCell cell 0 7 acc
      s.edgeOr refCell cell 2 4 acc
  | 6 => do
      let acc ← s.edgeOr refCell cell 0 6 acc
      let acc ← s.edgeOr refCell cell 3 8 acc
      let acc ← s.edgeOr refCell cell 1 7 acc
      let acc ← s.promote23 refCell cell 0 1 3 acc
      s.promote23 refCell cell 6 7 8 acc
  | _ => .error .implement

/-- The loops over the cells. -/
def relaxSweep (mark : Nat → Int) : Except Status Relaxation :=
  types3d.foldlM (fun acc t =>
    (s.grid.cell t).validCells.foldlM (fun acc cell => s.relaxCell (s.grid.cell t) cell acc) acc)
    (mark, false)

/-- The `while` of `ref_subdiv_mark_relax`, cut off after `fuel` sweeps: `none`
when it has not ended by then. -/
def relaxSweeps (p : Nat) (mem : Nat → RequestMemory Int) :
    Nat → (Nat → Int) → RankProg D (Option (Nat → Int))
  | 0, _ => .ret none
  | fuel+1, mark =>
      (Prog.lift (s.relaxSweep mark)).bind fun acc =>
        (s.edge.ghostInt p s.grid.node acc.1 (mem fuel)).bind fun mark =>
          allOr acc.2 fun again =>
            if again then relaxSweeps p mem fuel mark else .ret (some mark)

/-- `ref_subdiv_mark_relax`; `mem` is the memory of the exchanges. -/
def markRelax (p fuel : Nat) (mem : Nat → RequestMemory Int) :
    RankProg D (Option (Nat → Int)) :=
  (s.edge.ghostInt p s.grid.node s.mark (mem fuel)).bind fun mark =>
    s.relaxSweeps p mem fuel mark

end RefSubdiv

end RefineMesh
