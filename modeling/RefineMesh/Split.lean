import Mathlib.Tactic
import RefineMesh.ArrayLoops
import RefineMesh.CellRuns
import RefineMesh.Grid

/-!
# Splitting edges and faces

`ref_split_edge` and `ref_split_face` put a new node on an edge or inside a
face.  Each cell that holds the edge or the face is removed and comes back once
for each of its nodes there, with that node replaced by the new one.  The
stores are changed one after the other, so a call that fails on the way leaves
a part of the work done: the result of a failed call is the code together with
the grid that the completed calls before it have left.
-/

namespace RefineMesh

open Chains

variable {D : Type}

/-- `MAX_CELL_SPLIT`. -/
def maxCellSplit : Nat := 100

/-- A call inside a longer operation: when it fails, the operation ends with
what it has done so far. -/
def guarded {σ α : Type} (s : σ) (x : Except Status α) : Except (Status × σ) α :=
  x.mapError fun status => (status, s)

section Edge

variable (node0 node1 newNode : Int)

/-- The body of the loops of `ref_split_edge`. -/
def splitCellOnEdge (s : RefCell) (cell : Nat) : Except (Status × RefCell) RefCell := do
  let nodes ← guarded s (s.nodes cell)
  let s ← guarded s (s.remove cell)
  let nodes := substitute s.nodePer node0 newNode nodes
  let added ← guarded s (s.add nodes)
  let s := added.1
  let nodes := substitute s.nodePer newNode node0 nodes
  let nodes := substitute s.nodePer node1 newNode nodes
  let added ← guarded s (s.add nodes)
  .ok added.1

/-- The part of `ref_split_edge` for one cell type. -/
def splitGroupOnEdge (t : CellType) (g : RefGrid D) : Except (Status × RefGrid D) (RefGrid D) := do
  let cellToSplit ← guarded g ((g.cell t).listWith2 node0 node1 maxCellSplit)
  let s ← (cellToSplit.foldlM (splitCellOnEdge node0 node1 newNode) (g.cell t)).mapError
    fun failed => (failed.1, g.setCell t failed.2)
  .ok (g.setCell t s)

/-- `ref_split_edge`. -/
def splitEdge (g : RefGrid D) : Except (Status × RefGrid D) (RefGrid D) := do
  let g ← splitGroupOnEdge node0 node1 newNode .tet g
  let g ← splitGroupOnEdge node0 node1 newNode .tri g
  splitGroupOnEdge node0 node1 newNode .edg g

end Edge

section Face

variable (node0 node1 node2 newNode : Int)

/-- The body that `ref_split_face` repeats for each cell on the face. -/
def splitCellOnFace (s : RefCell) (cell : Nat) : Except (Status × RefCell) RefCell := do
  let nodes ← guarded s (s.nodes cell)
  let s ← guarded s (s.remove cell)
  let nodes := substitute s.nodePer node0 newNode nodes
  let added ← guarded s (s.add nodes)
  let s := added.1
  let nodes := substitute s.nodePer newNode node0 nodes
  let nodes := substitute s.nodePer node1 newNode nodes
  let added ← guarded s (s.add nodes)
  let s := added.1
  let nodes := substitute s.nodePer newNode node1 nodes
  let nodes := substitute s.nodePer node2 newNode nodes
  let added ← guarded s (s.add nodes)
  .ok added.1

/-- `face_nodes` of `ref_split_face`. -/
def splitFaceNodes : Nat → Int := fun node =>
  if node = 0 then node0 else if node = 1 then node1 else if node = 2 then node2 else node0

/-- One cell of `ref_split_face`, if it was found. -/
def splitFoundOnFace (s : RefCell) (cell : Int) : Except (Status × RefCell) RefCell :=
  if refEmpty ≠ cell then splitCellOnFace node0 node1 node2 newNode s cell.toNat else .ok s

/-- The two cells of `ref_split_face`. -/
def splitBothOnFace (s : RefCell) (found : Int × Int) : Except (Status × RefCell) RefCell := do
  let s ← splitFoundOnFace node0 node1 node2 newNode s found.1
  splitFoundOnFace node0 node1 node2 newNode s found.2

/-- The tets of `ref_split_face`. -/
def splitTetsOnFace (g : RefGrid D) : Except (Status × RefGrid D) (RefGrid D) := do
  let found ← guarded g ((g.cell .tet).withFace (splitFaceNodes node0 node1 node2))
  let s ← (splitBothOnFace node0 node1 node2 newNode (g.cell .tet) found).mapError
    fun failed => (failed.1, g.setCell .tet failed.2)
  .ok (g.setCell .tet s)

/-- The triangle of `ref_split_face`. -/
def splitTriOnFace (g : RefGrid D) : Except (Status × RefGrid D) (RefGrid D) :=
  match (g.cell .tri).cellWith (splitFaceNodes node0 node1 node2) with
  | .error .notFound => .ok g
  | .error status => .error (status, g)
  | .ok cell => do
      let s ← (splitCellOnFace node0 node1 node2 newNode (g.cell .tri) cell).mapError
        fun failed => (failed.1, g.setCell .tri failed.2)
      .ok (g.setCell .tri s)

/-- `ref_split_face`. -/
def splitFace (g : RefGrid D) : Except (Status × RefGrid D) (RefGrid D) := do
  let g ← splitTetsOnFace node0 node1 node2 newNode g
  splitTriOnFace node0 node1 node2 newNode g

end Face

/-! ## One cell -/

theorem guarded_eq_ok {σ α : Type} {s : σ} {x : Except Status α} {a : α} :
    guarded s x = .ok a ↔ x = .ok a := by
  cases x with
  | error status => simp [guarded, Except.mapError]
  | ok a' => simp [guarded, Except.mapError]

/-- The node that was put in comes out again. -/
theorem substitute_substitute {nodePer : Nat} {old new : Int} {nodes : Nat → Int}
    (hnew : ∀ i, i < nodePer → nodes i ≠ new) :
    substitute nodePer new old (substitute nodePer old new nodes) = nodes := by
  funext i
  by_cases hi : i < nodePer
  · by_cases hold : old = nodes i
    · simp [substitute, hi, hold]
    · simp [substitute, hi, hold, (hnew i hi).symm]
  · simp [substitute, hi]

/-- The rows that take the place of a row. -/
def splitRows (nodePer : Nat) (ends : List Int) (newNode : Int) (row : List Int) :
    Multiset (List Int) :=
  ends.map fun u => substituteRow nodePer u newNode row

theorem splitRows_two (nodePer : Nat) (u v newNode : Int) (row : List Int)
    (fresh : Multiset (List Int)) :
    splitRows nodePer [u, v] newNode row + fresh =
      substituteRow nodePer v newNode row ::ₘ substituteRow nodePer u newNode row ::ₘ fresh := by
  simp only [splitRows, List.map_cons, List.map_nil, ← Multiset.cons_coe, Multiset.coe_nil,
    Multiset.cons_add, zero_add]
  exact Multiset.cons_swap _ _ _

theorem splitRows_three (nodePer : Nat) (u v w newNode : Int) (row : List Int)
    (fresh : Multiset (List Int)) :
    splitRows nodePer [u, v, w] newNode row + fresh =
      substituteRow nodePer w newNode row ::ₘ substituteRow nodePer v newNode row ::ₘ
        substituteRow nodePer u newNode row ::ₘ fresh := by
  simp only [splitRows, List.map_cons, List.map_nil, ← Multiset.cons_coe, Multiset.coe_nil,
    Multiset.cons_add, zero_add]
  rw [Multiset.cons_swap (substituteRow nodePer v newNode row),
    Multiset.cons_swap (substituteRow nodePer u newNode row),
    Multiset.cons_swap (substituteRow nodePer u newNode row)]

/-- The nodes are all in the row. -/
def RowHas (nodePer : Nat) (ends row : List Int) : Prop := ∀ u ∈ ends, u ∈ row.take nodePer

instance (nodePer : Nat) (ends row : List Int) : Decidable (RowHas nodePer ends row) :=
  inferInstanceAs (Decidable (∀ u ∈ ends, u ∈ row.take nodePer))

namespace RefCell

section Cell

variable {s s' s'' : RefCell} {gone : List Nat} {fresh : Multiset (List Int)} {cell : Nat}
  {node0 node1 node2 newNode : Int}

theorem rowHas_cellRow {ends : List Int} {c : Nat} :
    RowHas s.nodePer ends (s.cellRow c) ↔ ∀ u ∈ ends, u ∈ s.nodeList c := by
  rw [RowHas, take_cellRow]

theorem map_substitute_c2n (s : RefCell) (old new : Int) (c : Nat) :
    (List.range s.sizePer).map (substitute s.nodePer old new (s.c2n c)) =
      substituteRow s.nodePer old new (s.cellRow c) :=
  map_substitute s.cellType.nodePer_le_sizePer old new (s.c2n c)

/-- Adding a row made from a row of `s`. -/
theorem Replaced.addSubstituted (h : Replaced s s' gone fresh) {added : RefCell × Nat} {old : Int}
    {c : Nat} (hrun : s'.add (substitute s'.nodePer old newNode (s.c2n c)) = .ok added) :
    Replaced s added.1 gone (substituteRow s.nodePer old newNode (s.cellRow c) ::ₘ fresh) := by
  obtain ⟨s'', cell⟩ := added
  have hadd := h.add hrun
  rw [h.nodePer, map_substitute_c2n] at hadd
  exact hadd

/-- One cell split on an edge. -/
theorem Replaced.splitCellOnEdge (h : Replaced s s' gone fresh) (hlive : s.Live cell)
    (hnot : cell ∉ gone) (hnew : newNode ∉ s.nodeList cell)
    (hrun : splitCellOnEdge node0 node1 newNode s' cell = .ok s'') :
    Replaced s s'' (cell :: gone)
      (splitRows s.nodePer [node0, node1] newNode (s.cellRow cell) + fresh) := by
  obtain ⟨hlive', hrow⟩ := h.keeps cell hlive hnot
  obtain ⟨s1, hremove, h1⟩ := h.remove hlive hnot
  have hfree : ∀ i, i < s.nodePer → s.c2n cell i ≠ newNode := fun i hi e =>
    hnew (e ▸ s.c2n_mem_nodeList cell hi)
  simp only [RefineMesh.splitCellOnEdge, bind_eq_ok, guarded_eq_ok, nodes, hlive', not_true, if_false,
    Except.ok.injEq, exists_eq_left', hremove, hrow] at hrun
  obtain ⟨add1, hadd1, add2, hadd2, rfl⟩ := hrun
  have h2 := h1.addSubstituted hadd1
  have hback : substitute add1.1.nodePer newNode node0 (substitute s1.nodePer node0 newNode
      (s.c2n cell)) = s.c2n cell := by
    rw [h2.nodePer, h1.nodePer]
    exact substitute_substitute hfree
  rw [hback] at hadd2
  have h3 := h2.addSubstituted hadd2
  rw [splitRows_two]
  exact h3

/-- One cell split on a face. -/
theorem Replaced.splitCellOnFace (h : Replaced s s' gone fresh) (hlive : s.Live cell)
    (hnot : cell ∉ gone) (hnew : newNode ∉ s.nodeList cell)
    (hrun : splitCellOnFace node0 node1 node2 newNode s' cell = .ok s'') :
    Replaced s s'' (cell :: gone)
      (splitRows s.nodePer [node0, node1, node2] newNode (s.cellRow cell) + fresh) := by
  obtain ⟨hlive', hrow⟩ := h.keeps cell hlive hnot
  obtain ⟨s1, hremove, h1⟩ := h.remove hlive hnot
  have hfree : ∀ i, i < s.nodePer → s.c2n cell i ≠ newNode := fun i hi e =>
    hnew (e ▸ s.c2n_mem_nodeList cell hi)
  simp only [RefineMesh.splitCellOnFace, bind_eq_ok, guarded_eq_ok, nodes, hlive', not_true, if_false,
    Except.ok.injEq, exists_eq_left', hremove, hrow] at hrun
  obtain ⟨add1, hadd1, add2, hadd2, add3, hadd3, rfl⟩ := hrun
  have h2 := h1.addSubstituted hadd1
  have hback : substitute add1.1.nodePer newNode node0 (substitute s1.nodePer node0 newNode
      (s.c2n cell)) = s.c2n cell := by
    rw [h2.nodePer, h1.nodePer]
    exact substitute_substitute hfree
  rw [hback] at hadd2 hadd3
  have h3 := h2.addSubstituted hadd2
  have hback' : substitute add2.1.nodePer newNode node1 (substitute add1.1.nodePer node1 newNode
      (s.c2n cell)) = s.c2n cell := by
    rw [h3.nodePer, h2.nodePer]
    exact substitute_substitute hfree
  rw [hback'] at hadd3
  have h4 := h3.addSubstituted hadd3
  rw [splitRows_three]
  exact h4

end Cell

end RefCell

end RefineMesh
