import RefineMesh.Sort
import RefineMesh.ArrayLoops
import RefineMesh.FreeList
import RefineMesh.Node
import RefineMesh.NodeInvariant
import RefineMesh.NodeRuns
import RefineMesh.Adj
import RefineMesh.Cell
import RefineMesh.CellInvariant
import RefineMesh.CellRuns
import RefineMesh.Pack
import RefineMesh.SortUnique
import RefineMesh.Chains
import RefineMesh.CellQuery
import RefineMesh.CellRows
import RefineMesh.Grid
import RefineMesh.Split
import RefineMesh.SplitRuns
import RefineMesh.ChainCollapse
import RefineMesh.Collapse
import RefineMesh.CollapseRuns
import RefineMesh.Edge
import RefineMesh.Subdivision
import RefineMesh.Subdiv
import RefineMesh.SubdivRuns
import RefineMesh.Segments
import RefineMesh.Numbering
import RefineMesh.Spmd
import RefineMesh.Redistribute
import RefineMesh.Mpi
import RefineMesh.NodeGhost
import RefineMesh.NodeGhostRuns
import RefineMesh.Compaction
import RefineMesh.NodeSync
import RefineMesh.NodeSyncRuns
import RefineMesh.Requests
import RefineMesh.EdgeGhost
import RefineMesh.CellGlobal
import RefineMesh.MarkClosure
import RefineMesh.TetBits
import RefineMesh.GridParts
import RefineMesh.Migrate
import RefineMesh.Relax
import RefineMesh.RelaxRuns
import RefineMesh.LinkedSlots
import RefineMesh.Agents
import RefineMesh.AgentsRuns
import RefineMesh.AgentsMigrate
import RefineMesh.Binary
import RefineMesh.NodeRows
import RefineMesh.NodeRowsRuns
import RefineMesh.Restart
import RefineMesh.Snap
import RefineMesh.Meshb
import RefineMesh.Solb
import RefineMesh.ChainSwap
import RefineMesh.Swap
import RefineMesh.TriSwapRuns
import RefineMesh.ChainPeel
import RefineMesh.Peel
import RefineMesh.PeelRuns
import RefineMesh.Dict
import RefineMesh.BallTree
import RefineMesh.Search
import RefineMesh.GeomStore
import RefineMesh.GeomStoreRuns
import RefineMesh.Decimal
import RefineMesh.Met
import RefineMesh.CutTable
import RefineMesh.Iso
import RefineMesh.IsoRuns
import RefineMesh.IsoSurface
import RefineMesh.CompactNumbers
import RefineMesh.ShardFront
import RefineMesh.ShardLayers
import RefineMesh.TriangleDistance
import RefineMesh.BoundaryOrientation
import RefineMesh.Extrude
import RefineMesh.ExtrudeRuns
import RefineMesh.ExtrudeAligned
import RefineMesh.ExtrudeSlots
import RefineMesh.ExtrudeIso
import RefineMesh.UnmarkRuns
import RefineMesh.CavityGrowth
import RefineMesh.CollapsePassRuns
import RefineMesh.Unmark
import RefineMesh.CavityFaces
import RefineMesh.CellFaces
import RefineMesh.InterpPack
import RefineMesh.SortMachine
import RefineMesh.StoreGrowth
import RefineMesh.Selection
import RefineMesh.NodeLocalize
import RefineMesh.IsoGrazed
import RefineMesh.IsoRanks
import RefineMesh.BulkInsert
import RefineMesh.EdgeRcm
import RefineMesh.Face
import RefineMesh.Comprow
import RefineMesh.Morton
import RefineMesh.PartImplicit
import RefineMesh.AdjMultimap
import RefineMesh.ValidationFace
import RefineMesh.Inflate
import RefineMesh.InflateRuns
import RefineMesh.InflateCells
import RefineMesh.Layer
import RefineMesh.InflateConform
import RefineMesh.Octree
import RefineMesh.Fueled
import RefineMesh.Oct
import RefineMesh.OctTree
import RefineMesh.OctRuns
import RefineMesh.OctFind
import RefineMesh.OctBalance
import RefineMesh.OctReach
import RefineMesh.Cloud
import RefineMesh.CloudLayers
import RefineMesh.ImplyMetric
import RefineMesh.Kexact
import RefineMesh.MatrixInverse
