import VideoAnalytics.Library.Machine
import VideoAnalytics.Library.Repeated
import VideoAnalytics.Library.Batching
import VideoAnalytics.Library.BatchingMismatch
import VideoAnalytics.Library.BatchingSwitch
import VideoAnalytics.Library.Partition
import VideoAnalytics.Library.Loop
import VideoAnalytics.Library.Memory
import VideoAnalytics.Library.Sorting
import VideoAnalytics.Library.EarlyReturn
import VideoAnalytics.Library.Copying
import VideoAnalytics.Library.Greedy
import VideoAnalytics.Library.Lanes
import VideoAnalytics.Library.Rounding
import VideoAnalytics.BitstreamEnd
import VideoAnalytics.DecodeLoop
import VideoAnalytics.PlanarCopy
import VideoAnalytics.Nv12Copy
import VideoAnalytics.PackedSplit
import VideoAnalytics.FrameAllocatorRelease
import VideoAnalytics.FrameAllocatorFit
import VideoAnalytics.FrameAllocatorCounts
import VideoAnalytics.SurfaceLock
import VideoAnalytics.DetectorDelivery
import VideoAnalytics.DetectorFailures
import VideoAnalytics.DetectorModes
import VideoAnalytics.DetectorIndices
import VideoAnalytics.DualPipe
import VideoAnalytics.DualPipeSafety
import VideoAnalytics.DualPipeGuard
import VideoAnalytics.PipelineMetadata
import VideoAnalytics.PipelineRouting
import VideoAnalytics.PipelineStatistics
import VideoAnalytics.PipelineOrder
import VideoAnalytics.PipelineWakeups
import VideoAnalytics.DetectionOutputBest
import VideoAnalytics.DetectionOutputGreedy
import VideoAnalytics.DetectionOutputShared
import VideoAnalytics.DetectionOutputUnlimited
import VideoAnalytics.DetectorReadback
import VideoAnalytics.RoiLayers
import VideoAnalytics.RoiLists
import VideoAnalytics.ProposalBoxes
import VideoAnalytics.ProposalBatch
import VideoAnalytics.SimplerNmsGreedy
import VideoAnalytics.SimplerNmsOutput
import VideoAnalytics.PriorBoxTable
import VideoAnalytics.PriorBoxClustered
import VideoAnalytics.CtcGreedyDecoderRows
import VideoAnalytics.ResampleConstant
import VideoAnalytics.Tracker
import VideoAnalytics.TrackerBoxes
import VideoAnalytics.TrackerUpdate
import VideoAnalytics.FeatureMaps
import VideoAnalytics.GaussianCorrelationMatches
import VideoAnalytics.BlockedLayout
import VideoAnalytics.DetectionOutputOverlap
import VideoAnalytics.Interp
import VideoAnalytics.Library.Stores
import VideoAnalytics.ReorgYolo
import VideoAnalytics.InterpShortcut
import VideoAnalytics.PRelu
import VideoAnalytics.BlockedLayoutFit
import VideoAnalytics.SpatialTransformer
import VideoAnalytics.SpatialTransformerIdentity
import VideoAnalytics.Library.Shapes
import VideoAnalytics.ArgMax
import VideoAnalytics.ArgMaxTop
import VideoAnalytics.Softmax
import VideoAnalytics.RegionYolo
import VideoAnalytics.ResampleUpsample
import VideoAnalytics.ResampleTriangle
import VideoAnalytics.ResampleTriangleBlocks
import VideoAnalytics.ResampleTriangleKernel
import VideoAnalytics.ResampleTriangleStores
import VideoAnalytics.ResampleTriangleAgrees
import VideoAnalytics.DftFactors
import VideoAnalytics.Library.MixedRadix
import VideoAnalytics.DftBits
import VideoAnalytics.DftInit
import VideoAnalytics.DftTables
import VideoAnalytics.PipelineDelivery
import VideoAnalytics.SurfaceSharingSafety
import VideoAnalytics.TrackerTraining
import VideoAnalytics.FeatureKernelsBound
import VideoAnalytics.Mvn
import VideoAnalytics.Normalize
