import QuipValidator.StorageMap
import QuipValidator.Fallible
import QuipValidator.Machine
import QuipValidator.StableRanking
import QuipValidator.BoundedHeap
import QuipValidator.CursorPages
import QuipValidator.Scale
import QuipValidator.FixedPoint
import QuipValidator.RollingWindow
import QuipValidator.IsingValidation
import QuipValidator.IsingEnergy
import QuipValidator.IsingDiversity
import QuipValidator.MempoolTypes
import QuipValidator.MempoolRewards
import QuipValidator.MempoolSelection
import QuipValidator.MempoolPallet
import QuipValidator.MempoolSubmission
import QuipValidator.SubmissionProofs
import QuipValidator.MempoolSettlement
import QuipValidator.MempoolRuns
import QuipValidator.MempoolMoves
import QuipValidator.OrderIndexProofs
import QuipValidator.OrderHistory
import QuipValidator.EscrowConservation
import QuipValidator.ExactEnergy
import QuipValidator.ExpiryIndexProofs
import QuipValidator.RankingRefinement
import QuipValidator.FrozenOrders
import QuipValidator.SolutionTruth
import QuipValidator.ScorableTopologies
import QuipValidator.SettlementAgreement
import QuipValidator.DrainProgress
import QuipValidator.PayeeBinding
import QuipValidator.IsingPuzzle
import QuipValidator.EnergyBounds
import QuipValidator.PackRoundTrip
import QuipValidator.PackedSolutions
import QuipValidator.OrdinalIndex
import QuipValidator.PowTypes
import QuipValidator.PowDifficulty
import QuipValidator.PowTopology
import QuipValidator.PowPallet
import QuipValidator.PowBlocks
import QuipValidator.PowMoves
import QuipValidator.PowMiners
import QuipValidator.PowRounds
import QuipValidator.BlockWinner
import QuipValidator.QBlockIndex
import QuipValidator.RecordedDifficulty
import QuipValidator.DifficultyBounds
import QuipValidator.HardeningBand
import QuipValidator.PowViews
import QuipValidator.MineableTopologies
import QuipValidator.TopologyChecks
import QuipValidator.TopologyIdentity
import QuipValidator.TopologyMineable
import QuipValidator.QBlockMigration
import QuipValidator.NonceSeed
import QuipValidator.SnapshotSeed
import QuipValidator.EmissionController
import QuipValidator.EmissionMoves
import QuipValidator.EmissionAccounting
import QuipValidator.AccrualPaths
import QuipValidator.EmissionRebase
import QuipValidator.SlashPolicy
import QuipValidator.SlashBudget
import QuipValidator.CouncilRootCalls
import QuipValidator.MinerRegistry
import QuipValidator.RegistryMigration
import QuipValidator.RegistryPallet
import QuipValidator.RegistryMoves
import QuipValidator.Participation
import QuipValidator.ParticipationWindows
import QuipValidator.Pagination
import QuipValidator.RuntimeConstants
import QuipValidator.AllocationPlan
import QuipValidator.PlanSoundness
import QuipValidator.AdmissionElection
import QuipValidator.VoterSnapshot
import QuipValidator.RewardSplit
import QuipValidator.IssuanceEnvelope
import QuipValidator.HybridEnvelope
import QuipValidator.XqvmPallet
import QuipValidator.ProgramStore
import QuipValidator.ControlFlow
import QuipValidator.XqvmAdapter
import QuipValidator.StepBudget
import QuipValidator.RewardSolvency
import QuipValidator.ReserveMoves
import QuipValidator.SharedReserve
import QuipValidator.SignVectors
import QuipValidator.SpecArithmetic
import QuipValidator.SpinDiversity
import QuipValidator.FarthestPoint
import QuipValidator.DiverseSelection
import QuipValidator.DiversityMetric
import QuipValidator.AnchoredSelection
import QuipValidator.SelectionQuality
import QuipValidator.AttainableFloors
import QuipValidator.FloorEnforcement
import QuipValidator.ValidatorAdmission
import QuipValidator.AdmissionHistory
import QuipValidator.ElectionRounds
import QuipValidator.ElectionSafety
import QuipValidator.OffenceReports
import QuipValidator.OverdueOrders
import QuipValidator.MempoolRecords
import QuipValidator.SettlementProgress
import QuipValidator.HexText
import QuipValidator.TransactionKeys
import QuipValidator.SignerBindings
import QuipValidator.SignerProvider
import QuipValidator.SecretUri
import QuipValidator.GenesisPresets
import QuipValidator.GenesisReadiness
import QuipValidator.MempoolUpgrade
import QuipValidator.QBlockUpgradeCheck
import QuipValidator.EmissionUpgrade
import QuipValidator.MainnetSupply
import QuipValidator.MinerRecords
import QuipValidator.RelaunchReadiness
