import Farzin.RoundRobinCorrect
import Farzin.BillingInvoices
import Farzin.PlayTimeout
import Farzin.PlayClockRuns
import Farzin.MatchmakingRuns
import Farzin.PlayIntegrity
import Farzin.RefreshFamilies
import Farzin.IdentitySessions
import Farzin.IdentityPasswords
import Farzin.IdentityStatus
import Farzin.IdentityAdmins
import Farzin.RatingChain
import Farzin.RatingRecompute
import Farzin.SwissWeightsLexicographic
import Farzin.ArbiterTournament
import Farzin.ArbiterCorrections
import Farzin.BillingOneInvoice
import Farzin.AuthzCache
import Farzin.SecondFactors
import Farzin.ArbiterCompletions
import Farzin.ArbiterTable
import Farzin.ArbiterEntrants
import Farzin.FairPlaySanctions
import Farzin.OutboxListeners
import Farzin.TournamentLifecycle
import Farzin.RatingOverlaps
import Farzin.OutboxRetries
import Farzin.FairPlayJobs
import Farzin.Listings
import Farzin.BillingRefunds
import Farzin.BillingAccounts
import Farzin.PlayPresence
import Farzin.UciAnalyses
import Farzin.SwissStraight
import Farzin.MatchmakingLosses
import Farzin.MatchmakingRegistry
import Farzin.PlayGoneIndex
import Farzin.PlayDraws
import Farzin.FriendBlocks
import Farzin.TournamentFees
import Farzin.MoneyAllocation
import Farzin.ArbiterVirtuals
import Farzin.TieBreakOrder
import Farzin.SwissAllocation
import Farzin.PlayFlags
import Farzin.PlayReconstruction
import Farzin.PlayRepetition
import Farzin.MatchmakingSweeps
import Farzin.SuspicionAggregation
import Farzin.RatingOrder
import Farzin.RateLimitSerial
import Farzin.TrfExport
import Farzin.PgnReader
import Farzin.RbacTournaments
import Farzin.Cursor
import Farzin.PlayTimers
import Farzin.PlayDeadPosition
import Farzin.Glicko2
import Farzin.PlayOutcomes
import Farzin.SwissRounds
