import BoundedSpending.CheckedArithmetic
import BoundedSpending.BigEndianWords
import BoundedSpending.TimedLog
import BoundedSpending.SpacedLog
import BoundedSpending.WindowedCounter
import BoundedSpending.NestedCalls
import BoundedSpending.EndedCalls
import BoundedSpending.AccountState
import BoundedSpending.LimitPolicy
import BoundedSpending.SpendRecorders
import BoundedSpending.SpendParser
import BoundedSpending.CallDataDecoder
import BoundedSpending.UserOperations
import BoundedSpending.Preflight
import BoundedSpending.AccountMachine
import BoundedSpending.AccountRules
import BoundedSpending.AccountJournal
import BoundedSpending.AccountLedger
import BoundedSpending.AccountingCompleteness
import BoundedSpending.SlidingSpendCap
import BoundedSpending.EmergencyTimelock
import BoundedSpending.LargeSpendCooldown
import BoundedSpending.PreflightExecution
import BoundedSpending.FailedOperations
import BoundedSpending.CallDataDispatch
import BoundedSpending.ParserGrammar
import BoundedSpending.TransactionTraces
import BoundedSpending.WindowRefinement
import BoundedSpending.SpendsInOneBlock
import BoundedSpending.PreflightReserve
import BoundedSpending.PermutedBatches
import BoundedSpending.WithinLimitSpends
import BoundedSpending.SpendingPaymaster
import BoundedSpending.EntryPointGas
import BoundedSpending.SponsorshipCoverage
import BoundedSpending.GasCostOrder
import BoundedSpending.SponsoredBundles
import BoundedSpending.BundleCollection
import BoundedSpending.TokenLedger
import BoundedSpending.PaymasterReceipts
import BoundedSpending.Holdings
import BoundedSpending.EntryPointState
import BoundedSpending.ValidationWindows
import BoundedSpending.BundleHandler
import BoundedSpending.EntryPointMachine
import BoundedSpending.EntryPointEffects
import BoundedSpending.EntryPointRules
import BoundedSpending.EntryPointSolvency
import BoundedSpending.AuthorisedOperations
import BoundedSpending.DepositLedger
import BoundedSpending.StakeLock
import BoundedSpending.AccountProjection
import BoundedSpending.AcceptedOperations
import BoundedSpending.AccountFactory
import BoundedSpending.SignatureReplay
import BoundedSpending.SignedCalls
