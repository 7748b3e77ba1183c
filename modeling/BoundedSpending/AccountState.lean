import BoundedSpending.CheckedArithmetic
import BoundedSpending.BigEndianWords

set_option autoImplicit false

/-!
# The account's data

Words are natural numbers; the immutables carry the proof that they fit in 256
bits, storage words stay in range because every write of the code is checked.
-/
namespace BoundedSpending

open CheckedArithmetic BigEndianWords

abbrev Address := ℕ

def usdc : Address := 0x833589fCD6eDb6E08f4c7C32D4f71b54bdA02913

def premiumBps : ℕ := 500
def paymasterDataOffset : ℕ := 52
def withdrawTimelock : ℕ := 48 * 3600
def cooldownPeriod : ℕ := 3600
def panicThresholdBps : ℕ := 5000
def minGasForUsdcTransfer : ℕ := 60000
def ether : ℕ := 10 ^ 18

inductive Revert where
  | notFromEntryPoint
  | notFromPaymaster
  | notVaultOwner
  | invalidTargetOrSelector
  | invalidSelector
  | withdrawTimelockNotMet
  | noWithdrawRequested
  | insufficientGasForUsdcTransfer (gasLeft minRequired : ℕ)
  | largeSpendCooldownActive
  | dailyLimitExceeded (current limit : ℕ)
  | monthlyLimitExceeded (current limit : ℕ)
  | costCapExceeded (maxCost cap : ℕ)
  | insufficientUsdcBalance (account : Address) (required : ℕ)
  | postOpGasTooLow (postOpGasLimit minRequired : ℕ)
  /-- `Panic(0x11)`: a checked operation left the 256-bit range. -/
  | arithmeticOverflow
  | abiDecoding
  | invalidSignature
  | callFailed
  | innerRevertLowPrefund
  | errorString (reason : String)
  /-- `FailedOp(opIndex, reason)` of the EntryPoint. -/
  | failedOp (opIndex : ℕ) (reason : String)
  deriving DecidableEq, Repr

structure Config where
  usdcPerEth : ℕ
  entryPointContract : Address
  vaultOwner : Address
  paymasterAddress : Address
  dailyEthLimit : ℕ
  monthlyEthLimit : ℕ
  dailyUsdcLimit : ℕ
  monthlyUsdcLimit : ℕ
  usdcPerEth_lt : usdcPerEth < wordSize
  dailyEthLimit_lt : dailyEthLimit < wordSize
  monthlyEthLimit_lt : monthlyEthLimit < wordSize
  dailyUsdcLimit_lt : dailyUsdcLimit < wordSize
  monthlyUsdcLimit_lt : monthlyUsdcLimit < wordSize

structure Storage where
  dailyEthSpent : ℕ
  monthlyEthSpent : ℕ
  dailyUsdcSpent : ℕ
  monthlyUsdcSpent : ℕ
  lastDailyResetTimestamp : ℕ
  lastMonthlyResetTimestamp : ℕ
  emergencyWithdrawRequestTime : ℕ
  /-- Time of the last large spend, 0 for none. -/
  lastLargeSpendTime : ℕ
  deriving DecidableEq, Repr

def deployed (timestamp : ℕ) : Storage where
  dailyEthSpent := 0
  monthlyEthSpent := 0
  dailyUsdcSpent := 0
  monthlyUsdcSpent := 0
  lastDailyResetTimestamp := timestamp
  lastMonthlyResetTimestamp := timestamp
  emergencyWithdrawRequestTime := 0
  lastLargeSpendTime := 0

structure Block where
  timestamp : ℕ
  basefee : ℕ
  timestamp_lt : timestamp < wordSize
  deriving DecidableEq, Repr

/-- What happened to the account, stamped with its block in a journal that the
    chain rolls back together with the state. The first four are events of the
    source; the others are ghosts that only the proofs read. -/
inductive Event where
  | ethSpent (amount : ℕ)
  | usdcSpent (amount : ℕ)
  | emergencyWithdrawRequested
  | emergencyWithdrawExecuted (recipient : Address) (ethAmount usdcAmount : ℕ)
  | ethTransferred (amount : ℕ)
  | prefundPaid (amount : ℕ)
  /-- USDC left the account through a call it made. -/
  | usdcTransferred (amount : ℕ)
  | validated
  /-- `execute` or `executeBatch` passed its accounting with these totals. -/
  | accounted (eth usdc : ℕ)
  /-- `emergencyWithdraw` passed its guards. -/
  | withdrawGuardsPassed
  deriving DecidableEq, Repr

abbrev Journal := List (ℕ × Event)

structure World where
  storage : Storage
  balance : ℕ
  usdcBalance : ℕ
  journal : Journal
  deriving DecidableEq, Repr

structure Call where
  target : Address
  value : ℕ
  data : Bytes
  deriving DecidableEq, Repr

def add (a b : ℕ) : Except Revert ℕ := checkedAdd .arithmeticOverflow a b

def mul (a b : ℕ) : Except Revert ℕ := checkedMul .arithmeticOverflow a b

@[simp] theorem add_eq_ok {a b c : ℕ} : add a b = .ok c ↔ a + b < wordSize ∧ c = a + b :=
  checkedAdd_eq_ok

@[simp] theorem mul_eq_ok {a b c : ℕ} : mul a b = .ok c ↔ a * b < wordSize ∧ c = a * b :=
  checkedMul_eq_ok

/-- The limits and the rate of the repository's tests, under short addresses. -/
def testConfig : Config where
  usdcPerEth := 2000 * 10 ^ 6
  entryPointContract := 0x101
  vaultOwner := 0x202
  paymasterAddress := 0x303
  dailyEthLimit := ether
  monthlyEthLimit := 10 * ether
  dailyUsdcLimit := 1000 * 10 ^ 6
  monthlyUsdcLimit := 10000 * 10 ^ 6
  usdcPerEth_lt := by decide
  dailyEthLimit_lt := by decide
  monthlyEthLimit_lt := by decide
  dailyUsdcLimit_lt := by decide
  monthlyUsdcLimit_lt := by decide

theorem testTime_lt : 1000 < wordSize := by decide

def blockAt (timestamp : ℕ) (h : timestamp < wordSize) : Block := ⟨timestamp, 0, h⟩

end BoundedSpending
