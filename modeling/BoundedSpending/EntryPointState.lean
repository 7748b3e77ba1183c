import BoundedSpending.AccountMachine
import BoundedSpending.GasCostOrder
import BoundedSpending.OpenZeppelin

set_option autoImplicit false

/-!
# The EntryPoint's data, beside one account's

Deposits and stakes, nonces, the reentrancy guard and the ether that the EntryPoint
holds, together with one SpendingAccount at a fixed address. Every other contract
belongs to the environment.
-/
namespace BoundedSpending.EntryPointState

open CheckedArithmetic BigEndianWords UserOperations Preflight TimedLog OpenZeppelin

structure DepositInfo where
  deposit : ℕ
  staked : Bool
  stake : ℕ
  unstakeDelaySec : ℕ
  /-- Time from which the stake may be withdrawn, 0 while it is locked. -/
  withdrawTime : ℕ
  deriving DecidableEq, Repr

inductive Failure where
  | reverted (reason : Revert)
  | failedOpWithRevert (opIndex : ℕ) (reason : String)
  | signatureValidationFailed (aggregator : Address)
  | reentrancyGuardReentrantCall
  | delegateAndRevert
  | senderAddressResult
  deriving DecidableEq, Repr

def failedOp {α : Type} (opIndex : ℕ) (reason : String) : Except Failure α :=
  .error (.reverted (.failedOp opIndex reason))

def orFail {α : Type} : Except Revert α → Except Failure α
  | .ok a => .ok a
  | .error reason => .error (.reverted reason)

/-- What the EVM finds at an address. -/
inductive Code where
  | empty
  | contract
  /-- EIP-7702: an account that delegates to other code. -/
  | delegation (delegate : Address)
  deriving DecidableEq, Repr

/-- The events of the EntryPoint; the last five are ghosts that only the proofs read. -/
inductive EntryPointEvent where
  | deposited (account : Address) (totalDeposit : ℕ)
  | stakeLocked (account : Address) (totalStaked unstakeDelaySec : ℕ)
  | stakeUnlocked (account : Address) (withdrawTime : ℕ)
  | stakeWithdrawn (account withdrawAddress : Address) (amount : ℕ)
  | withdrawn (account withdrawAddress : Address) (amount : ℕ)
  | accountDeployed (userOpHash : ℕ) (sender factory paymaster : Address)
  | beforeExecution
  | signatureAggregatorChanged (aggregator : Address)
  | userOperationEvent (userOpHash : ℕ) (sender paymaster : Address) (nonce : ℕ) (success : Bool)
      (actualGasCost actualGasUsed : ℕ)
  | userOperationRevertReason (userOpHash : ℕ) (sender : Address) (nonce : ℕ) (reason : Bytes)
  | postOpRevertReason (userOpHash : ℕ) (sender : Address) (nonce : ℕ) (reason : Bytes)
  | userOperationPrefundTooLow (userOpHash : ℕ) (sender : Address) (nonce : ℕ)
  /-- Ether came in for a deposit. -/
  | credited (account : Address) (amount : ℕ)
  /-- An operation's nonce was used and its prefund taken from `payer`. -/
  | prepaid (op : PackedUserOperation) (payer : Address) (prefund : ℕ)
  | refunded (payer : Address) (amount : ℕ)
  /-- The account's own code accepted the callData of an operation. -/
  | accountRan (op : PackedUserOperation)
  | compensated (beneficiary : Address) (amount : ℕ)
  deriving DecidableEq, Repr

structure System where
  deposits : Address → DepositInfo
  nonceSequenceNumber : Address → ℕ → ℕ
  /-- The transient flag of `nonReentrant`. -/
  entered : Bool
  balance : ℕ
  code : Address → Code
  account : World
  journal : List (ℕ × EntryPointEvent)

/-- What is fixed about the chain: the account under study and the hash function. -/
structure Deployment where
  config : Config
  account : Address
  env : Env
  keccak : Bytes → ℕ
  messageHashUtils : MessageHashUtils keccak
  domainSeparator : ℕ
  reentrancyGuard : ReentrancyGuard
  account_ne : account ≠ config.entryPointContract

def Deployment.entryPoint (d : Deployment) : Address := d.config.entryPointContract

def emitted (s : System) (now : ℕ) (events : List EntryPointEvent) : System :=
  { s with journal := stamped now events ++ s.journal }

/-- No call brings more ether than there can be. -/
def Fits (s : System) (amount : ℕ) : Prop :=
  s.balance + s.account.balance + amount < wordSize

instance (s : System) (amount : ℕ) : Decidable (Fits s amount) :=
  inferInstanceAs (Decidable (_ < _))

@[simp] theorem emitted_deposits (s : System) (now : ℕ) (events : List EntryPointEvent) :
    (emitted s now events).deposits = s.deposits := rfl

@[simp] theorem emitted_nonces (s : System) (now : ℕ) (events : List EntryPointEvent) :
    (emitted s now events).nonceSequenceNumber = s.nonceSequenceNumber := rfl

@[simp] theorem emitted_entered (s : System) (now : ℕ) (events : List EntryPointEvent) :
    (emitted s now events).entered = s.entered := rfl

@[simp] theorem emitted_balance (s : System) (now : ℕ) (events : List EntryPointEvent) :
    (emitted s now events).balance = s.balance := rfl

@[simp] theorem emitted_account (s : System) (now : ℕ) (events : List EntryPointEvent) :
    (emitted s now events).account = s.account := rfl

theorem orFail_eq_ok {α : Type} {x : Except Revert α} {a : α} : orFail x = .ok a ↔ x = .ok a := by
  cases x with
  | error reason => exact ⟨fun h => (nomatch h), fun h => (nomatch h)⟩
  | ok v => exact ⟨fun h => congrArg Except.ok (Except.ok.inj h),
      fun h => congrArg Except.ok (Except.ok.inj h)⟩

end BoundedSpending.EntryPointState
