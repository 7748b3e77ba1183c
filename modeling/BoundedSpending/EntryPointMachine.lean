import BoundedSpending.BundleHandler

set_option autoImplicit false

/-!
# The EntryPoint and an account under any environment

Every external function of EntryPoint.sol and of the account at `d.account`, as an
entry of one nested-call machine. Nobody but the EntryPoint calls the account in its
name; and the account's own calls carry ether or go to the token, as
`SignedCalls.calls_funded` shows, so that it never calls a function of the EntryPoint
that takes none.
-/
namespace BoundedSpending.EntryPointMachine

open CheckedArithmetic BigEndianWords UserOperations Preflight NestedCalls TimedLog
open EntryPointState StakeManager UserOpHash BundleHandler OpenZeppelin

def callerOf : AccountMachine.Input → Option Address
  | .validateUserOp sender _ _ _ => some sender
  | .execute sender _ => some sender
  | .executeBatch sender _ => some sender
  | .payForGasInUsdc sender _ _ => some sender
  | .requestEmergencyWithdraw sender => some sender
  | .emergencyWithdraw sender _ => some sender
  | _ => none

inductive Input (d : Deployment) where
  | receive (sender : Address) (amount : ℕ)
  | depositTo (account : Address) (amount : ℕ)
  | addStake (sender : Address) (unstakeDelaySec amount : ℕ)
  | unlockStake (sender : Address) (h : sender ≠ d.account)
  | withdrawStake (sender withdrawAddress : Address) (h : sender ≠ d.account)
  | withdrawTo (sender withdrawAddress : Address) (withdrawAmount : ℕ) (h : sender ≠ d.account)
  | incrementNonce (sender : Address) (key : ℕ) (h : sender ≠ d.account)
  | handleOps (ops : List Item) (beneficiary : Address)
  | handleAggregatedOps (opsPerAggregator : List Group) (beneficiary : Address)
  | innerHandleOp
  | getSenderAddress
  | delegateAndRevert
  | account (input : AccountMachine.Input) (h : callerOf input ≠ some d.entryPoint)
  /-- Ether arrives without a call. -/
  | forceEther (amount : ℕ)
  | setCode (account : Address) (code : Code) (h : account ≠ d.account)
  | foreign

def valueOf {d : Deployment} : Input d → ℕ
  | .receive _ amount => amount
  | .depositTo _ amount => amount
  | .addStake _ _ amount => amount
  | .account (.receive amount) _ => amount
  | .account (.addDeposit amount) _ => amount
  | .forceEther amount => amount
  | _ => 0

def ofExcept : Except Failure System → Result
  | .ok s => .done s
  | .error reason => .revert reason

def sending (reason : String) : Except Failure System → Result
  | .ok s => .suspend s (.withdrawal reason)
  | .error failure => .revert failure

def fromAccount (s : System) : AccountMachine.Result → Result
  | .revert reason => .revert (.reverted reason)
  | .done account => .done { s with account := account }
  | .suspend account pending => .suspend { s with account := account } (.account pending)

def call (d : Deployment) (block : Block) (s : System) : Input d → Result
  | .receive sender amount => .done (depositTo block.timestamp s sender amount)
  | .depositTo account amount => .done (depositTo block.timestamp s account amount)
  | .addStake sender unstakeDelaySec amount =>
    ofExcept (addStake block.timestamp s sender unstakeDelaySec amount)
  | .unlockStake sender _ => ofExcept (unlockStake block.timestamp s sender)
  | .withdrawStake sender withdrawAddress _ =>
    sending "failed to withdraw stake" (withdrawStake block.timestamp s sender withdrawAddress)
  | .withdrawTo sender withdrawAddress withdrawAmount _ =>
    sending "failed to withdraw"
      (withdrawTo block.timestamp s sender withdrawAddress withdrawAmount)
  | .incrementNonce sender key _ => ofExcept (incrementNonce s sender key)
  | .handleOps ops beneficiary => handleOps d block s ops beneficiary
  | .handleAggregatedOps opsPerAggregator beneficiary =>
    handleAggregatedOps d block s opsPerAggregator beneficiary
  -- the caller is not the EntryPoint itself
  | .innerHandleOp => .revert (.reverted (.errorString "AA92 internal call only"))
  | .getSenderAddress => .revert .senderAddressResult
  | .delegateAndRevert => .revert .delegateAndRevert
  | .account (.addDeposit amount) _ => .done (depositTo block.timestamp s d.account amount)
  | .account input _ =>
    fromAccount s (AccountMachine.enter d.env d.config block s.account input)
  | .forceEther amount => .done { s with balance := s.balance + amount }
  | .setCode account code _ => .done { s with code := Function.update s.code account code }
  | .foreign => .suspend s .foreign

/-- There is not more ether in the world than a word counts. -/
def enter (d : Deployment) (block : Block) (s : System) (input : Input d) : Result :=
  if Fits s (valueOf input) then call d block s input else .revert (.reverted .callFailed)

theorem enter_eq_call {d : Deployment} {block : Block} {s : System} {input : Input d}
    (hfits : Fits s (valueOf input)) : enter d block s input = call d block s input := if_pos hfits

def resume (d : Deployment) (block : Block) (s : System) : Pending → Bool → Result
  | .validateSignatures b _ groups todo, true => validateSignatures d block s b todo groups
  | .validateSignatures _ aggregator _ _, false => .revert (.signatureValidationFailed aggregator)
  | .validation v kind, ok =>
    resumeValidation d block s v kind ok fun s prepaid =>
      validateAll d block s (v.bundle.push prepaid) v.rest
  | .execution x kind, ok =>
    resumeExecution d block s x kind ok fun s cost =>
      executeAll d block s (x.bundle.paid cost) x.rest
  | .compensation, true =>
    .done { s with entered := d.reentrancyGuard.nonReentrantAfter s.entered }
  | .compensation, false => .revert (.reverted (.errorString "AA91 failed send to beneficiary"))
  | .withdrawal _, true => .done s
  | .withdrawal reason, false => .revert (.reverted (.errorString reason))
  | .account pending, ok => fromAccount s (AccountMachine.resume d.env block s.account pending ok)
  | .foreign, true => .done s
  | .foreign, false => .revert (.reverted .callFailed)

theorem resume_compensation (d : Deployment) (block : Block) (s : System) :
    resume d block s .compensation true = .done { s with entered := false } := by
  rw [resume, d.reentrancyGuard.after_eq]

def entryPoint (d : Deployment) : NestedCalls.Code Block (Input d) Failure System Pending where
  later block block' := decide (block.timestamp ≤ block'.timestamp)
  enter := enter d
  resume := resume d

def emptyInfo : DepositInfo := ⟨0, false, 0, 0, 0⟩

/-- Both contracts are new; either may have been sent ether before. -/
def launched (d : Deployment) (block : Block) (balance accountBalance usdcBalance : ℕ)
    (code : Address → Code) : Machine Block System Pending where
  clock := block
  world :=
    { deposits := fun _ => emptyInfo
      nonceSequenceNumber := fun _ _ => 0
      entered := false
      balance := balance
      code := Function.update code d.account .contract
      account := ⟨deployed block.timestamp, accountBalance, usdcBalance, []⟩
      journal := [] }
  stack := []

/-- A run of the system: any callers, any order, any nesting. -/
def Run (d : Deployment) (block : Block) (labels : List (Label Block (Input d)))
    (m : Machine Block System Pending) : Prop :=
  ∃ balance accountBalance usdcBalance code, balance + accountBalance < wordSize ∧
    run (entryPoint d) (launched d block balance accountBalance usdcBalance code) labels = some m

theorem Run.of_map {α : Type} {d : Deployment} {block : Block}
    {labels : List (Label Block (Input d))}
    {balance accountBalance usdcBalance : ℕ} {code : Address → Code}
    (hsupply : balance + accountBalance < wordSize) {f : Machine Block System Pending → α} {a : α}
    (h : (run (entryPoint d) (launched d block balance accountBalance usdcBalance code)
      labels).map f = some a) : ∃ m, Run d block labels m ∧ f m = a := by
  obtain ⟨m, hm, ha⟩ := Option.map_eq_some_iff.mp h
  exact ⟨m, ⟨balance, accountBalance, usdcBalance, code, hsupply, hm⟩, ha⟩

def payment (nonce : ℕ) : PackedUserOperation :=
  { PreflightExecution.payOp (ether / 10) with nonce := nonce }

def emptyHash : ℕ := 0xc5d2460186f7233c927e7db2dcc703c0e500b653ca82273b7bfad8045d85a470

def paymentWords (nonce : ℕ) : List ℕ :=
  [0x29a0bca4af4be3421398da00295e58e6d7de38cb492214754cb6a47507dd6f8e, 0x707, nonce, emptyHash,
    0x790c7caca5a2ff8029bb2a58e7d83444627dd4b6fac8fca943f558b00c005384,
    100000 * 2 ^ 128 + 60000, 50000, 10 ^ 9 * 2 ^ 128 + 10 ^ 9, emptyHash]

def testDomainSeparator : ℕ :=
  0xc7bb499aab62c33bea5b79fb755cb004e082783ae4f5be99cf1b9b81d574e28e

/-- The keccak-256 hashes of all that is hashed for the payments with nonces 0 and 1. -/
def testHashes : List (Bytes × ℕ) :=
  [([], emptyHash),
    (asciiBytes packedUserOpType,
      0x29a0bca4af4be3421398da00295e58e6d7de38cb492214754cb6a47507dd6f8e),
    ((payment 0).callData, 0x790c7caca5a2ff8029bb2a58e7d83444627dd4b6fac8fca943f558b00c005384),
    (encodeWords (paymentWords 0),
      0x0913c4ed03f7eb2937dc677331d7007b49967d55b3f1ae50c364a3dd4227753c),
    (encodeWords (paymentWords 1),
      0x69159fa7c603cad1eb4452c17166a8f3c6649181e0ffc0dba65e493f27a8dee4),
    (typedDataMessage testDomainSeparator
      0x0913c4ed03f7eb2937dc677331d7007b49967d55b3f1ae50c364a3dd4227753c,
      0x4c1560aea1124a95329185f1d59e90497454ea2731d67f6f8528a85bca6d865c),
    (typedDataMessage testDomainSeparator
      0x69159fa7c603cad1eb4452c17166a8f3c6649181e0ffc0dba65e493f27a8dee4,
      0x3566b335bad33b085fd6c1caa064c38862f264dc0d972ba3e8d055d59b2af3d9)]

def testKeccak (message : Bytes) : ℕ := (testHashes.lookup message).getD 0

theorem testAccount_ne : 0x707 ≠ testConfig.entryPointContract := by decide

def testDeployment : Deployment where
  config := testConfig
  account := 0x707
  env := AccountMachine.ownerEnv
  keccak := testKeccak
  messageHashUtils := testMessageHashUtils testKeccak
  domainSeparator := testDomainSeparator
  reentrancyGuard := testReentrancyGuard
  account_ne := testAccount_ne

def testReadings : Readings where
  createdSender := 0
  validationData := 0
  contextOffset := 64
  paymasterValidationData := 0
  contextLength := 0
  paymasterReturnLength := 96
  revertReason := []
  innerRevertReason := []
  verificationGas := 60000
  paymasterVerificationGas := 0
  validationGas := 70000
  innerGasLeft := 1000000
  innerOutOfGas := false
  inner := ⟨40000, 0, 5000⟩
  outer := ⟨45000, 0, 5000⟩

def paymentItem (nonce : ℕ) : Item := ⟨payment nonce, testReadings⟩

def paymentBundle (nonce : ℕ) : List (Label Block (Input testDeployment)) :=
  [.call (.handleOps [paymentItem nonce] 0xb11), .answer true, .answer true]

def testStart : Machine Block System Pending :=
  launched testDeployment (blockAt 1000 testTime_lt) 0 ether 0 fun _ => .empty

end BoundedSpending.EntryPointMachine
