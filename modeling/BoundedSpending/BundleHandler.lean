import BoundedSpending.StakeManager
import BoundedSpending.UserOpHash
import BoundedSpending.ValidationWindows
import BoundedSpending.FailedOperations

set_option autoImplicit false

/-!
# The two bundle handlers of EntryPoint.sol

A call to another contract is left open, whoever it calls back; a call to the account
under study runs the account's own code. What those contracts return, and what the gas
meter shows meanwhile, is fixed with the operation and otherwise arbitrary.
-/
namespace BoundedSpending.BundleHandler

open CheckedArithmetic BigEndianWords CallDataDecoder UserOperations Preflight NestedCalls
open EntryPointGas GasCostOrder EntryPointState StakeManager UserOpHash ValidationWindows

def innerGasOverhead : ℕ := 10000
def revertReasonMaxLen : ℕ := 2048

/-- Gas used by one run of `_postExecution`: until it, in its call of `postOp`, and in all of it. -/
structure PostExecutionGas where
  executionGas : ℕ
  postOpGas : ℕ
  postExecutionGas : ℕ
  deriving DecidableEq, Repr

/-- What the EntryPoint reads while it handles one operation. -/
structure Readings where
  createdSender : Address
  /-- Returned by the `validateUserOp` of any other account. -/
  validationData : ℕ
  /-- The words that stand where the return data of `validatePaymasterUserOp` begin. -/
  contextOffset : ℕ
  paymasterValidationData : ℕ
  contextLength : ℕ
  paymasterReturnLength : ℕ
  revertReason : Bytes
  innerRevertReason : Bytes
  verificationGas : ℕ
  paymasterVerificationGas : ℕ
  validationGas : ℕ
  innerGasLeft : ℕ
  /-- `innerHandleOp` itself runs out of gas. -/
  innerOutOfGas : Bool
  inner : PostExecutionGas
  /-- Measured outside, where `innerHandleOp` has reverted. -/
  outer : PostExecutionGas
  deriving DecidableEq, Repr

structure Item where
  op : PackedUserOperation
  seen : Readings
  deriving DecidableEq, Repr

/-- `UserOpsPerAggregator`, whose own signature only the aggregator reads. -/
structure Group where
  userOps : List Item
  aggregator : Address
  deriving DecidableEq, Repr

/-- `UserOpInfo`; of the context in memory only its length matters. -/
structure UserOpInfo where
  mUserOp : MemoryUserOp
  userOpHash : ℕ
  prefund : ℕ
  contextLength : ℕ
  preOpGas : ℕ
  deriving DecidableEq, Repr

def UserOpInfo.payer (info : UserOpInfo) : Address :=
  if info.mUserOp.paymaster = 0 then info.mUserOp.sender else info.mUserOp.paymaster

structure Prepaid where
  item : Item
  info : UserOpInfo
  deriving DecidableEq, Repr

/-- The validation loops, flattened. -/
inductive Todo where
  | group (aggregator : Address)
  | validate (aggregator : Address) (item : Item)
  deriving DecidableEq, Repr

/-- The execution loops, flattened. -/
inductive Task where
  | announce (aggregator : Address)
  | execute (prepaid : Prepaid)
  deriving DecidableEq, Repr

/-- The local variables of the bundle that is being handled. -/
structure Bundle where
  beneficiary : Address
  opIndex : ℕ
  tasks : List Task
  collected : ℕ
  deriving DecidableEq, Repr

structure Validation where
  bundle : Bundle
  aggregator : Address
  item : Item
  info : UserOpInfo
  rest : List Todo
  deriving DecidableEq, Repr

structure Execution where
  bundle : Bundle
  prepaid : Prepaid
  rest : List Task
  deriving DecidableEq, Repr

inductive ValidationCall where
  | initEip7702Sender
  | createSender
  | validateUserOp
  | validatePaymasterUserOp (validationData : ℕ)
  deriving DecidableEq, Repr

inductive PostOpMode where
  | opSucceeded
  | opReverted
  | postOpReverted
  deriving DecidableEq, Repr

/-- A call that `innerHandleOp` makes, with the state it falls back on. -/
inductive ExecutionCall where
  | callData (saved : System)
  /-- The account's own code is at work and has called out. -/
  | accountCallData (saved : System) (pending : AccountMachine.Pending)
  | postOp (saved : System) (mode : PostOpMode)

inductive Pending where
  | validateSignatures (bundle : Bundle) (aggregator : Address) (groups : List Group)
      (todo : List Todo)
  | validation (v : Validation) (call : ValidationCall)
  | execution (x : Execution) (call : ExecutionCall)
  | compensation
  | withdrawal (reason : String)
  /-- A function of the account, called from outside, has called out. -/
  | account (pending : AccountMachine.Pending)
  | foreign

abbrev Result := Outcome Failure System Pending

/-- `_copyUserOpToMemory`, the hash, the range check and the prefund. -/
def prepare (d : Deployment) (s : System) (opIndex : ℕ) (op : PackedUserOperation) :
    Except Failure UserOpInfo := do
  let mUserOp ← orFail (copyUserOpToMemory op)
  let userOpHash ← getUserOpHash d.messageHashUtils d.domainSeparator s.code op
  orFail (checkMemoryGasValues opIndex mUserOp)
  return ⟨mUserOp, userOpHash, getRequiredPrefund mUserOp, 0, 0⟩

def missingAccountFunds (s : System) (info : UserOpInfo) : ℕ :=
  if info.mUserOp.paymaster = 0 then
    if info.prefund < balanceOf s info.mUserOp.sender then 0
    else uncheckedSub info.prefund (balanceOf s info.mUserOp.sender)
  else 0

/-- The account's `validateUserOp`. What it pays arrives at `receive`. -/
def validateByAccount (d : Deployment) (block : Block) (s : System) (op : PackedUserOperation)
    (info : UserOpInfo) : Except Revert (ℕ × System) := do
  let (validationData, account) ← AccountMachine.validateUserOp d.env d.config block s.account
    d.entryPoint op info.userOpHash (missingAccountFunds s info)
  let paid := s.account.balance - account.balance
  let s := { s with account := account }
  return (validationData, if 0 < paid then depositTo block.timestamp s d.account paid else s)

def takePrefund (now : ℕ) (s : System) (opIndex : ℕ) (op : PackedUserOperation)
    (info : UserOpInfo) (refusal : String) : Except Failure System :=
  match tryDecrementDeposit s info.payer info.prefund with
  | none => failedOp opIndex refusal
  | some s => .ok (emitted s now [.prepaid op info.payer info.prefund])

def useNonce (s : System) (opIndex : ℕ) (info : UserOpInfo) : Except Failure System := do
  let (s, valid) ← validateAndUpdateNonce s info.mUserOp.sender info.mUserOp.nonce
  if valid then return s else failedOp opIndex "AA25 invalid account nonce"

def checkVerificationGas (opIndex : ℕ) (info : UserOpInfo) (seen : Readings) :
    Except Failure Unit :=
  if info.mUserOp.verificationGasLimit < seen.verificationGas then
    failedOp opIndex "AA26 over verificationGasLimit"
  else .ok ()

/-- What `_validatePrepayment` does between its two calls: an account pays before its nonce
    is used, a paymaster after it. -/
def charge (now : ℕ) (s : System) (v : Validation) : Except Failure System :=
  let opIndex := v.bundle.opIndex
  if v.info.mUserOp.paymaster = 0 then do
    let s ← takePrefund now s opIndex v.item.op v.info "AA21 didn't pay prefund"
    let s ← useNonce s opIndex v.info
    checkVerificationGas opIndex v.info v.item.seen
    return s
  else do
    let s ← useNonce s opIndex v.info
    checkVerificationGas opIndex v.info v.item.seen
    takePrefund now s opIndex v.item.op v.info "AA31 paymaster deposit too low"

def checkPaymasterAnswer (v : Validation) (ok : Bool) : Except Failure Unit :=
  let seen := v.item.seen
  if ok = false ∨ seen.contextOffset ≠ 64 ∨
      uncheckedAdd seen.contextLength 31 < uncheckedSub seen.paymasterReturnLength 96 then
    .error (.failedOpWithRevert v.bundle.opIndex "AA33 reverted")
  else if v.info.mUserOp.paymasterVerificationGasLimit < seen.paymasterVerificationGas then
    failedOp v.bundle.opIndex "AA36 over paymasterVerificationGasLimit"
  else .ok ()

/-- The end of `_validatePrepayment`, and the check of what was returned. -/
def finishValidation (block : Block) (v : Validation)
    (validationData paymasterValidationData contextLength : ℕ) : Except Failure Prepaid := do
  let preOpGas := uncheckedAdd v.item.seen.validationGas v.item.op.preVerificationGas
  validateAccountAndPaymasterValidationData block v.bundle.opIndex validationData
    paymasterValidationData v.aggregator
  return ⟨v.item, { v.info with contextLength := contextLength, preOpGas := preOpGas }⟩

-- The functions that call out are followed by `next`, the rest of their loop.

def validated (block : Block) (s : System) (v : Validation)
    (validationData paymasterValidationData contextLength : ℕ)
    (next : System → Prepaid → Result) : Result :=
  match finishValidation block v validationData paymasterValidationData contextLength with
  | .error reason => .revert reason
  | .ok prepaid => next s prepaid

def afterValidateUserOp (d : Deployment) (block : Block) (s : System) (v : Validation)
    (validationData : ℕ) (next : System → Prepaid → Result) : Result :=
  match charge block.timestamp s v with
  | .error reason => .revert reason
  | .ok s =>
    let paymaster := v.info.mUserOp.paymaster
    if paymaster = 0 then validated block s v validationData 0 0 next
    -- neither contract has a `validatePaymasterUserOp`
    else if paymaster = d.account ∨ paymaster = d.entryPoint then
      .revert (.failedOpWithRevert v.bundle.opIndex "AA33 reverted")
    else .suspend s (.validation v (.validatePaymasterUserOp validationData))

def callValidateUserOp (d : Deployment) (block : Block) (s : System) (v : Validation)
    (next : System → Prepaid → Result) : Result :=
  let sender := v.info.mUserOp.sender
  if sender = d.account then
    match validateByAccount d block s v.item.op v.info with
    | .error _ => .revert (.failedOpWithRevert v.bundle.opIndex "AA23 reverted")
    | .ok (validationData, s) => afterValidateUserOp d block s v validationData next
  else if sender = d.entryPoint then
    .revert (.failedOpWithRevert v.bundle.opIndex "AA23 reverted")
  else .suspend s (.validation v .validateUserOp)

def createSenderIfNeeded (d : Deployment) (block : Block) (s : System) (v : Validation)
    (next : System → Prepaid → Result) : Result :=
  let initCode := v.item.op.initCode
  let fail reason := Outcome.revert (.reverted (.failedOp v.bundle.opIndex reason))
  if initCode = [] then callValidateUserOp d block s v next
  else if isEip7702InitCode initCode then
    if 20 < initCode.length then .suspend s (.validation v .initEip7702Sender)
    else callValidateUserOp d block s v next
  else if s.code v.info.mUserOp.sender ≠ .empty then fail "AA10 sender already constructed"
  else if initCode.length < 20 then fail "AA99 initCode too small"
  else .suspend s (.validation v .createSender)

def senderCreated (d : Deployment) (block : Block) (s : System) (v : Validation)
    (next : System → Prepaid → Result) : Result :=
  let sender := v.info.mUserOp.sender
  let sender1 := v.item.seen.createdSender
  let fail reason := Outcome.revert (.reverted (.failedOp v.bundle.opIndex reason))
  if sender1 = 0 then fail "AA13 initCode failed or OOG"
  else if sender1 ≠ sender then fail "AA14 initCode must return sender"
  else if s.code sender1 = .empty then fail "AA15 initCode must create sender"
  else
    let factory := value (window v.item.op.initCode 0 20)
    callValidateUserOp d block (emitted s block.timestamp
      [.accountDeployed v.info.userOpHash sender factory v.info.mUserOp.paymaster]) v next

def resumeValidation (d : Deployment) (block : Block) (s : System) (v : Validation)
    (call : ValidationCall) (ok : Bool) (next : System → Prepaid → Result) : Result :=
  let opIndex := v.bundle.opIndex
  match call, ok with
  | .initEip7702Sender, true => callValidateUserOp d block s v next
  | .initEip7702Sender, false =>
    .revert (.failedOpWithRevert 0 "AA13 EIP7702 sender init failed")
  | .createSender, true => senderCreated d block s v next
  | .createSender, false => .revert (.reverted .callFailed)
  | .validateUserOp, true => afterValidateUserOp d block s v v.item.seen.validationData next
  | .validateUserOp, false =>
    if s.code v.info.mUserOp.sender = .empty then
      .revert (.reverted (.failedOp opIndex "AA20 account not deployed"))
    else .revert (.failedOpWithRevert opIndex "AA23 reverted")
  | .validatePaymasterUserOp validationData, ok =>
    match checkPaymasterAnswer v ok with
    | .error reason => .revert reason
    | .ok () =>
      validated block s v validationData v.item.seen.paymasterValidationData
        v.item.seen.contextLength next

def gasUntilPostOp (info : UserOpInfo) (gas : PostExecutionGas) : ℕ :=
  let actualGas := uncheckedAdd gas.executionGas info.preOpGas
  let executionGasUsed := uncheckedSub actualGas info.preOpGas
  uncheckedAdd actualGas (unusedGasPenalty executionGasUsed info.mUserOp.callGasLimit)

def postOpCalled (info : UserOpInfo) : Bool :=
  decide (info.mUserOp.paymaster ≠ 0 ∧ 0 < info.contextLength)

def actualGas (info : UserOpInfo) (gas : PostExecutionGas) : ℕ :=
  let postOpUnusedGasPenalty :=
    if postOpCalled info then unusedGasPenalty gas.postOpGas info.mUserOp.paymasterPostOpGasLimit
    else 0
  uncheckedAdd (gasUntilPostOp info gas) (uncheckedAdd gas.postExecutionGas postOpUnusedGasPenalty)

def actualGasCost (block : Block) (info : UserOpInfo) (gas : PostExecutionGas) : ℕ :=
  uncheckedMul (actualGas info gas) (getUserOpGasPrice block info.mUserOp)

def userOperationEvent (info : UserOpInfo) (success : Bool) (actualGasCost actualGas : ℕ) :
    EntryPointEvent :=
  .userOperationEvent info.userOpHash info.mUserOp.sender info.mUserOp.paymaster
    info.mUserOp.nonce success actualGasCost actualGas

def refundPrefund (now : ℕ) (s : System) (info : UserOpInfo) (success : Bool)
    (actualGasCost actualGas : ℕ) : System :=
  let refund := info.prefund - actualGasCost
  emitted (incrementDeposit s info.payer refund).1 now
    [userOperationEvent info success actualGasCost actualGas, .refunded info.payer refund]

def keepPrefund (now : ℕ) (s : System) (info : UserOpInfo) (actualGas : ℕ) : System :=
  emitted s now
    [userOperationEvent info false info.prefund actualGas,
      .userOperationPrefundTooLow info.userOpHash info.mUserOp.sender info.mUserOp.nonce]

/-- `_executeUserOp` after a revert of `innerHandleOp` for any reason but its own two. -/
def postOpReverted (block : Block) (saved : System) (x : Execution)
    (next : System → ℕ → Result) : Result :=
  let info := x.prepaid.info
  let seen := x.prepaid.item.seen
  let s := emitted saved block.timestamp [.postOpRevertReason info.userOpHash info.mUserOp.sender
    info.mUserOp.nonce (seen.innerRevertReason.take revertReasonMaxLen)]
  let cost := actualGasCost block info seen.outer
  let gas := actualGas info seen.outer
  if info.prefund < cost then next (keepPrefund block.timestamp s info gas) info.prefund
  else next (refundPrefund block.timestamp s info false cost gas) cost

/-- The end of `innerHandleOp`, once `postOp` has returned if it was called. -/
def finishInner (block : Block) (saved s : System) (x : Execution) (mode : PostOpMode)
    (next : System → ℕ → Result) : Result :=
  let info := x.prepaid.info
  let seen := x.prepaid.item.seen
  let cost := actualGasCost block info seen.inner
  if seen.innerOutOfGas then postOpReverted block saved x next
  else if info.prefund < cost then
    next (keepPrefund block.timestamp saved info
      (uncheckedAdd seen.outer.executionGas info.preOpGas)) info.prefund
  else
    next (refundPrefund block.timestamp s info (mode = .opSucceeded) cost
      (actualGas info seen.inner)) cost

def afterCallData (block : Block) (saved s : System) (x : Execution) (mode : PostOpMode)
    (next : System → ℕ → Result) : Result :=
  if postOpCalled x.prepaid.info then .suspend s (.execution x (.postOp saved mode))
  else finishInner block saved s x mode next

def callDataReverted (block : Block) (saved : System) (x : Execution)
    (next : System → ℕ → Result) : Result :=
  let info := x.prepaid.info
  let result := x.prepaid.item.seen.revertReason.take revertReasonMaxLen
  let s :=
    if 0 < result.length then
      emitted saved block.timestamp [.userOperationRevertReason info.userOpHash info.mUserOp.sender
        info.mUserOp.nonce result]
    else saved
  afterCallData block saved s x .opReverted next

/-- The account's dispatcher. Its preflight has refused callData for any other function. -/
def dispatch (d : Deployment) (block : Block) (account : World) (callData : Bytes) :
    AccountMachine.Result :=
  match decodeSpendCall callData with
  | .error reason => .revert reason
  | .ok call =>
    AccountMachine.enter d.env d.config block account (FailedOperations.dispatched d.config call)

def afterAccount (block : Block) (saved s : System) (x : Execution)
    (next : System → ℕ → Result) : AccountMachine.Result → Result
  | .revert _ => callDataReverted block saved x next
  | .done account => afterCallData block saved { s with account := account } x .opSucceeded next
  | .suspend account pending =>
    .suspend { s with account := account } (.execution x (.accountCallData saved pending))

@[irreducible] def innerGasTooLow (prepaid : Prepaid) : Bool :=
  let mUserOp := prepaid.info.mUserOp
  decide (prepaid.item.seen.innerGasLeft * 63 / 64 <
    uncheckedAdd (uncheckedAdd mUserOp.callGasLimit mUserOp.paymasterPostOpGasLimit)
      innerGasOverhead)

def executeUserOp (d : Deployment) (block : Block) (s : System) (x : Execution)
    (next : System → ℕ → Result) : Result :=
  let callData := x.prepaid.item.op.callData
  if innerGasTooLow x.prepaid then
    .revert (.reverted (.failedOp x.bundle.opIndex "AA95 out of gas"))
  else if callData = [] then afterCallData block s s x .opSucceeded next
  else if x.prepaid.info.mUserOp.sender = d.account then
    let ran := emitted s block.timestamp [.accountRan x.prepaid.item.op]
    afterAccount block s ran x next (dispatch d block s.account callData)
  else .suspend s (.execution x (.callData s))

def resumeExecution (d : Deployment) (block : Block) (s : System) (x : Execution)
    (call : ExecutionCall) (ok : Bool) (next : System → ℕ → Result) : Result :=
  match call, ok with
  | .callData saved, true => afterCallData block saved s x .opSucceeded next
  | .callData saved, false => callDataReverted block saved x next
  | .accountCallData saved pending, ok =>
    afterAccount block saved s x next (AccountMachine.resume d.env block s.account pending ok)
  | .postOp saved mode, true => finishInner block saved s x mode next
  | .postOp saved _, false => postOpReverted block saved x next

def compensate (now : ℕ) (s : System) (b : Bundle) : Result :=
  if b.beneficiary = 0 then .revert (.reverted (.errorString "AA90 invalid beneficiary"))
  else if b.collected ≤ s.balance then
    .suspend (emitted { s with balance := s.balance - b.collected } now
      [.compensated b.beneficiary b.collected]) .compensation
  else .revert (.reverted (.errorString "AA91 failed send to beneficiary"))

def Bundle.paid (b : Bundle) (cost : ℕ) : Bundle :=
  { b with opIndex := b.opIndex + 1, collected := uncheckedAdd b.collected cost }

def executeAll (d : Deployment) (block : Block) (s : System) (b : Bundle) : List Task → Result
  | [] => compensate block.timestamp s b
  | .announce aggregator :: rest =>
    executeAll d block (emitted s block.timestamp [.signatureAggregatorChanged aggregator]) b rest
  | .execute prepaid :: rest =>
    executeUserOp d block s ⟨b, prepaid, rest⟩ fun s cost => executeAll d block s (b.paid cost) rest

def Bundle.push (b : Bundle) (prepaid : Prepaid) : Bundle :=
  { b with opIndex := b.opIndex + 1, tasks := b.tasks ++ [.execute prepaid] }

def validateAll (d : Deployment) (block : Block) (s : System) (b : Bundle) : List Todo → Result
  | [] =>
    executeAll d block (emitted s block.timestamp [.beforeExecution])
      { b with opIndex := 0, tasks := [] } b.tasks
  | .group aggregator :: rest =>
    validateAll d block s { b with tasks := b.tasks ++ [.announce aggregator] } rest
  | .validate aggregator item :: rest =>
    match prepare d s b.opIndex item.op with
    | .error reason => .revert reason
    | .ok info =>
      createSenderIfNeeded d block s ⟨b, aggregator, item, info, rest⟩ fun s prepaid =>
        validateAll d block s (b.push prepaid) rest

/-- The first loop of `handleAggregatedOps`. Address 1 marks a failed signature. -/
def validateSignatures (d : Deployment) (block : Block) (s : System) (b : Bundle)
    (todo : List Todo) : List Group → Result
  | [] => validateAll d block s b todo
  | group :: groups =>
    if group.aggregator = 1 then .revert (.signatureValidationFailed group.aggregator)
    else if group.aggregator = 0 then validateSignatures d block s b todo groups
    -- neither contract has a `validateSignatures`
    else if group.aggregator = d.account ∨ group.aggregator = d.entryPoint then
      .revert (.signatureValidationFailed group.aggregator)
    else .suspend s (.validateSignatures b group.aggregator groups todo)

def Group.todo (group : Group) : List Todo :=
  .group group.aggregator :: group.userOps.map (.validate group.aggregator)

def opened (beneficiary : Address) : Bundle := ⟨beneficiary, 0, [], 0⟩

def handleOps (d : Deployment) (block : Block) (s : System) (ops : List Item)
    (beneficiary : Address) : Result :=
  match d.reentrancyGuard.nonReentrantBefore s.entered with
  | none => .revert .reentrancyGuardReentrantCall
  | some entered =>
    validateAll d block { s with entered := entered } (opened beneficiary)
      (ops.map (.validate 0))

def handleAggregatedOps (d : Deployment) (block : Block) (s : System)
    (opsPerAggregator : List Group) (beneficiary : Address) : Result :=
  match d.reentrancyGuard.nonReentrantBefore s.entered with
  | none => .revert .reentrancyGuardReentrantCall
  | some entered =>
    validateSignatures d block { s with entered := entered } (opened beneficiary)
      (opsPerAggregator.flatMap Group.todo) opsPerAggregator

variable {d : Deployment} {block : Block} {s : System} {ops : List Item} {groups : List Group}
  {beneficiary : Address}

theorem handleOps_entered (h : s.entered = true) :
    handleOps d block s ops beneficiary = .revert .reentrancyGuardReentrantCall := by
  rw [handleOps, h, d.reentrancyGuard.before_entered]

theorem handleOps_clear (h : s.entered = false) :
    handleOps d block s ops beneficiary =
      validateAll d block { s with entered := true } (opened beneficiary)
        (ops.map (.validate 0)) := by
  rw [handleOps, h, d.reentrancyGuard.before_clear]

theorem handleAggregatedOps_entered (h : s.entered = true) :
    handleAggregatedOps d block s groups beneficiary = .revert .reentrancyGuardReentrantCall := by
  rw [handleAggregatedOps, h, d.reentrancyGuard.before_entered]

theorem handleAggregatedOps_clear (h : s.entered = false) :
    handleAggregatedOps d block s groups beneficiary =
      validateSignatures d block { s with entered := true } (opened beneficiary)
        (groups.flatMap Group.todo) groups := by
  rw [handleAggregatedOps, h, d.reentrancyGuard.before_clear]

end BoundedSpending.BundleHandler
