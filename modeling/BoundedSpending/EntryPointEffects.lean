import BoundedSpending.EntryPointMachine

set_option autoImplicit false

/-!
# What can happen to the EntryPoint

An abstract machine over the same state: one step for each thing that the code does
to it, and the obligations of the bundle in progress in place of control. What every
step keeps, every run of the code keeps.
-/
namespace BoundedSpending.EntryPointEffects

open CheckedArithmetic UserOperations CallDataDecoder Preflight NestedCalls GasCostOrder
open EntryPointState StakeManager UserOpHash ValidationWindows BundleHandler EntryPointMachine

/-- What the bundle in progress still has to do with money it has taken. -/
structure Obligations where
  /-- The prefund is taken, the result of the validation not yet checked. -/
  unchecked : Option (Prepaid × ℕ)
  waiting : List Prepaid
  /-- The operation that runs, and whether its callData has been accepted. -/
  running : Option (Prepaid × Bool)
  collected : ℕ
  deriving DecidableEq, Repr

def idle (collected : ℕ) : Obligations := ⟨none, [], none, collected⟩

def prepaidOf : List Task → List Prepaid
  | [] => []
  | .announce _ :: tasks => prepaidOf tasks
  | .execute prepaid :: tasks => prepaid :: prepaidOf tasks

def Bundle.obligations (b : Bundle) (tasks : List Task) : Obligations :=
  ⟨none, prepaidOf tasks, none, b.collected⟩

def Execution.obligations (x : Execution) (accepted : Bool) : Obligations :=
  { Bundle.obligations x.bundle x.rest with running := some (x.prepaid, accepted) }

def obligations : Pending → Option Obligations
  | .validateSignatures b _ _ _ => some (Bundle.obligations b b.tasks)
  | .validation v (.validatePaymasterUserOp validationData) =>
    some { Bundle.obligations v.bundle v.bundle.tasks with
      unchecked := some (⟨v.item, v.info⟩, validationData) }
  | .validation v _ => some (Bundle.obligations v.bundle v.bundle.tasks)
  | .execution x (.callData _) => some (Execution.obligations x false)
  | .execution x (.accountCallData _ _) => some (Execution.obligations x true)
  | .execution x (.postOp _ mode) => some (Execution.obligations x (mode = .opSucceeded))
  | .compensation => some (idle 0)
  | .withdrawal _ | .account _ | .foreign => none

def accountCall : Pending → Option AccountMachine.Pending
  | .account pending => some pending
  | .execution _ (.accountCallData _ pending) => some pending
  | _ => none

/-- What an outcome leaves behind, the world and the open calls. -/
def left {ε W K : Type} (below : List K) : Outcome ε W K → Option (W × List K)
  | .revert _ => none
  | .done world => some (world, below)
  | .suspend world pending => some (world, pending :: below)

theorem left_of_keeps {ε W K : Type} {outcome : Outcome ε W K} {v : W} {ks ks' : List K}
    (J : W → List K → Prop) (h : outcome.Keeps J ks) (hleft : left ks outcome = some (v, ks')) :
    J v ks' := by
  cases outcome with
  | revert reason => cases hleft
  | done u =>
    obtain ⟨rfl, rfl⟩ := Prod.mk.inj (Option.some.inj hleft)
    exact h
  | suspend u pending =>
    obtain ⟨rfl, rfl⟩ := Prod.mk.inj (Option.some.inj hleft)
    exact h

structure Prepared (d : Deployment) (op : PackedUserOperation) (info : UserOpInfo) : Prop where
  copied : copyUserOpToMemory op = .ok info.mUserOp
  hash : ∃ code, code d.account = .contract ∧
    getUserOpHash d.messageHashUtils d.domainSeparator code op = .ok info.userOpHash
  prefund : info.prefund = getRequiredPrefund info.mUserOp
  gas : ∃ opIndex, checkMemoryGasValues opIndex info.mUserOp = .ok ()

/-- The sender's answer to `validateUserOp`. -/
inductive Accepted (d : Deployment) (block : Block) (s : System) (v : Validation) :
    ℕ → System → Prop where
  | account {validationData : ℕ} {s' : System} (hsender : v.info.mUserOp.sender = d.account)
      (h : validateByAccount d block s v.item.op v.info = .ok (validationData, s')) :
      Accepted d block s v validationData s'
  | other (hsender : v.info.mUserOp.sender ≠ d.account) (validationData : ℕ) :
      Accepted d block s v validationData s

/-- An event that says nothing of money, nonces or stakes. -/
def Remark : EntryPointEvent → Prop
  | .accountDeployed _ _ _ _ => True
  | .beforeExecution => True
  | .signatureAggregatorChanged _ => True
  | .userOperationRevertReason _ _ _ _ => True
  | .postOpRevertReason _ _ _ _ => True
  | _ => False

/-- One step of the world, of the bundle in progress and of the account's open calls. -/
inductive Effect (d : Deployment) (block : Block) :
    System → Option Obligations → List AccountMachine.Pending →
      System → Option Obligations → List AccountMachine.Pending → Prop where
  | forced {s : System} {o : Option Obligations} {calls : List AccountMachine.Pending}
      (amount : ℕ) (hfits : Fits s amount) :
      Effect d block s o calls { s with balance := s.balance + amount } o calls
  | recoded {s : System} {o : Option Obligations} {calls : List AccountMachine.Pending}
      (account : Address) (code : Code) (h : account ≠ d.account) :
      Effect d block s o calls { s with code := Function.update s.code account code } o calls
  | deposited {s : System} {o : Option Obligations} {calls : List AccountMachine.Pending}
      (account : Address) (amount : ℕ) (hfits : Fits s amount) :
      Effect d block s o calls (depositTo block.timestamp s account amount) o calls
  | stakeAdded {s s' : System} {o : Option Obligations} {calls : List AccountMachine.Pending}
      (sender : Address) (unstakeDelaySec amount : ℕ) (hfits : Fits s amount)
      (h : addStake block.timestamp s sender unstakeDelaySec amount = .ok s') :
      Effect d block s o calls s' o calls
  | stakeUnlocked {s s' : System} {o : Option Obligations} {calls : List AccountMachine.Pending}
      (sender : Address) (h : unlockStake block.timestamp s sender = .ok s') :
      Effect d block s o calls s' o calls
  | stakeWithdrawn {s s' : System} {o : Option Obligations} {calls : List AccountMachine.Pending}
      (sender withdrawAddress : Address)
      (h : withdrawStake block.timestamp s sender withdrawAddress = .ok s') :
      Effect d block s o calls s' o calls
  | withdrawn {s s' : System} {o : Option Obligations} {calls : List AccountMachine.Pending}
      (sender withdrawAddress : Address) (amount : ℕ) (hsender : sender ≠ d.account)
      (h : withdrawTo block.timestamp s sender withdrawAddress amount = .ok s') :
      Effect d block s o calls s' o calls
  | nonceSkipped {s s' : System} {o : Option Obligations} {calls : List AccountMachine.Pending}
      (sender : Address) (key : ℕ) (hsender : sender ≠ d.account)
      (h : incrementNonce s sender key = .ok s') : Effect d block s o calls s' o calls
  | accountCalled {s : System} {o : Option Obligations}
      {calls calls' : List AccountMachine.Pending} {account : World}
      (input : AccountMachine.Input) (hcaller : callerOf input ≠ some d.entryPoint)
      (hfits : ∀ amount, input = .receive amount → Fits s amount)
      (h : left calls (AccountMachine.enter d.env d.config block s.account input) =
        some (account, calls')) :
      Effect d block s o calls { s with account := account } o calls'
  | accountResumed {s : System} {o : Option Obligations}
      {calls calls' : List AccountMachine.Pending} {account : World}
      (pending : AccountMachine.Pending) (ok : Bool)
      (h : left calls (AccountMachine.resume d.env block s.account pending ok) =
        some (account, calls')) :
      Effect d block s o (pending :: calls) { s with account := account } o calls'
  | remarked {s : System} {o : Option Obligations} {calls : List AccountMachine.Pending}
      (e : EntryPointEvent) (h : Remark e) :
      Effect d block s o calls (emitted s block.timestamp [e]) o calls
  | opened {s : System} {calls : List AccountMachine.Pending} :
      Effect d block s none calls { s with entered := true } (some (idle 0)) calls
  | prepaid {s s₁ s₂ : System} {waiting : List Prepaid} {collected validationData : ℕ}
      {calls : List AccountMachine.Pending}
      (v : Validation) (hprepared : Prepared d v.item.op v.info)
      (haccepted : Accepted d block s v validationData s₁)
      (hcharge : charge block.timestamp s₁ v = .ok s₂) :
      Effect d block s (some ⟨none, waiting, none, collected⟩) calls s₂
        (some ⟨some (⟨v.item, v.info⟩, validationData), waiting, none, collected⟩) calls
  | checked {s : System} {waiting : List Prepaid} {prepaid : Prepaid}
      {collected validationData paymasterValidationData contextLength : ℕ}
      {calls : List AccountMachine.Pending} (v : Validation) (haggregator : v.aggregator ≠ 1)
      (h : finishValidation block v validationData paymasterValidationData contextLength =
        .ok prepaid) :
      Effect d block s (some ⟨some (⟨v.item, v.info⟩, validationData), waiting, none, collected⟩)
        calls s (some ⟨none, waiting ++ [prepaid], none, collected⟩) calls
  | started {s : System} {prepaid : Prepaid} {waiting : List Prepaid} {collected : ℕ}
      {calls : List AccountMachine.Pending} :
      Effect d block s (some ⟨none, prepaid :: waiting, none, collected⟩) calls
        s (some ⟨none, waiting, some (prepaid, false), collected⟩) calls
  /-- The callData is empty, or another account has run it. -/
  | returned {s : System} {prepaid : Prepaid} {waiting : List Prepaid} {collected : ℕ}
      {calls : List AccountMachine.Pending}
      (h : prepaid.item.op.callData = [] ∨ prepaid.info.mUserOp.sender ≠ d.account) :
      Effect d block s (some ⟨none, waiting, some (prepaid, false), collected⟩) calls
        s (some ⟨none, waiting, some (prepaid, true), collected⟩) calls
  | ran {s : System} {prepaid : Prepaid} {waiting : List Prepaid} {collected : ℕ}
      {calls calls' : List AccountMachine.Pending} {account : World}
      (call : SpendCall) (hsender : prepaid.info.mUserOp.sender = d.account)
      (hdecode : decodeSpendCall prepaid.item.op.callData = .ok call)
      (h : left calls (AccountMachine.enter d.env d.config block s.account
        (FailedOperations.dispatched d.config call)) = some (account, calls')) :
      Effect d block s (some ⟨none, waiting, some (prepaid, false), collected⟩) calls
        { emitted s block.timestamp [.accountRan prepaid.item.op] with account := account }
        (some ⟨none, waiting, some (prepaid, true), collected⟩) calls'
  | refunded {s : System} {prepaid : Prepaid} {waiting : List Prepaid} {collected : ℕ}
      {calls : List AccountMachine.Pending} (accepted : Bool) (cost gas : ℕ)
      (hcost : cost ≤ prepaid.info.prefund) :
      Effect d block s (some ⟨none, waiting, some (prepaid, accepted), collected⟩) calls
        (refundPrefund block.timestamp s prepaid.info accepted cost gas)
        (some ⟨none, waiting, none, uncheckedAdd collected cost⟩) calls
  | kept {s : System} {prepaid : Prepaid} {waiting : List Prepaid} {collected : ℕ}
      {calls : List AccountMachine.Pending} (gas : ℕ) :
      Effect d block s (some ⟨none, waiting, some (prepaid, false), collected⟩) calls
        (keepPrefund block.timestamp s prepaid.info gas)
        (some ⟨none, waiting, none, uncheckedAdd collected prepaid.info.prefund⟩) calls
  | compensated {s : System} {collected : ℕ} {calls : List AccountMachine.Pending}
      (beneficiary : Address) (h : collected ≤ s.balance) :
      Effect d block s (some (idle collected)) calls
        (emitted { s with balance := s.balance - collected } block.timestamp
          [.compensated beneficiary collected]) (some (idle 0)) calls
  | closed {s : System} {calls : List AccountMachine.Pending} :
      Effect d block s (some (idle 0)) calls { s with entered := false } none calls

abbrev Property := Block → System → Option Obligations → List AccountMachine.Pending → Prop

structure Closed (d : Deployment) (I : Property) : Prop where
  advance : ∀ block block' s, block.timestamp ≤ block'.timestamp → I block s none [] →
    I block' s none []
  effect : ∀ block s o calls s' o' calls', I block s o calls →
    Effect d block s o calls s' o' calls' → I block s' o' calls'

/-- The guard is set while a bundle is in progress, and the account's code stays. -/
structure Consistent (d : Deployment) (s : System) (o : Option Obligations) : Prop where
  entered : s.entered = o.isSome
  code : s.code d.account = .contract

variable {d : Deployment} {block : Block} {now : ℕ} {s s' : System} {o o' : Option Obligations}
  {v : Validation}

def charged (now : ℕ) (s : System) (v : Validation) : System :=
  let info := s.deposits v.info.payer
  let sender := v.info.mUserOp.sender
  let key := nonceKey v.info.mUserOp.nonce
  let paid := setInfo s v.info.payer { info with deposit := info.deposit - v.info.prefund }
  emitted (setNonce paid sender key (s.nonceSequenceNumber sender key + 1)) now
    [.prepaid v.item.op v.info.payer v.info.prefund]

theorem takePrefund_eq_ok {opIndex : ℕ} {op : PackedUserOperation} {info : UserOpInfo}
    {refusal : String} : takePrefund now s opIndex op info refusal = .ok s' ↔
      info.prefund ≤ (s.deposits info.payer).deposit ∧
      s' = emitted (setInfo s info.payer { s.deposits info.payer with
          deposit := (s.deposits info.payer).deposit - info.prefund }) now
        [.prepaid op info.payer info.prefund] := by
  unfold takePrefund
  cases htry : tryDecrementDeposit s info.payer info.prefund with
  | none =>
    refine ⟨fun h => (nomatch h), ?_⟩
    rintro ⟨hle, _⟩
    have hsome := tryDecrementDeposit_eq_some.mpr ⟨hle, rfl⟩
    rw [htry] at hsome
    cases hsome
  | some t =>
    obtain ⟨hle, rfl⟩ := tryDecrementDeposit_eq_some.mp htry
    rw [Except.ok.injEq]
    exact ⟨fun h => ⟨hle, h.symm⟩, fun h => h.2.symm⟩

theorem useNonce_eq_ok {opIndex : ℕ} {info : UserOpInfo} :
    useNonce s opIndex info = .ok s' ↔
      s.nonceSequenceNumber info.mUserOp.sender (nonceKey info.mUserOp.nonce) =
        nonceSequence info.mUserOp.nonce ∧
      s' = setNonce s info.mUserOp.sender (nonceKey info.mUserOp.nonce)
        (nonceSequence info.mUserOp.nonce + 1) := by
  have hsmall : nonceSequence info.mUserOp.nonce + 1 < wordSize := by
    have hlt : info.mUserOp.nonce % 2 ^ 64 < 2 ^ 64 := Nat.mod_lt _ (Nat.two_pow_pos 64)
    unfold nonceSequence wordSize
    omega
  simp only [useNonce, validateAndUpdateNonce, bind_returns, incrementNonce_eq_ok, pure_returns,
    Prod.exists, Prod.mk.injEq]
  constructor
  · rintro ⟨_, _, ⟨_, ⟨_, rfl⟩, rfl, rfl⟩, hvalid⟩
    split_ifs at hvalid with hnext
    · have heq := of_decide_eq_true hnext
      refine ⟨heq, ?_⟩
      rw [pure_returns.mp hvalid, heq]
    · cases hvalid
  · rintro ⟨heq, rfl⟩
    refine ⟨_, _, ⟨_, ⟨heq ▸ hsmall, rfl⟩, rfl, rfl⟩, ?_⟩
    rw [decide_eq_true heq, heq]
    rfl

theorem checkVerificationGas_eq_ok {opIndex : ℕ} {info : UserOpInfo} {seen : Readings} {u : Unit} :
    checkVerificationGas opIndex info seen = .ok u ↔
      seen.verificationGas ≤ info.mUserOp.verificationGasLimit := by
  unfold checkVerificationGas
  split_ifs with h
  · exact ⟨fun heq => (nomatch heq), fun hle => absurd h (by omega)⟩
  · exact ⟨fun _ => by omega, fun _ => rfl⟩

theorem charge_eq_ok : charge now s v = .ok s' ↔
    v.info.prefund ≤ (s.deposits v.info.payer).deposit ∧
      s.nonceSequenceNumber v.info.mUserOp.sender (nonceKey v.info.mUserOp.nonce) =
        nonceSequence v.info.mUserOp.nonce ∧
      v.item.seen.verificationGas ≤ v.info.mUserOp.verificationGasLimit ∧ s' = charged now s v := by
  simp only [charge]
  split_ifs with hpaymaster
  · simp only [bind_returns, takePrefund_eq_ok, useNonce_eq_ok, checkVerificationGas_eq_ok,
      pure_returns]
    constructor
    · rintro ⟨_, ⟨hle, rfl⟩, _, ⟨hnonce, rfl⟩, _, hgas, rfl⟩
      rw [emitted_nonces, setInfo_nonces] at hnonce
      refine ⟨hle, hnonce, hgas, ?_⟩
      rw [charged, hnonce]
      rfl
    · rintro ⟨hle, hnonce, hgas, rfl⟩
      refine ⟨_, ⟨hle, rfl⟩, _, ⟨hnonce, rfl⟩, (), hgas, ?_⟩
      rw [charged, hnonce]
      rfl
  · simp only [bind_returns, takePrefund_eq_ok, useNonce_eq_ok, checkVerificationGas_eq_ok]
    constructor
    · rintro ⟨_, ⟨hnonce, rfl⟩, _, hgas, hle, rfl⟩
      refine ⟨hle, hnonce, hgas, ?_⟩
      rw [charged, hnonce]
      rfl
    · rintro ⟨hle, hnonce, hgas, rfl⟩
      refine ⟨_, ⟨hnonce, rfl⟩, (), hgas, hle, ?_⟩
      rw [charged, hnonce]
      rfl

/-- The ether that left the account for the EntryPoint's `receive`. -/
def withPaid (d : Deployment) (now : ℕ) (s : System) (account : World) : System :=
  let paid := s.account.balance - account.balance
  if 0 < paid then depositTo now { s with account := account } d.account paid
  else { s with account := account }

theorem withPaid_entered (d : Deployment) (now : ℕ) (s : System) (account : World) :
    (withPaid d now s account).entered = s.entered := by
  simp only [withPaid]
  split_ifs <;> rfl

theorem withPaid_code (d : Deployment) (now : ℕ) (s : System) (account : World) :
    (withPaid d now s account).code = s.code := by
  simp only [withPaid]
  split_ifs <;> rfl

theorem validateByAccount_eq_ok {op : PackedUserOperation} {info : UserOpInfo}
    {validationData : ℕ} :
    validateByAccount d block s op info = .ok (validationData, s') ↔ ∃ account,
      AccountMachine.validateUserOp d.env d.config block s.account d.entryPoint op
        info.userOpHash (missingAccountFunds s info) = .ok (validationData, account) ∧
      s' = withPaid d block.timestamp s account := by
  simp only [validateByAccount, bind_returns, pure_returns, Prod.exists, Prod.mk.injEq]
  constructor
  · rintro ⟨_, account, hok, rfl, rfl⟩
    exact ⟨account, hok, rfl⟩
  · rintro ⟨account, hok, rfl⟩
    exact ⟨_, account, hok, rfl, rfl⟩

theorem getUserOpHash_own {op : PackedUserOperation} {hash : ℕ} (hsender : op.sender = d.account)
    (h : ∃ code, code d.account = .contract ∧
      getUserOpHash d.messageHashUtils d.domainSeparator code op = .ok hash) :
    hash = userOpHash d.messageHashUtils d.domainSeparator op := by
  obtain ⟨code, hcode, hhash⟩ := h
  simp only [getUserOpHash, getEip7702InitCodeHashOverride, bind_returns, pure_returns] at hhash
  obtain ⟨override, hoverride, rfl⟩ := hhash
  split_ifs at hoverride with hmarked
  · obtain ⟨delegate, hdelegate, _⟩ := bind_returns.mp hoverride
    rw [getEip7702Delegate, hsender, hcode] at hdelegate
    cases hdelegate
  · obtain rfl := Except.ok.inj hoverride
    rfl

theorem prepare_eq_ok {opIndex : ℕ} {op : PackedUserOperation} {info : UserOpInfo}
    (hcode : s.code d.account = .contract) (h : prepare d s opIndex op = .ok info) :
    Prepared d op info := by
  simp only [prepare, bind_returns, orFail_eq_ok, pure_returns] at h
  obtain ⟨mUserOp, hcopy, hash, hhash, _, hgas, rfl⟩ := h
  exact ⟨hcopy, ⟨s.code, hcode, hhash⟩, rfl, ⟨opIndex, hgas⟩⟩

end BoundedSpending.EntryPointEffects
