import BoundedSpending.AuthorisedOperations
import BoundedSpending.BundleProgress

set_option autoImplicit false

namespace BoundedSpending.AcceptedOperations

open CheckedArithmetic BigEndianWords UserOperations Preflight NestedCalls GasCostOrder
open EntryPointState StakeManager UserOpHash ValidationWindows BundleHandler EntryPointMachine
open EntryPointEffects EntryPointRules EntryPointSolvency NonceOrder AuthorisedOperations
open BundleProgress

/-- The account, which exists already, pays for the gas of the operation. -/
structure Own (d : Deployment) (item : Item) : Prop where
  sender : item.op.sender = d.account
  initCode : item.op.initCode = []
  paymasterAndData : item.op.paymasterAndData = []

def selfPaying (op : PackedUserOperation) : MemoryUserOp :=
  let (verificationGasLimit, callGasLimit) := unpackUints op.accountGasLimits
  let (maxPriorityFeePerGas, maxFeePerGas) := unpackUints op.gasFees
  ⟨op.sender, op.nonce, verificationGasLimit, callGasLimit, 0, 0, op.preVerificationGas, 0,
    maxFeePerGas, maxPriorityFeePerGas⟩

def infoOf (d : Deployment) (op : PackedUserOperation) : UserOpInfo :=
  ⟨selfPaying op, hashOf d op, getRequiredPrefund (selfPaying op), 0, 0⟩

def prepaidFor (d : Deployment) (item : Item) : Prepaid :=
  ⟨item, { infoOf d item.op with
    preOpGas := uncheckedAdd item.seen.validationGas item.op.preVerificationGas }⟩

structure Acceptable (d : Deployment) (block : Block) (s : System) (item : Item)
    (storage : Storage) : Prop where
  gasValues : checkMemoryGasValues 0 (selfPaying item.op) = .ok ()
  /-- The owner has signed it, and it asks for no more than the limits leave. -/
  preflight : preflight d.env d.config block s.account.storage item.op
    (hashOf d item.op) = .ok (sigValidationSuccess, storage)
  nonce : s.nonceSequenceNumber d.account (nonceKey item.op.nonce) = nonceSequence item.op.nonce
  funds : (infoOf d item.op).prefund ≤ (s.deposits d.account).deposit + s.account.balance
  verificationGas : item.seen.verificationGas ≤ (selfPaying item.op).verificationGasLimit

def paidBy (d : Deployment) (block : Block) (s : System) (item : Item) (storage : Storage) :
    World :=
  AccountMachine.payPrefund block.timestamp
    (AccountMachine.logged { s.account with storage := storage } block.timestamp [.validated])
    (missingAccountFunds s (infoOf d item.op))

def accepted (d : Deployment) (block : Block) (s : System) (item : Item) (storage : Storage) :
    System :=
  charged block.timestamp (withPaid d block.timestamp s (paidBy d block s item storage))
    ⟨opened 0, 0, item, infoOf d item.op, []⟩

/-- Each operation in turn is acceptable after those before it. -/
inductive AcceptsAll (d : Deployment) (block : Block) : System → List Item → System → Prop where
  | nil (s : System) : AcceptsAll d block s [] s
  | cons {s s' : System} {item : Item} {items : List Item} (storage : Storage)
      (h : Acceptable d block s item storage)
      (hrest : AcceptsAll d block (accepted d block s item storage) items s') :
      AcceptsAll d block s (item :: items) s'

variable {d : Deployment} {block : Block} {s s' : System} {item : Item} {storage : Storage}
  {next : System → Prepaid → Result}

theorem prepare_own (hown : Own d item) (opIndex : ℕ) {info : UserOpInfo} :
    prepare d s opIndex item.op = .ok info ↔
      checkMemoryGasValues 0 (selfPaying item.op) = .ok () ∧ info = infoOf d item.op := by
  have hcopy : copyUserOpToMemory item.op = .ok (selfPaying item.op) := by
    rw [copyUserOpToMemory, hown.paymasterAndData]
    rfl
  have hhash : getUserOpHash d.messageHashUtils d.domainSeparator s.code item.op =
      .ok (hashOf d item.op) := by
    have hmarked : isEip7702InitCode item.op.initCode = false := by
      rw [hown.initCode]
      rfl
    rw [getUserOpHash, getEip7702InitCodeHashOverride, hmarked]
    rfl
  have hgas : checkMemoryGasValues opIndex (selfPaying item.op) = .ok () ↔
      checkMemoryGasValues 0 (selfPaying item.op) = .ok () := by
    rw [checkMemoryGasValues, checkMemoryGasValues, require_eq_ok, require_eq_ok]
  simp only [prepare, bind_returns, orFail_eq_ok, pure_returns]
  rw [hcopy, hhash]
  constructor
  · rintro ⟨_, hm, _, hh, _, hg, rfl⟩
    obtain rfl := Except.ok.inj hm
    obtain rfl := Except.ok.inj hh
    exact ⟨hgas.mp hg, rfl⟩
  · rintro ⟨hg, rfl⟩
    exact ⟨_, rfl, _, rfl, (), hgas.mpr hg, rfl⟩

theorem validateByAccount_own {validationData : ℕ} :
    validateByAccount d block s item.op (infoOf d item.op) = .ok (validationData, s') ↔
      ∃ storage, Preflight.preflight d.env d.config block s.account.storage item.op
          (hashOf d item.op) = .ok (validationData, storage) ∧
        s' = withPaid d block.timestamp s (paidBy d block s item storage) := by
  simp only [validateByAccount_eq_ok, AccountRules.validateUserOp_eq_ok]
  constructor
  · rintro ⟨_, ⟨_, storage, hpreflight, rfl⟩, rfl⟩
    exact ⟨storage, hpreflight, rfl⟩
  · rintro ⟨storage, hpreflight, rfl⟩
    exact ⟨_, ⟨rfl, storage, hpreflight, rfl⟩, rfl⟩

theorem missingAccountFunds_own (hown : Own d item) :
    missingAccountFunds s (infoOf d item.op) =
      (infoOf d item.op).prefund - (s.deposits d.account).deposit := by
  have hlt := getRequiredPrefund_lt (selfPaying item.op)
  have hsender : (infoOf d item.op).mUserOp.sender = d.account := hown.sender
  have hpaymaster : (infoOf d item.op).mUserOp.paymaster = 0 := rfl
  rw [missingAccountFunds, if_pos hpaymaster, hsender, balanceOf]
  split_ifs with hless
  · omega
  · exact uncheckedSub_of_le (not_lt.mp hless) hlt

theorem balance_payPrefund (now : ℕ) (w : World) (missingAccountFunds : ℕ) :
    (AccountMachine.payPrefund now w missingAccountFunds).balance =
      if missingAccountFunds ≤ w.balance then w.balance - missingAccountFunds else w.balance := by
  unfold AccountMachine.payPrefund
  split_ifs with hpays hle hle
  · rfl
  · exact absurd hpays.2 hle
  · have hzero : missingAccountFunds = 0 := by
      by_contra hne
      exact hpays ⟨hne, hle⟩
    rw [hzero, Nat.sub_zero]
  · rfl

theorem deposit_depositTo {amount : ℕ} (now : ℕ) (s : System) (a : Address)
    (hfits : (s.deposits a).deposit + amount < wordSize) :
    ((depositTo now s a amount).deposits a).deposit = (s.deposits a).deposit + amount := by
  have hinfo : ((depositTo now s a amount).deposits a).deposit =
      uncheckedAdd (s.deposits a).deposit amount := by
    change (Function.update s.deposits a _ a).deposit = _
    rw [Function.update_self]
  rw [hinfo, uncheckedAdd_of_lt hfits]

theorem withPaid_deposit {account : World}
    (hfits : (s.deposits d.account).deposit + (s.account.balance - account.balance) < wordSize) :
    ((withPaid d block.timestamp s account).deposits d.account).deposit =
      (s.deposits d.account).deposit + (s.account.balance - account.balance) := by
  simp only [withPaid]
  split_ifs with hpaid
  · exact deposit_depositTo block.timestamp { s with account := account } d.account hfits
  · change (s.deposits d.account).deposit = _
    omega

theorem deposit_withPaid (hown : Own d item) :
    (infoOf d item.op).prefund ≤
        ((withPaid d block.timestamp s
          (paidBy d block s item storage)).deposits d.account).deposit ↔
      (infoOf d item.op).prefund ≤ (s.deposits d.account).deposit + s.account.balance := by
  have hlt : (infoOf d item.op).prefund < wordSize := getRequiredPrefund_lt _
  have hbalance : (paidBy d block s item storage).balance =
      if (infoOf d item.op).prefund - (s.deposits d.account).deposit ≤ s.account.balance then
        s.account.balance - ((infoOf d item.op).prefund - (s.deposits d.account).deposit)
      else s.account.balance := by
    rw [paidBy, balance_payPrefund, missingAccountFunds_own hown]
    rfl
  by_cases hzero : (infoOf d item.op).prefund ≤ (s.deposits d.account).deposit
  · have hsame : (paidBy d block s item storage).balance = s.account.balance := by
      rw [hbalance, Nat.sub_eq_zero_of_le hzero]
      exact if_pos (Nat.zero_le _)
    simp only [withPaid, hsame, Nat.sub_self, lt_irrefl, if_false]
    exact ⟨fun _ => hzero.trans (Nat.le_add_right _ _), fun _ => hzero⟩
  · rw [withPaid_deposit]
    · rw [hbalance]
      split_ifs <;> omega
    · rw [hbalance]
      split_ifs <;> omega

theorem charge_own (hown : Own d item) {b : Bundle} {rest : List Todo} :
    charge block.timestamp (withPaid d block.timestamp s (paidBy d block s item storage))
        ⟨b, 0, item, infoOf d item.op, rest⟩ = .ok s' ↔
      s.nonceSequenceNumber d.account (nonceKey item.op.nonce) = nonceSequence item.op.nonce ∧
      (infoOf d item.op).prefund ≤ (s.deposits d.account).deposit + s.account.balance ∧
      item.seen.verificationGas ≤ (selfPaying item.op).verificationGasLimit ∧
      s' = accepted d block s item storage := by
  have hpayer : (infoOf d item.op).payer = d.account := hown.sender
  have hsender : (infoOf d item.op).mUserOp.sender = d.account := hown.sender
  rw [charge_eq_ok]
  dsimp only
  rw [hpayer, hsender, deposit_withPaid hown, withPaid_nonces]
  constructor
  · rintro ⟨hfunds, hnonce, hgas, rfl⟩
    exact ⟨hnonce, hfunds, hgas, rfl⟩
  · rintro ⟨hnonce, hfunds, hgas, rfl⟩
    exact ⟨hfunds, hnonce, hgas, rfl⟩

theorem finishValidation_signed {b : Bundle} {rest : List Todo} :
    finishValidation block ⟨b, 0, item, infoOf d item.op, rest⟩ sigValidationSuccess 0 0 =
      .ok (prepaidFor d item) := by
  simp only [finishValidation, validateAccountAndPaymasterValidationData, getValidationData]
  rfl

theorem finishValidation_unsigned (d : Deployment) (block : Block) (item : Item) (b : Bundle)
    (rest : List Todo) :
    ∃ reason, finishValidation block ⟨b, 0, item, infoOf d item.op, rest⟩ sigValidationFailed 0 0 =
      .error reason := by
  simp only [finishValidation, validateAccountAndPaymasterValidationData, getValidationData]
  exact ⟨_, rfl⟩

theorem validateSignature_cases {op : PackedUserOperation} {userOpHash validationData : ℕ}
    (h : validateSignature d.env d.config op userOpHash = .ok validationData) :
    validationData = sigValidationSuccess ∨ validationData = sigValidationFailed := by
  unfold validateSignature at h
  split at h
  · cases h
  · obtain rfl := Except.ok.inj h
    split_ifs
    · exact .inl rfl
    · exact .inr rfl

theorem Acceptable.unique {storage' : Storage} (h : Acceptable d block s item storage)
    (h' : Acceptable d block s item storage') : storage = storage' :=
  (Prod.mk.inj (Except.ok.inj (h.preflight.symm.trans h'.preflight))).2

theorem charge_acceptable (hown : Own d item) (h : Acceptable d block s item storage) (b : Bundle)
    (rest : List Todo) :
    charge block.timestamp (withPaid d block.timestamp s (paidBy d block s item storage))
      ⟨b, 0, item, infoOf d item.op, rest⟩ = .ok (accepted d block s item storage) :=
  (charge_own hown).mpr ⟨h.nonce, h.funds, h.verificationGas, rfl⟩

theorem callValidateUserOp_own (hown : Own d item)
    (hgas : checkMemoryGasValues 0 (selfPaying item.op) = .ok ()) (b : Bundle) (rest : List Todo) :
    (∃ storage, Acceptable d block s item storage ∧
      callValidateUserOp d block s ⟨b, 0, item, infoOf d item.op, rest⟩ next =
        next (accepted d block s item storage) (prepaidFor d item)) ∨
    (∀ storage, ¬ Acceptable d block s item storage) ∧
      ∃ reason, callValidateUserOp d block s ⟨b, 0, item, infoOf d item.op, rest⟩ next =
        .revert reason := by
  have hsender : (infoOf d item.op).mUserOp.sender = d.account := hown.sender
  simp only [callValidateUserOp, hsender, if_true]
  cases hvalidated : validateByAccount d block s item.op (infoOf d item.op) with
  | error reason =>
    refine .inr ⟨?_, _, rfl⟩
    intro storage h
    have hok := validateByAccount_own.mpr ⟨storage, h.preflight, rfl⟩
    rw [hvalidated] at hok
    cases hok
  | ok result =>
    obtain ⟨validationData, s₁⟩ := result
    obtain ⟨storage, hpreflight, rfl⟩ := validateByAccount_own.mp hvalidated
    have hsame : ∀ storage', Acceptable d block s item storage' →
        validationData = sigValidationSuccess ∧ storage = storage' := fun storage' h =>
      Prod.mk.inj (Except.ok.inj (hpreflight.symm.trans h.preflight))
    have hpaymaster : (infoOf d item.op).mUserOp.paymaster = 0 := rfl
    simp only [afterValidateUserOp, hpaymaster, if_true]
    cases hcharge : charge block.timestamp
        (withPaid d block.timestamp s (paidBy d block s item storage))
        ⟨b, 0, item, infoOf d item.op, rest⟩ with
    | error reason =>
      refine .inr ⟨?_, _, rfl⟩
      intro storage' h
      obtain ⟨_, rfl⟩ := hsame storage' h
      rw [charge_acceptable hown h] at hcharge
      cases hcharge
    | ok s₂ =>
      obtain ⟨hnonce, hfunds, hverification, rfl⟩ := (charge_own hown).mp hcharge
      obtain ⟨_, _, _, hsignature, _⟩ := preflight_eq_ok.mp hpreflight
      rcases validateSignature_cases hsignature with rfl | rfl
      · refine .inl ⟨storage, ⟨hgas, hpreflight, hnonce, hfunds, hverification⟩, ?_⟩
        simp only [validated, finishValidation_signed]
      · refine .inr ⟨?_, ?_⟩
        · intro storage' h
          cases (hsame storage' h).1
        · obtain ⟨reason, hreason⟩ := finishValidation_unsigned d block item b rest
          simp only [validated, hreason]
          exact ⟨reason, rfl⟩

def executes (d : Deployment) (items : List Item) : List Task :=
  items.map fun item => .execute (prepaidFor d item)

/-- The validation loop over operations of the account gets to the execution loop, or the
    bundle is turned away. -/
theorem validateAll_own (items : List Item) (hown : ∀ item ∈ items, Own d item) (s : System)
    (b : Bundle) :
    (∃ s', AcceptsAll d block s items s' ∧
      validateAll d block s b (items.map (.validate 0)) =
        executeAll d block (emitted s' block.timestamp [.beforeExecution])
          { b with opIndex := 0, tasks := [] } (b.tasks ++ executes d items)) ∨
    (∀ s', ¬ AcceptsAll d block s items s') ∧
      ∃ reason, validateAll d block s b (items.map (.validate 0)) = .revert reason := by
  induction items generalizing s b with
  | nil =>
    refine .inl ⟨s, .nil s, ?_⟩
    change _ = executeAll d block _ _ (b.tasks ++ [])
    rw [List.append_nil]
    rfl
  | cons item items ih =>
    have hitem := hown item List.mem_cons_self
    have hitems : ∀ item ∈ items, Own d item := fun i hmem => hown i (List.mem_cons_of_mem _ hmem)
    rw [List.map_cons, validateAll]
    cases hprepare : prepare d s b.opIndex item.op with
    | error reason =>
      refine .inr ⟨?_, reason, rfl⟩
      intro s' h
      cases h with
      | cons storage h _ =>
        rw [(prepare_own hitem b.opIndex).mpr ⟨h.gasValues, rfl⟩] at hprepare
        cases hprepare
    | ok info =>
      obtain ⟨hgas, rfl⟩ := (prepare_own hitem b.opIndex).mp hprepare
      have hcreate : ∀ next, createSenderIfNeeded d block s
          ⟨b, 0, item, infoOf d item.op, items.map (.validate 0)⟩ next =
          callValidateUserOp d block s
            ⟨b, 0, item, infoOf d item.op, items.map (.validate 0)⟩ next := by
        intro next
        exact if_pos hitem.initCode
      simp only [hcreate]
      rcases callValidateUserOp_own hitem hgas b (items.map (.validate 0)) with
        ⟨storage, hacceptable, heq⟩ | ⟨hno, reason, heq⟩
      · rw [heq]
        rcases ih hitems (accepted d block s item storage) (b.push (prepaidFor d item)) with
          ⟨s', hall, hrest⟩ | ⟨hno, hrest⟩
        · refine .inl ⟨s', .cons storage hacceptable hall, ?_⟩
          rw [hrest]
          change executeAll d block _ _ ((b.tasks ++ [_]) ++ _) = _
          rw [List.append_assoc]
          rfl
        · refine .inr ⟨?_, hrest⟩
          intro s' h
          cases h with
          | cons storage' h hall =>
            obtain rfl := h.unique hacceptable
            exact hno s' hall
      · rw [heq]
        refine .inr ⟨?_, reason, rfl⟩
        intro s' h
        cases h with
        | cons storage' h _ => exact hno storage' h

variable {ks : List Pending}

theorem held_accepted (hown : Own d item) (h : Acceptable d block s item storage) (b : Bundle)
    (hheld : Held d SolventAt block s (some (Bundle.obligations b b.tasks)) ks) :
    Held d SolventAt block (accepted d block s item storage)
      (some (Bundle.obligations b (b.push (prepaidFor d item)).tasks)) ks := by
  have hprepared : Prepared d item.op (infoOf d item.op) :=
    prepare_eq_ok hheld.1.code ((prepare_own hown 0).mpr ⟨h.gasValues, rfl⟩)
  have haccepted : Accepted d block s ⟨b, 0, item, infoOf d item.op, []⟩ sigValidationSuccess
      (withPaid d block.timestamp s (paidBy d block s item storage)) :=
    .account hown.sender (validateByAccount_own.mpr ⟨storage, h.preflight, rfl⟩)
  have hcharged := hheld.effect solvent_closed
    (.prepaid _ hprepared haccepted (charge_acceptable hown h b []))
  have hchecked := Held.effect solvent_closed hcharged
    (.checked _ Nat.zero_ne_one finishValidation_signed)
  rw [Bundle.push, Bundle.obligations, prepaidOf_push]
  exact hchecked

theorem held_acceptsAll {items : List Item} (h : AcceptsAll d block s items s')
    (hown : ∀ item ∈ items, Own d item) (b : Bundle)
    (hheld : Held d SolventAt block s (some (Bundle.obligations b b.tasks)) ks) :
    Held d SolventAt block s' (some (Bundle.obligations b (b.tasks ++ executes d items))) ks := by
  induction h generalizing b with
  | nil s =>
    change Held d SolventAt block s (some (Bundle.obligations b (b.tasks ++ []))) ks
    rw [List.append_nil]
    exact hheld
  | @cons s s' item items storage h hrest ih =>
    have hnext := ih (fun i hmem => hown i (List.mem_cons_of_mem _ hmem))
      (b.push (prepaidFor d item))
      (held_accepted (hown item List.mem_cons_self) h b hheld)
    have htasks : (b.push (prepaidFor d item)).tasks ++ executes d items =
        b.tasks ++ executes d (item :: items) := List.append_assoc _ _ _
    rw [htasks] at hnext
    exact hnext

theorem gasSuffices_executes {items : List Item}
    (hgas : ∀ item ∈ items, innerGasTooLow (prepaidFor d item) = false) :
    GasSuffices (executes d items) := by
  induction items with
  | nil => exact fun _ hmem => nomatch hmem
  | cons item items ih =>
    intro p hmem
    rcases List.mem_cons.mp hmem with rfl | hmem
    · exact hgas item List.mem_cons_self
    · exact ih (fun i hi => hgas i (List.mem_cons_of_mem _ hi)) p hmem

/-- In every state of every run in which no bundle is open, by whomever it is sent: a bundle
    of the account's own operations gets to their execution if each in turn is acceptable,
    and reverts at once if one is not. -/
theorem own_bundles_accepted {labels : List (Label Block (Input d))}
    {m : Machine Block System Pending} (hrun : Run d block labels m)
    (hguard : m.world.entered = false) {items : List Item} (hown : ∀ item ∈ items, Own d item)
    {beneficiary : Address} (hbeneficiary : beneficiary ≠ 0)
    (hgas : ∀ item ∈ items, innerGasTooLow (prepaidFor d item) = false) :
    ((∃ s', AcceptsAll d m.clock { m.world with entered := true } items s') →
      ∃ world k, step (entryPoint d) m (.call (.handleOps items beneficiary)) =
          some ⟨m.clock, world, ⟨m.world, k⟩ :: m.stack⟩ ∧
        (Compensates beneficiary world k ∨ Working beneficiary k)) ∧
      ((∀ s', ¬ AcceptsAll d m.clock { m.world with entered := true } items s') →
        step (entryPoint d) m (.call (.handleOps items beneficiary)) = some m) := by
  have hagrees := solvent_agrees hrun
  obtain ⟨_, hheld⟩ := hagrees.alone hguard
  have hopened : Held d SolventAt m.clock { m.world with entered := true }
      (some (Bundle.obligations (opened beneficiary) [])) (m.stack.map Frame.pending) :=
    hheld.effect solvent_closed .opened
  have hfits : Fits m.world (valueOf (Input.handleOps items beneficiary : Input d)) :=
    hheld.2.supplied
  have hstep : step (entryPoint d) m (.call (.handleOps items beneficiary)) =
      some (settle m.clock m.world m.stack (validateAll d m.clock
        { m.world with entered := true } (opened beneficiary) (items.map (.validate 0)))) := by
    have henter : enter d m.clock m.world (.handleOps items beneficiary) = validateAll d m.clock
        { m.world with entered := true } (opened beneficiary) (items.map (.validate 0)) :=
      (enter_eq_call hfits).trans (handleOps_clear hguard)
    change some (settle m.clock m.world m.stack (enter d m.clock m.world _)) = _
    rw [henter]
  rcases validateAll_own items hown { m.world with entered := true } (opened beneficiary) with
    ⟨s', hall, hvalidate⟩ | ⟨hno, reason, hvalidate⟩
  · refine ⟨fun _ => ?_, fun hno => absurd hall (hno s')⟩
    have hstart := held_acceptsAll hall hown (opened beneficiary) hopened
    have hadvances := advances_executeAll (executes d items) _ (opened beneficiary) hbeneficiary
      (gasSuffices_executes hgas)
      (hstart.effect solvent_closed (.remarked .beforeExecution trivial))
    rw [hstep, hvalidate]
    cases hresult : executeAll d m.clock (emitted s' m.clock.timestamp [.beforeExecution])
        (opened beneficiary) (executes d items) with
    | suspend world k =>
      rw [hresult] at hadvances
      have hexecuted : executeAll d m.clock (emitted s' m.clock.timestamp [.beforeExecution])
          { opened beneficiary with opIndex := 0, tasks := [] }
          ((opened beneficiary).tasks ++ executes d items) = .suspend world k := hresult
      rw [hexecuted]
      exact ⟨world, k, rfl, hadvances.imp_right And.left⟩
    | revert reason =>
      rw [hresult] at hadvances
      exact hadvances.elim
    | done world =>
      rw [hresult] at hadvances
      exact hadvances.elim
  · refine ⟨fun h => absurd h.choose_spec (hno _), fun _ => ?_⟩
    rw [hstep, hvalidate]
    rfl

theorem own_payment (nonce : ℕ) : Own testDeployment (paymentItem nonce) := ⟨rfl, rfl, rfl⟩

theorem own_bundles_accepted_twice :
    (∃ s', AcceptsAll testDeployment (blockAt 1000 testTime_lt)
      { testStart.world with entered := true } [paymentItem 0, paymentItem 1] s') ∧
    ∀ s', ¬ AcceptsAll testDeployment (blockAt 1000 testTime_lt)
      { testStart.world with entered := true } [paymentItem 1] s' := by
  have hrun : Run testDeployment (blockAt 1000 testTime_lt) [] testStart :=
    ⟨0, ether, 0, fun _ => .empty, by decide, rfl⟩
  have hown : ∀ item ∈ [paymentItem 0, paymentItem 1], Own testDeployment item := by
    simp only [List.forall_mem_cons]
    exact ⟨own_payment 0, own_payment 1, List.forall_mem_nil _⟩
  have hgas : ∀ item ∈ [paymentItem 0, paymentItem 1],
      innerGasTooLow (prepaidFor testDeployment item) = false := by
    decide +kernel
  have hbeneficiary : (0xb11 : Address) ≠ 0 := by decide
  refine ⟨?_, ?_⟩
  · by_contra hno
    have hstep := (own_bundles_accepted hrun rfl hown hbeneficiary hgas).2
      fun s' h => hno ⟨s', h⟩
    have hopen : (step (entryPoint testDeployment) testStart
        (.call (.handleOps [paymentItem 0, paymentItem 1] 0xb11))).map (fun m => m.stack.length) =
          some 1 := by
      decide +kernel
    rw [hstep] at hopen
    cases hopen
  · intro s' h
    obtain ⟨world, k, hstep, _⟩ := (own_bundles_accepted hrun rfl
      (fun item hmem => hown item (List.mem_cons_of_mem _ hmem)) hbeneficiary
      fun item hmem => hgas item (List.mem_cons_of_mem _ hmem)).1 ⟨s', h⟩
    have hrefused : (step (entryPoint testDeployment) testStart
        (.call (.handleOps [paymentItem 1] 0xb11))).map (fun m => m.stack.length) = some 0 := by
      decide +kernel
    rw [hstep] at hrefused
    cases hrefused

end BoundedSpending.AcceptedOperations
