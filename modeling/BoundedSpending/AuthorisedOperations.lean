import BoundedSpending.NonceOrder
import BoundedSpending.SealedEvents

set_option autoImplicit false

namespace BoundedSpending.AuthorisedOperations

open CheckedArithmetic UserOperations CallDataDecoder Preflight NestedCalls GasCostOrder OrderedLogs
open EntryPointState StakeManager UserOpHash ValidationWindows BundleHandler EntryPointMachine
open EntryPointEffects EntryPointRules EntryPointSolvency SettledOperations NonceOrder SealedEvents

def hashOf (d : Deployment) (op : PackedUserOperation) : ℕ :=
  userOpHash d.messageHashUtils d.domainSeparator op

def OwnerSigned (d : Deployment) (op : PackedUserOperation) : Prop :=
  d.env.recover (hashOf d op) op.signature = some d.config.vaultOwner

def AsksFor (op : PackedUserOperation) (totals : ℕ × ℕ) : Prop :=
  ∃ call, decodeSpendCall op.callData = .ok call ∧ call.spend = .ok totals

def ranOf : EntryPointEvent → Option PackedUserOperation
  | .accountRan op => some op
  | _ => none

def ranOps (s : System) : List PackedUserOperation := s.journal.filterMap fun e => ranOf e.2

def uncheckedOf (o : Option Obligations) : Option (Prepaid × ℕ) := o.bind Obligations.unchecked

/-- Whether the operation that runs still waits for its callData to be accepted. -/
def unaccepted : Option (Prepaid × Bool) → ℕ
  | some (_, false) => 1
  | _ => 0

def queued (o : Option Obligations) : ℕ :=
  (o.map fun o => o.waiting.length + unaccepted o.running + o.unchecked.toList.length).getD 0

/-- The operation of the account whose callData has been accepted but not yet reported. -/
def acceptedOp (d : Deployment) : Option Obligations → List PackedUserOperation
  | some ⟨_, _, some (p, true), _⟩ =>
    if p.info.mUserOp.sender = d.account then [p.item.op] else []
  | _ => []

def successes (d : Deployment) (s : System) : List Settlement :=
  (settlements s).filter fun e => decide (e.sender = d.account) && e.success

structure Reports (d : Deployment) (op : PackedUserOperation) (e : Settlement) : Prop where
  hash : e.userOpHash = hashOf d op
  nonce : e.nonce = op.nonce

def HasCallData (op : PackedUserOperation) : Bool := !op.callData.isEmpty

/-- A prefund was paid for an operation of the account, and it was not too much. -/
def PaysFor (d : Deployment) (p : Prepayment) (amount : ℕ) : Prop :=
  p.op.sender = d.account ∧ amount ≤ p.prefund

structure Authorised (d : Deployment) (s : System) (o : Option Obligations) : Prop where
  answered : ∀ p validationData, uncheckedOf o = some (p, validationData) →
    p.item.op.sender = d.account →
      validateSignature d.env d.config p.item.op (hashOf d p.item.op) = .ok validationData
  signed : ∀ p ∈ (prepayments s).drop (uncheckedOf o).toList.length,
    p.op.sender = d.account → OwnerSigned d p.op
  own : ∀ op ∈ ranOps s, op.sender = d.account
  inOrder : (ranOps s).Sublist (((prepayments s).drop (queued o)).map Prepayment.op)
  reported : ∃ ops, ranOps s = (acceptedOp d o ++ ops).filter HasCallData ∧
    List.Forall₂ (Reports d) ops (successes d s)
  spends : List.Forall₂ AsksFor (ranOps s) (accountedSpends s.account)
  prefunds : ∃ paid, paid.Sublist (prepayments s) ∧
    List.Forall₂ (PaysFor d) paid (prefundsPaid s.account)

variable {d : Deployment} {block : Block} {s s' : System} {o o' : Option Obligations}

structure SameRecord (s s' : System) : Prop where
  prepayments : prepayments s' = prepayments s
  settlements : settlements s' = settlements s
  ran : ranOps s' = ranOps s
  accounted : accountedSpends s'.account = accountedSpends s.account
  prefunds : prefundsPaid s'.account = prefundsPaid s.account

theorem Authorised.same (h : Authorised d s o) (hrecord : SameRecord s s')
    (hqueued : queued o' = queued o) (hunchecked : uncheckedOf o' = uncheckedOf o)
    (haccepted : acceptedOp d o' = acceptedOp d o) : Authorised d s' o' := by
  obtain ⟨hprepayments, hsettlements, hran, haccounted, hprefunds⟩ := hrecord
  refine ⟨?_, ?_, ?_, ?_, ?_, ?_, ?_⟩
  · rw [hunchecked]
    exact h.answered
  · rw [hprepayments, hunchecked]
    exact h.signed
  · rw [hran]
    exact h.own
  · rw [hran, hprepayments, hqueued]
    exact h.inOrder
  · rw [hran, haccepted, successes, hsettlements]
    exact h.reported
  · rw [hran, haccounted]
    exact h.spends
  · rw [hprefunds, hprepayments]
    exact h.prefunds

theorem validateUserOp_records {w w' : World} {op : PackedUserOperation}
    {userOpHash missingAccountFunds validationData : ℕ}
    (h : AccountMachine.validateUserOp d.env d.config block w d.entryPoint op userOpHash
      missingAccountFunds = .ok (validationData, w')) :
    validateSignature d.env d.config op userOpHash = .ok validationData ∧
      accountedSpends w' = accountedSpends w ∧
      (prefundsPaid w' = prefundsPaid w ∨
        prefundsPaid w' = missingAccountFunds :: prefundsPaid w) := by
  obtain ⟨_, storage, hpreflight, rfl⟩ := AccountRules.validateUserOp_eq_ok.mp h
  obtain ⟨_, _, _, hsignature, _⟩ := preflight_eq_ok.mp hpreflight
  refine ⟨hsignature, ?_, ?_⟩
  · unfold AccountMachine.payPrefund
    split_ifs <;> rfl
  · unfold AccountMachine.payPrefund
    split_ifs
    · exact .inr rfl
    · exact .inl rfl

theorem getRequiredPrefund_lt (mUserOp : MemoryUserOp) : getRequiredPrefund mUserOp < wordSize :=
  Nat.mod_lt _ (by decide)

theorem missingAccountFunds_le {info : UserOpInfo}
    (h : info.prefund = getRequiredPrefund info.mUserOp) :
    missingAccountFunds s info ≤ info.prefund := by
  have hlt := getRequiredPrefund_lt info.mUserOp
  unfold missingAccountFunds
  split_ifs with hpaymaster hbalance
  · exact Nat.zero_le _
  · rw [uncheckedSub_of_le (not_lt.mp hbalance) (h ▸ hlt)]
    exact Nat.sub_le _ _
  · exact Nat.zero_le _

theorem withPaid_account (now : ℕ) (s : System) (account : World) :
    (withPaid d now s account).account = account := by
  simp only [withPaid]
  split_ifs <;> rfl

theorem ranOps_withPaid (now : ℕ) (s : System) (account : World) :
    ranOps (withPaid d now s account) = ranOps s := by
  simp only [withPaid]
  split_ifs <;> rfl

/-- What the sender's answer adds to the record, before the prefund is taken. -/
structure Answered (d : Deployment) (s s' : System) (v : Validation) (validationData : ℕ) :
    Prop where
  prepayments : prepayments s' = prepayments s
  settlements : settlements s' = settlements s
  ran : ranOps s' = ranOps s
  accounted : accountedSpends s'.account = accountedSpends s.account
  signature : v.item.op.sender = d.account →
    validateSignature d.env d.config v.item.op (hashOf d v.item.op) = .ok validationData
  prefunds : prefundsPaid s'.account = prefundsPaid s.account ∨
    ∃ amount, PaysFor d ⟨v.item.op, v.info.payer, v.info.prefund⟩ amount ∧
      prefundsPaid s'.account = amount :: prefundsPaid s.account

theorem accepted_answered {v : Validation} {validationData : ℕ}
    (hprepared : Prepared d v.item.op v.info)
    (haccepted : Accepted d block s v validationData s') : Answered d s s' v validationData := by
  have hsender := (copyUserOpToMemory_copies hprepared.copied).1
  cases haccepted with
  | account hown hok =>
    obtain ⟨account, hvalidate, rfl⟩ := validateByAccount_eq_ok.mp hok
    obtain ⟨hsignature, haccounted, hprefunds⟩ := validateUserOp_records hvalidate
    rw [getUserOpHash_own (hsender.symm.trans hown) hprepared.hash] at hsignature
    refine ⟨prepayments_withPaid _ s account, settlements_withPaid _ s account,
      ranOps_withPaid _ s account, ?_, fun _ => hsignature, ?_⟩
    · rw [withPaid_account]
      exact haccounted
    · rw [withPaid_account]
      refine hprefunds.imp id fun hpaid => ⟨_, ⟨hsender.symm.trans hown, ?_⟩, hpaid⟩
      exact missingAccountFunds_le hprepared.prefund
  | other hother validationData =>
    exact ⟨rfl, rfl, rfl, rfl, fun hown => absurd (hsender.trans hown) hother, .inl rfl⟩

theorem signed_of_finished {v : Validation} {prepaid : Prepaid}
    {validationData paymasterValidationData contextLength : ℕ} (haggregator : v.aggregator ≠ 1)
    (hfinish : finishValidation block v validationData paymasterValidationData contextLength =
      .ok prepaid)
    (hsignature : validateSignature d.env d.config v.item.op (hashOf d v.item.op) =
      .ok validationData) : OwnerSigned d v.item.op := by
  unfold validateSignature at hsignature
  cases hrecover : d.env.recover (hashOf d v.item.op) v.item.op.signature with
  | none =>
    rw [hrecover] at hsignature
    cases hsignature
  | some recovered =>
    rw [hrecover] at hsignature
    obtain rfl := Except.ok.inj hsignature
    by_cases howner : recovered = d.config.vaultOwner
    · exact hrecover.trans (congrArg some howner)
    · -- the mark of a failed signature is no group's aggregator
      rw [if_neg howner] at hfinish
      simp only [finishValidation, validateAccountAndPaymasterValidationData,
        bind_returns] at hfinish
      obtain ⟨_, hchecked, _⟩ := hfinish
      have hfailed : (getValidationData block sigValidationFailed).1 = 1 := rfl
      rw [hfailed, if_pos haggregator] at hchecked
      cases hchecked

section Steps

variable {waiting : List Prepaid} {fees : ℕ} {p : Prepaid}

theorem drop_waiting {accepted : Bool}
    (h : Settled d s (some ⟨none, waiting, some (p, accepted), fees⟩)) :
    (prepayments s).drop waiting.length =
      Prepaid.prepayment p :: (prepayments s).drop (waiting.length + 1) := by
  obtain ⟨_, older, hprepayments, _⟩ := h
  rw [pending_running, List.map_cons, List.reverse_cons, List.append_assoc] at hprepayments
  have hlength : waiting.length = ((waiting.map Prepaid.prepayment).reverse).length := by
    rw [List.length_reverse, List.length_map]
  have hdrop : (prepayments s).drop waiting.length = Prepaid.prepayment p :: older := by
    rw [hprepayments, hlength, List.drop_left]
    rfl
  rw [← List.drop_drop, hdrop]
  rfl

theorem head_unchecked {validationData : ℕ}
    (h : Settled d s (some ⟨some (p, validationData), waiting, none, fees⟩)) :
    ∃ rest, prepayments s = Prepaid.prepayment p :: rest := by
  obtain ⟨_, older, hprepayments, _⟩ := h
  rw [pending_unchecked, List.map_append, List.reverse_append] at hprepayments
  exact ⟨_, hprepayments⟩

theorem prepared_running {accepted : Bool}
    (h : Settled d s (some ⟨none, waiting, some (p, accepted), fees⟩)) :
    Prepared d p.item.op p.info := by
  have hformed := h.formed p
  rw [pending_running] at hformed
  exact hformed List.mem_cons_self

theorem Authorised.prepaid {s₁ : System} {v : Validation} {validationData now : ℕ}
    (h : Authorised d s (some ⟨none, waiting, none, fees⟩))
    (hanswered : Answered d s s₁ v validationData) :
    Authorised d (charged now s₁ v)
      (some ⟨some (⟨v.item, v.info⟩, validationData), waiting, none, fees⟩) := by
  have hprepayments : prepayments (charged now s₁ v) =
      ⟨v.item.op, v.info.payer, v.info.prefund⟩ :: prepayments s :=
    congrArg (_ :: ·) hanswered.prepayments
  have hran : ranOps (charged now s₁ v) = ranOps s := hanswered.ran
  refine ⟨?_, ?_, ?_, ?_, ?_, ?_, ?_⟩
  · intro p data hunchecked
    obtain ⟨rfl, rfl⟩ := Prod.mk.inj (Option.some.inj hunchecked)
    exact hanswered.signature
  · rw [hprepayments]
    exact h.signed
  · rw [hran]
    exact h.own
  · rw [hran, hprepayments]
    exact h.inOrder
  · have hsuccesses : successes d (charged now s₁ v) = successes d s :=
      congrArg (List.filter _) hanswered.settlements
    rw [hran, hsuccesses]
    exact h.reported
  · rw [hran]
    exact hanswered.accounted ▸ h.spends
  · obtain ⟨paid, hpaid, hall⟩ := h.prefunds
    rw [hprepayments]
    rcases hanswered.prefunds with hsame | ⟨amount, hpays, hmore⟩
    · exact ⟨paid, hpaid.cons _, hsame ▸ hall⟩
    · exact ⟨_ :: paid, hpaid.cons_cons _, hmore ▸ .cons hpays hall⟩

theorem Authorised.checked {v : Validation} {prepaid : Prepaid}
    {validationData paymasterValidationData contextLength : ℕ}
    (hsettled : Settled d s (some ⟨some (⟨v.item, v.info⟩, validationData), waiting, none, fees⟩))
    (h : Authorised d s (some ⟨some (⟨v.item, v.info⟩, validationData), waiting, none, fees⟩))
    (haggregator : v.aggregator ≠ 1)
    (hfinish : finishValidation block v validationData paymasterValidationData contextLength =
      .ok prepaid) :
    Authorised d s (some ⟨none, waiting ++ [prepaid], none, fees⟩) := by
  obtain ⟨rest, hrest⟩ := head_unchecked hsettled
  have hsigned := h.signed
  have hinOrder := h.inOrder
  rw [hrest] at hsigned
  refine ⟨fun _ _ hunchecked => (nomatch hunchecked), ?_, h.own, ?_, h.reported, h.spends,
    h.prefunds⟩
  · intro p hmem hown
    rw [hrest] at hmem
    rcases List.mem_cons.mp hmem with rfl | hmem
    · have hanswered := h.answered ⟨v.item, v.info⟩ validationData rfl hown
      exact signed_of_finished haggregator hfinish hanswered
    · exact hsigned p hmem hown
  · have hqueued : queued (some ⟨none, waiting ++ [prepaid], none, fees⟩) = waiting.length + 1 :=
      congrArg (· + 0 + 0) List.length_append
    rw [hqueued]
    exact hinOrder

theorem Authorised.advance (h : Authorised d s o) (hqueued : queued o' ≤ queued o)
    (hunchecked : uncheckedOf o' = uncheckedOf o)
    (hreported : ∃ ops, ranOps s = (acceptedOp d o' ++ ops).filter HasCallData ∧
      List.Forall₂ (Reports d) ops (successes d s)) : Authorised d s o' := by
  refine ⟨?_, ?_, h.own, ?_, hreported, h.spends, h.prefunds⟩
  · rw [hunchecked]
    exact h.answered
  · rw [hunchecked]
    exact h.signed
  · exact h.inOrder.trans ((List.drop_sublist_drop_left _ hqueued).map _)

theorem Authorised.returned (h : Authorised d s (some ⟨none, waiting, some (p, false), fees⟩))
    (hcallData : p.item.op.callData = [] ∨ p.info.mUserOp.sender ≠ d.account) :
    Authorised d s (some ⟨none, waiting, some (p, true), fees⟩) := by
  refine h.advance (Nat.le_succ _) rfl ?_
  obtain ⟨ops, hran, hreports⟩ := h.reported
  refine ⟨ops, hran.trans ?_, hreports⟩
  rcases hcallData with hempty | hsender
  · by_cases hown : p.info.mUserOp.sender = d.account
    · simp [acceptedOp, hown, HasCallData, hempty]
    · simp [acceptedOp, hown]
  · simp [acceptedOp, hsender]

theorem hasCallData_of_decode {op : PackedUserOperation} {call : SpendCall}
    (h : decodeSpendCall op.callData = .ok call) : HasCallData op = true := by
  unfold HasCallData
  cases hempty : op.callData with
  | nil =>
    rw [hempty] at h
    cases h
  | cons byte bytes => rfl

theorem Authorised.ran {call : SpendCall} {now : ℕ} {account : World}
    {calls calls' : List AccountMachine.Pending}
    (hsettled : Settled d s (some ⟨none, waiting, some (p, false), fees⟩))
    (h : Authorised d s (some ⟨none, waiting, some (p, false), fees⟩))
    (hsender : p.info.mUserOp.sender = d.account)
    (hdecode : decodeSpendCall p.item.op.callData = .ok call)
    (hleft : left calls (AccountMachine.enter d.env d.config block s.account
      (FailedOperations.dispatched d.config call)) = some (account, calls')) :
    Authorised d { emitted s now [.accountRan p.item.op] with account := account }
      (some ⟨none, waiting, some (p, true), fees⟩) := by
  obtain ⟨eth, hspend, haccounted, hprefunds⟩ := left_of_keeps (fun w' _ => ∃ eth,
    call.spend = .ok (eth, 0) ∧ accountedSpends w' = (eth, 0) :: accountedSpends s.account ∧
      prefundsPaid w' = prefundsPaid s.account) (enter_dispatched call) hleft
  have hcopied := (prepared_running hsettled).copied
  have hinOrder := h.inOrder
  refine ⟨h.answered, h.signed, ?_, ?_, ?_, ?_, ?_⟩
  · intro op hmem
    rcases List.mem_cons.mp hmem with rfl | hmem
    · exact (copyUserOpToMemory_copies hcopied).1.symm.trans hsender
    · exact h.own op hmem
  · change (p.item.op :: ranOps s).Sublist (((prepayments s).drop waiting.length).map Prepayment.op)
    rw [drop_waiting hsettled]
    exact hinOrder.cons_cons p.item.op
  · obtain ⟨ops, hran, hreports⟩ := h.reported
    refine ⟨ops, ?_, hreports⟩
    change p.item.op :: ranOps s = _
    rw [acceptedOp, if_pos hsender, hran, List.singleton_append,
      List.filter_cons_of_pos (hasCallData_of_decode hdecode)]
    rfl
  · change List.Forall₂ AsksFor (p.item.op :: ranOps s) (accountedSpends account)
    rw [haccounted]
    exact .cons ⟨call, hdecode, hspend⟩ h.spends
  · change ∃ paid, paid.Sublist (prepayments s) ∧
      List.Forall₂ (PaysFor d) paid (prefundsPaid account)
    rw [hprefunds]
    exact h.prefunds

theorem Authorised.settle {accepted : Bool} {cost gas fees' : ℕ}
    (hsettled : Settled d s (some ⟨none, waiting, some (p, accepted), fees⟩))
    (h : Authorised d s (some ⟨none, waiting, some (p, accepted), fees⟩))
    (hprepayments : prepayments s' = prepayments s)
    (hsettlements : settlements s' = ⟨p.info.userOpHash, p.info.mUserOp.sender,
      p.info.mUserOp.paymaster, p.info.mUserOp.nonce, accepted, cost, gas⟩ :: settlements s)
    (hran : ranOps s' = ranOps s) (haccount : s'.account = s.account) :
    Authorised d s' (some ⟨none, waiting, none, fees'⟩) := by
  have hprepared := prepared_running hsettled
  obtain ⟨hsender, hnonce⟩ := copyUserOpToMemory_copies hprepared.copied
  refine ⟨h.answered, ?_, ?_, ?_, ?_, ?_, ?_⟩
  · rw [hprepayments]
    exact h.signed
  · rw [hran]
    exact h.own
  · rw [hran, hprepayments]
    apply h.inOrder.trans
    exact (List.drop_sublist_drop_left _ (Nat.le_add_right waiting.length _)).map _
  · obtain ⟨ops, hops, hreports⟩ := h.reported
    rw [hran, hops, successes, hsettlements]
    cases accepted with
    | false =>
      refine ⟨ops, rfl, ?_⟩
      rw [List.filter_cons_of_neg (by simp)]
      exact hreports
    | true =>
      by_cases hown : p.info.mUserOp.sender = d.account
      · refine ⟨p.item.op :: ops, ?_, ?_⟩
        · rw [acceptedOp, if_pos hown]
          rfl
        · rw [List.filter_cons_of_pos (by simp [hown])]
          exact .cons ⟨getUserOpHash_own (hsender.symm.trans hown) hprepared.hash, hnonce⟩ hreports
      · refine ⟨ops, ?_, ?_⟩
        · rw [acceptedOp, if_neg hown]
          rfl
        · rw [List.filter_cons_of_neg (by simp [hown])]
          exact hreports
  · rw [hran, haccount]
    exact h.spends
  · rw [haccount, hprepayments]
    exact h.prefunds

end Steps

theorem unsealed_record {account : World} {now : ℕ} (h : Unsealed now s.account account) :
    SameRecord s { s with account := account } := ⟨rfl, rfl, rfl, h.accounted, h.prefunds⟩

theorem authorised_closed : Closed d fun _ s o _ => Settled d s o ∧ Authorised d s o where
  advance := fun _ _ _ _ h => h
  effect := by
    intro block s o calls s' o' calls' h heffect
    obtain ⟨hsettled, h⟩ := h
    refine ⟨settled_closed.effect block s o calls s' o' calls' hsettled heffect, ?_⟩
    cases heffect with
    | stakeAdded sender unstakeDelaySec amount hfits hok =>
      obtain ⟨_, _, _, _, _, rfl⟩ := addStake_eq_ok.mp hok
      exact h.same ⟨rfl, rfl, rfl, rfl, rfl⟩ rfl rfl rfl
    | stakeUnlocked sender hok =>
      obtain ⟨_, _, _, rfl⟩ := unlockStake_eq_ok.mp hok
      exact h.same ⟨rfl, rfl, rfl, rfl, rfl⟩ rfl rfl rfl
    | stakeWithdrawn sender withdrawAddress hok =>
      obtain ⟨_, _, _, _, rfl⟩ := withdrawStake_eq_ok.mp hok
      exact h.same ⟨rfl, rfl, rfl, rfl, rfl⟩ rfl rfl rfl
    | withdrawn sender withdrawAddress amount hsender hok =>
      obtain ⟨_, _, rfl⟩ := withdrawTo_eq_ok.mp hok
      exact h.same ⟨rfl, rfl, rfl, rfl, rfl⟩ rfl rfl rfl
    | nonceSkipped sender key hsender hok =>
      obtain ⟨_, rfl⟩ := incrementNonce_eq_ok.mp hok
      exact h.same ⟨rfl, rfl, rfl, rfl, rfl⟩ rfl rfl rfl
    | accountCalled input hcaller hfits hleft =>
      have hunsealed := left_of_keeps (fun w' _ => Unsealed block.timestamp s.account w')
        (enter_unsealed hcaller) hleft
      exact h.same (unsealed_record hunsealed) rfl rfl rfl
    | accountResumed pending ok hleft =>
      have hunsealed := left_of_keeps (fun w' _ => Unsealed block.timestamp s.account w')
        (resume_unsealed d.env d.config pending ok) hleft
      exact h.same (unsealed_record hunsealed) rfl rfl rfl
    | remarked e hremark =>
      cases e <;> first | exact hremark.elim | exact h.same ⟨rfl, rfl, rfl, rfl, rfl⟩ rfl rfl rfl
    | prepaid v hprepared haccepted hcharge =>
      obtain ⟨_, _, _, rfl⟩ := charge_eq_ok.mp hcharge
      exact h.prepaid (accepted_answered hprepared haccepted)
    | checked v haggregator hfinish => exact h.checked hsettled haggregator hfinish
    | started => exact h.advance (Nat.le_refl _) rfl h.reported
    | returned hcallData => exact h.returned hcallData
    | ran call hsender hdecode hleft => exact h.ran hsettled hsender hdecode hleft
    | refunded accepted cost gas hcost => exact h.settle hsettled rfl rfl rfl rfl
    | kept gas => exact h.settle hsettled rfl rfl rfl rfl
    | _ => exact h.same ⟨rfl, rfl, rfl, rfl, rfl⟩ rfl rfl rfl

variable {labels : List (Label Block (Input d))} {m : Machine Block System Pending}

theorem run_authorised (hrun : Run d block labels m) :
    Authorised d m.world (openObligations m) := by
  refine (run_agrees authorised_closed (fun _ _ _ _ _ => ⟨?_, ?_⟩) hrun).holds.2.2
  · exact ⟨fun _ hmem => (nomatch hmem), inOrder_nil _⟩
  · exact ⟨fun _ _ h => (nomatch h), fun _ hmem => (nomatch hmem), fun _ hmem => (nomatch hmem),
      List.nil_sublist _, ⟨[], rfl, .nil⟩, .nil, [], List.nil_sublist _, .nil⟩

theorem unchecked_le_queued (o : Option Obligations) :
    (uncheckedOf o).toList.length ≤ queued o := by
  cases o with
  | none => exact Nat.le_refl 0
  | some o => exact Nat.le_add_left _ _

theorem Authorised.signed_of_run (h : Authorised d s o) {p : Prepayment}
    (hmem : p ∈ (prepayments s).drop (queued o)) (hown : p.op.sender = d.account) :
    OwnerSigned d p.op :=
  h.signed p ((List.drop_sublist_drop_left _ (unchecked_le_queued o)).mem hmem) hown

theorem Authorised.ranOps_sublist (h : Authorised d s o) :
    (ranOps s).Sublist ((prepayments s).map Prepayment.op) :=
  h.inOrder.trans ((List.drop_sublist _ _).map _)

theorem Authorised.ranOps_signed (h : Authorised d s o) :
    ∀ op ∈ ranOps s, op.sender = d.account ∧ OwnerSigned d op := by
  intro op hmem
  obtain ⟨p, hp, rfl⟩ := List.mem_map.mp (h.inOrder.mem hmem)
  exact ⟨h.own _ hmem, h.signed_of_run hp (h.own _ hmem)⟩

theorem nonces_nodup (hrun : Run d block labels m) {ops : List PackedUserOperation}
    (hops : ops.Sublist ((prepayments m.world).map Prepayment.op))
    (hown : ∀ op ∈ ops, op.sender = d.account) :
    (ops.map PackedUserOperation.nonce).Nodup := by
  have hnodup : (senderNonces m.world).Nodup := (run_counted hrun).numbered.nodup.of_map numberOf
  have hpairs : senderNonces m.world = ((prepayments m.world).map Prepayment.op).map
      fun op => (op.sender, op.nonce) := by
    rw [List.map_map]
    rfl
  have hsame : ops.map (fun op => (op.sender, op.nonce)) =
      (ops.map PackedUserOperation.nonce).map (Prod.mk d.account) := by
    rw [List.map_map]
    apply List.map_congr_left
    intro op hmem
    rw [hown op hmem]
    rfl
  rw [hpairs] at hnodup
  have hops' := hnodup.sublist (hops.map _)
  rw [hsame] at hops'
  exact hops'.of_map _

/-- In every state of every run, under any environment, each spend that the account has
    accounted for was asked for by the callData of an operation of the account that the
    vault owner signed; in the order of their validation, each operation with a nonce of
    its own. -/
theorem spends_authorised (hrun : Run d block labels m) :
    ∃ ops, List.Forall₂ AsksFor ops (accountedSpends m.world.account) ∧
      (∀ op ∈ ops, op.sender = d.account ∧ OwnerSigned d op) ∧
      ops.Sublist ((prepayments m.world).map Prepayment.op) ∧
      (ops.map PackedUserOperation.nonce).Nodup := by
  have h := run_authorised hrun
  have hsublist := h.ranOps_sublist
  exact ⟨ranOps m.world, h.spends, h.ranOps_signed, hsublist, nonces_nodup hrun hsublist h.own⟩

theorem spends_authorised_twice : ∃ m, Run testDeployment (blockAt 1000 testTime_lt)
    (paymentBundle 0 ++ paymentBundle 1) m ∧
      accountedSpends m.world.account = [(ether / 10, 0), (ether / 10, 0)] ∧
      ∃ ops, List.Forall₂ AsksFor ops [(ether / 10, 0), (ether / 10, 0)] ∧
        (∀ op ∈ ops, op.sender = 0x707 ∧ OwnerSigned testDeployment op) ∧
        (ops.map PackedUserOperation.nonce).Nodup := by
  have hrun : (run (entryPoint testDeployment) testStart (paymentBundle 0 ++ paymentBundle 1)).map
      (fun m => accountedSpends m.world.account) =
        some [(ether / 10, 0), (ether / 10, 0)] := by
    decide +kernel
  obtain ⟨m, hm, hspends⟩ := Run.of_map (by decide +kernel) hrun
  obtain ⟨ops, hasks, hsigned, _, hnonces⟩ := spends_authorised hm
  rw [hspends] at hasks
  exact ⟨m, hm, hspends, ops, hasks, hsigned, hnonces⟩

/-- Between transactions the `UserOperationEvent`s of the account that report a success are
    those of its accounted spends, in order, apart from operations without callData; an
    event that reports a failure stands for no spend at all. -/
theorem successes_report_spends (hrun : Run d block labels m) (hstack : m.stack = []) :
    ∃ ops, List.Forall₂ (Reports d) ops (successes d m.world) ∧
      List.Forall₂ AsksFor (ops.filter HasCallData) (accountedSpends m.world.account) ∧
      (accountedSpends m.world.account).length ≤ (successes d m.world).length := by
  have hnone : openObligations m = none := by
    rw [openObligations, hstack]
    rfl
  have h := run_authorised hrun
  rw [hnone] at h
  obtain ⟨ops, hran, hreports⟩ := h.reported
  have hspends := h.spends
  rw [hran] at hspends
  refine ⟨ops, hreports, hspends, ?_⟩
  calc (accountedSpends m.world.account).length
    _ = (ops.filter HasCallData).length := hspends.length_eq.symm
    _ ≤ ops.length := List.length_filter_le _ _
    _ = (successes d m.world).length := hreports.length_eq

theorem successes_report_spends_refused : ∃ m, Run testDeployment (blockAt 1000 testTime_lt)
    (paymentBundle 0 ++ [.call (.handleOps [paymentItem 1] 0xb11), .answer false, .answer true]) m ∧
      (settlements m.world).map Settlement.success = [false, true] ∧
      ∃ ops, List.Forall₂ (Reports testDeployment) ops (successes testDeployment m.world) ∧
        List.Forall₂ AsksFor (ops.filter HasCallData) [(ether / 10, 0)] := by
  have hrun : (run (entryPoint testDeployment) testStart (paymentBundle 0 ++
      [.call (.handleOps [paymentItem 1] 0xb11), .answer false, .answer true])).map (fun m =>
        (m.stack.length, (settlements m.world).map Settlement.success,
          accountedSpends m.world.account)) = some (0, [false, true], [(ether / 10, 0)]) := by
    decide +kernel
  obtain ⟨m, hm, hfound⟩ := Run.of_map (by decide +kernel) hrun
  obtain ⟨hstack, hfound⟩ := Prod.mk.inj hfound
  obtain ⟨hsuccess, hspends⟩ := Prod.mk.inj hfound
  obtain ⟨ops, hreports, hasks, _⟩ :=
    successes_report_spends hm (List.length_eq_zero_iff.mp hstack)
  rw [hspends] at hasks
  exact ⟨m, hm, hsuccess, ops, hreports, hasks⟩

/-- Between transactions every operation of the account that has been paid for, by
    whomever, and every `UserOperationEvent` in its name is one that the owner signed; and
    each prefund that the account itself has sent was for another one of these operations,
    and no more than that operation requires. -/
theorem gas_authorised (hrun : Run d block labels m) (hstack : m.stack = []) :
    (∀ p ∈ prepayments m.world, p.op.sender = d.account → OwnerSigned d p.op) ∧
      (∀ e ∈ settlements m.world, e.sender = d.account → ∃ op, op.sender = d.account ∧
        OwnerSigned d op ∧ e.userOpHash = hashOf d op ∧ e.nonce = op.nonce) ∧
      ∃ paid : List Prepayment, paid.Sublist (prepayments m.world) ∧
        List.Forall₂ (PaysFor d) paid (prefundsPaid m.world.account) ∧
        (∀ p ∈ paid, OwnerSigned d p.op ∧ ∃ mUserOp, copyUserOpToMemory p.op = .ok mUserOp ∧
          p.prefund = getRequiredPrefund mUserOp) ∧
        (paid.map fun p => p.op.nonce).Nodup := by
  have hnone : openObligations m = none := by
    rw [openObligations, hstack]
    rfl
  obtain ⟨_, hsigned, _, _, _, _, paid, hpaid, hall⟩ := run_authorised hrun
  obtain ⟨_, hinOrder⟩ := run_settled hrun
  rw [hnone] at hsigned hinOrder
  refine ⟨hsigned, ?_, paid, hpaid, hall, ?_, ?_⟩
  · intro e hmem hown
    obtain ⟨p, hp, hsettles⟩ := exists_entered hinOrder.drained hmem
    have hsender := hsettles.sender.symm.trans hown
    exact ⟨p.op, hsender, hsigned p hp hsender, getUserOpHash_own hsender hsettles.hash,
      hsettles.nonce⟩
  · intro p hmem
    obtain ⟨amount, _, hpays⟩ := exists_entered hall.flip hmem
    obtain ⟨e, _, hsettles⟩ := exists_entered hinOrder.drained.flip (hpaid.mem hmem)
    obtain ⟨mUserOp, hcopy, _, hprefund⟩ := hsettles.memory
    exact ⟨hsigned p (hpaid.mem hmem) hpays.1, mUserOp, hcopy, hprefund⟩
  · have hnonces := nonces_nodup hrun (hpaid.map Prepayment.op) (by
      intro op hmem
      obtain ⟨p, hp, rfl⟩ := List.mem_map.mp hmem
      obtain ⟨amount, _, hpays⟩ := exists_entered hall.flip hp
      exact hpays.1)
    rwa [List.map_map] at hnonces

theorem gas_authorised_twice : ∃ m, Run testDeployment (blockAt 1000 testTime_lt)
    (paymentBundle 0 ++ paymentBundle 1) m ∧
      prefundsPaid m.world.account = [165000 * 10 ^ 9, 210000 * 10 ^ 9] ∧
      ∃ paid : List Prepayment, paid.Sublist (prepayments m.world) ∧
        List.Forall₂ (PaysFor testDeployment) paid [165000 * 10 ^ 9, 210000 * 10 ^ 9] ∧
        (∀ p ∈ paid, OwnerSigned testDeployment p.op) ∧ (paid.map fun p => p.op.nonce).Nodup := by
  have hrun : (run (entryPoint testDeployment) testStart (paymentBundle 0 ++ paymentBundle 1)).map
      (fun m => (m.stack.length, prefundsPaid m.world.account)) =
        some (0, [165000 * 10 ^ 9, 210000 * 10 ^ 9]) := by
    decide +kernel
  obtain ⟨m, hm, hfound⟩ := Run.of_map (by decide +kernel) hrun
  obtain ⟨hstack, hprefunds⟩ := Prod.mk.inj hfound
  obtain ⟨_, _, paid, hsublist, hpaid, hsigned, hnonces⟩ :=
    gas_authorised hm (List.length_eq_zero_iff.mp hstack)
  rw [hprefunds] at hpaid
  exact ⟨m, hm, hprefunds, paid, hsublist, hpaid, fun p hmem => (hsigned p hmem).1, hnonces⟩

end BoundedSpending.AuthorisedOperations
