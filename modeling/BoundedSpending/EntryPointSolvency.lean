import BoundedSpending.EntryPointRules
import BoundedSpending.AccountRules
import BoundedSpending.Holdings

set_option autoImplicit false

namespace BoundedSpending.EntryPointSolvency

open CheckedArithmetic UserOperations Preflight NestedCalls Holdings AccountRules
open EntryPointState StakeManager BundleHandler EntryPointMachine EntryPointEffects EntryPointRules

def holding (s : System) (a : Address) : ℕ := (s.deposits a).deposit + (s.deposits a).stake

def prefunds (prepaid : List Prepaid) : ℕ := (prepaid.map fun p => p.info.prefund).sum

/-- What the bundle in progress holds: prefunds of operations under way, and fees. -/
def Obligations.due (o : Obligations) : ℕ :=
  prefunds (o.unchecked.map Prod.fst).toList + prefunds o.waiting +
    prefunds (o.running.map Prod.fst).toList + o.collected

def due (o : Option Obligations) : ℕ := (o.map Obligations.due).getD 0

def openObligations (m : Machine Block System Pending) : Option Obligations :=
  ((m.stack.map Frame.pending).filterMap obligations).head?

/-- All the ether in view is less than there can be. -/
def Supplied (s : System) : Prop := s.balance + s.account.balance < wordSize

structure Solvent (block : Block) (s : System) (o : Option Obligations) : Prop where
  covered : Covered (holding s) (due o) s.balance
  supplied : Supplied s

variable {env : Env} {cfg : Config} {block : Block} {w w' : World}
  {ks : List AccountMachine.Pending}

theorem doCalls_balance (now : ℕ) (w : World) (calls : List Call) :
    (AccountMachine.doCalls now w calls).Keeps (fun w' _ => w'.balance ≤ w.balance) ks := by
  apply keeps_doCalls
  · intro _
    exact Nat.le_refl _
  · intro call rest _ _
    exact Nat.sub_le _ _

theorem withdrawUsdcPart_balance (now : ℕ) (w : World) (recipient ethAmount : ℕ) :
    (AccountMachine.withdrawUsdcPart env now w recipient ethAmount).Keeps
      (fun w' _ => w'.balance ≤ w.balance) ks := by
  apply keeps_withdrawUsdcPart
  · exact Nat.le_refl _
  · exact Nat.le_refl _

theorem payPrefund_balance (now : ℕ) (w : World) (missingAccountFunds : ℕ) :
    (AccountMachine.payPrefund now w missingAccountFunds).balance ≤ w.balance := by
  unfold AccountMachine.payPrefund
  split_ifs
  · exact Nat.sub_le _ _
  · exact Nat.le_refl _

theorem enter_balance (input : AccountMachine.Input)
    (hreceive : ∀ amount, input ≠ .receive amount) :
    ((AccountMachine.account env cfg).enter block w input).Keeps
      (fun w' _ => w'.balance ≤ w.balance) ks := by
  cases input with
  | receive amount => exact absurd rfl (hreceive amount)
  | validateUserOp sender op userOpHash missingAccountFunds =>
    apply keeps_validateUserOp
    intro validationData s _ _
    exact payPrefund_balance block.timestamp _ missingAccountFunds
  | execute sender call =>
    apply keeps_spendAndCall
    intro s events _ _
    exact doCalls_balance block.timestamp _ _
  | executeBatch sender calls =>
    apply keeps_spendAndCall
    intro s events _ _
    exact doCalls_balance block.timestamp _ _
  | payForGasInUsdc sender gasLeft amount =>
    apply keeps_payForGasInUsdc
    intro s events _ _
    exact Nat.le_refl _
  | requestEmergencyWithdraw sender =>
    apply keeps_requestEmergencyWithdraw
    intro _
    exact Nat.le_refl _
  | emergencyWithdraw sender recipient =>
    apply keeps_emergencyWithdraw
    · intro _ _
      exact Nat.zero_le _
    · intro _
      exact withdrawUsdcPart_balance block.timestamp _ recipient 0
  | addDeposit amount => exact Nat.le_refl _
  | receiveUsdc amount => exact Nat.le_refl _
  | «foreign» => exact Nat.le_refl _

theorem transferUsdc_balance {now amount : ℕ}
    (h : AccountMachine.transferUsdc env now w amount = some w') : w'.balance = w.balance := by
  unfold AccountMachine.transferUsdc at h
  split_ifs at h
  · obtain rfl := Option.some.inj h
    rfl
  · obtain rfl := Option.some.inj h
    rfl

theorem resume_balance (cfg : Config) (k : AccountMachine.Pending) (ok : Bool) :
    ((AccountMachine.account env cfg).resume block w k ok).Keeps
      (fun w' _ => w'.balance ≤ w.balance) ks := by
  apply keeps_resume
  cases k with
  | calls call rest =>
    simp only [AccountMachine.account, AccountMachine.resume]
    split_ifs with htarget
    · cases ht : AccountMachine.transferUsdc env block.timestamp w
          (AccountMachine.transferAmount call.data) with
      | none => trivial
      | some v =>
        rw [← transferUsdc_balance ht]
        exact doCalls_balance block.timestamp v rest
    · exact doCalls_balance block.timestamp w rest
  | gasPayment amount =>
    apply keeps_gasPayment
    intro v ht
    exact (transferUsdc_balance ht).le
  | withdrawEth recipient ethAmount =>
    exact withdrawUsdcPart_balance block.timestamp w recipient ethAmount
  | withdrawUsdc recipient ethAmount usdcAmount =>
    apply keeps_withdrawUsdc
    intro _
    exact Nat.le_refl _
  | «foreign» => exact Nat.le_refl _

theorem left_enter_balance {input : AccountMachine.Input}
    {calls calls' : List AccountMachine.Pending}
    (hleft : left calls (AccountMachine.enter env cfg block w input) = some (w', calls'))
    (hreceive : ∀ amount, input ≠ .receive amount) : w'.balance ≤ w.balance :=
  left_of_keeps (fun v _ => v.balance ≤ w.balance) (enter_balance input hreceive) hleft

theorem left_resume_balance (cfg : Config) {k : AccountMachine.Pending} {ok : Bool}
    {calls calls' : List AccountMachine.Pending}
    (hleft : left calls (AccountMachine.resume env block w k ok) = some (w', calls')) :
    w'.balance ≤ w.balance :=
  left_of_keeps (fun v _ => v.balance ≤ w.balance) (resume_balance cfg k ok) hleft

variable {d : Deployment} {s s' : System} {o o' : Option Obligations} {now amount : ℕ}

theorem holding_setInfo (s : System) (a : Address) (info : DepositInfo) :
    holding (setInfo s a info) = Function.update (holding s) a (info.deposit + info.stake) := by
  funext b
  by_cases hb : b = a
  · subst hb
    simp only [holding, setInfo, Function.update_self]
  · simp only [holding, setInfo, Function.update_of_ne hb]

theorem uncheckedAdd_le (a b : ℕ) : uncheckedAdd a b ≤ a + b := Nat.mod_le _ _

theorem covered_depositTo {held : ℕ} (h : Covered (holding s) held s.balance) (a : Address)
    (now amount : ℕ) :
    Covered (holding (depositTo now s a amount)) held (s.balance + amount) := by
  have hle := uncheckedAdd_le (s.deposits a).deposit amount
  change Covered (holding (setInfo { s with balance := s.balance + amount } a _)) held _
  rw [holding_setInfo]
  apply Covered.credit h
  change uncheckedAdd (s.deposits a).deposit amount + (s.deposits a).stake ≤
    (s.deposits a).deposit + (s.deposits a).stake + amount
  omega

theorem solvent_withPaid {account : World} (h : Solvent block s o)
    (hle : account.balance ≤ s.account.balance) :
    Solvent block (withPaid d now s account) o := by
  have hsupplied := h.supplied
  unfold Supplied at hsupplied
  simp only [withPaid]
  split_ifs with hpaid
  · refine ⟨covered_depositTo h.covered d.account now _, ?_⟩
    change s.balance + (s.account.balance - account.balance) + account.balance < wordSize
    omega
  · refine ⟨h.covered, ?_⟩
    change s.balance + account.balance < wordSize
    omega

theorem accepted_solvent {v : Validation} {validationData : ℕ}
    (haccepted : Accepted d block s v validationData s') (h : Solvent block s o) :
    Solvent block s' o := by
  cases haccepted with
  | account hsender hok =>
    obtain ⟨account, hvalidate, rfl⟩ := validateByAccount_eq_ok.mp hok
    obtain ⟨_, storage, _, rfl⟩ := validateUserOp_eq_ok.mp hvalidate
    exact solvent_withPaid h (payPrefund_balance block.timestamp _ _)
  | other hsender validationData => exact h

section Dues

variable {p : Prepaid} {waiting : List Prepaid} {collected validationData : ℕ}

theorem due_waiting :
    due (some ⟨none, waiting, none, collected⟩) = prefunds waiting + collected := by
  simp [due, Obligations.due, prefunds]

theorem due_unchecked : due (some ⟨some (p, validationData), waiting, none, collected⟩) =
    prefunds waiting + collected + p.info.prefund := by
  simp [due, Obligations.due, prefunds]
  omega

theorem due_running (accepted : Bool) :
    due (some ⟨none, waiting, some (p, accepted), collected⟩) =
    prefunds waiting + collected + p.info.prefund := by
  simp [due, Obligations.due, prefunds]
  omega

theorem due_collected (cost : ℕ) :
    due (some ⟨none, waiting, none, uncheckedAdd collected cost⟩) ≤
      prefunds waiting + collected + cost := by
  rw [due_waiting, Nat.add_assoc]
  exact Nat.add_le_add_left (uncheckedAdd_le collected cost) _

theorem prefunds_cons (p : Prepaid) (xs : List Prepaid) :
    prefunds (p :: xs) = p.info.prefund + prefunds xs := rfl

end Dues

theorem prefunds_append (xs : List Prepaid) (p : Prepaid) :
    prefunds (xs ++ [p]) = prefunds xs + p.info.prefund := by
  rw [prefunds, List.map_append, List.sum_append, List.map_singleton, List.sum_singleton]
  rfl

theorem finishValidation_prefund {v : Validation} {prepaid : Prepaid}
    {validationData paymasterValidationData contextLength : ℕ}
    (h : finishValidation block v validationData paymasterValidationData contextLength =
      .ok prepaid) : prepaid.item = v.item ∧ prepaid.info.prefund = v.info.prefund ∧
        prepaid.info.mUserOp = v.info.mUserOp ∧ prepaid.info.userOpHash = v.info.userOpHash := by
  simp only [finishValidation, bind_returns, pure_returns] at h
  obtain ⟨_, _, rfl⟩ := h
  exact ⟨rfl, rfl, rfl, rfl⟩

theorem covered_charged {held : ℕ} {v : Validation} (h : Covered (holding s) held s.balance)
    (hle : v.info.prefund ≤ (s.deposits v.info.payer).deposit) :
    Covered (holding (charged now s v)) (held + v.info.prefund) s.balance := by
  change Covered (holding (setInfo s v.info.payer _)) _ _
  rw [holding_setInfo]
  apply Covered.reserve h
  change (s.deposits v.info.payer).deposit - v.info.prefund + (s.deposits v.info.payer).stake +
    v.info.prefund ≤ (s.deposits v.info.payer).deposit + (s.deposits v.info.payer).stake
  omega

theorem covered_refunded {held cost gas : ℕ} {success : Bool} {info : UserOpInfo}
    (h : Covered (holding s) (held + info.prefund) s.balance) (hcost : cost ≤ info.prefund) :
    Covered (holding (refundPrefund now s info success cost gas)) (held + cost) s.balance := by
  have hle := uncheckedAdd_le (s.deposits info.payer).deposit (info.prefund - cost)
  change Covered (holding (setInfo s info.payer _)) _ _
  rw [holding_setInfo]
  apply Covered.refund (n := info.prefund - cost)
  · exact h.mono (by omega)
  · change uncheckedAdd (s.deposits info.payer).deposit (info.prefund - cost) +
      (s.deposits info.payer).stake ≤ (s.deposits info.payer).deposit +
        (s.deposits info.payer).stake + (info.prefund - cost)
    omega

theorem solvent_closed : Closed d fun block s o _ => Solvent block s o where
  advance := fun _ _ _ _ h => ⟨h.covered, h.supplied⟩
  effect := by
    intro block s o calls s' o' calls' h heffect
    have hcovered := h.covered
    have hsupplied := h.supplied
    unfold Supplied at hsupplied
    cases heffect with
    | forced amount hfits =>
      refine ⟨hcovered.mono ?_, ?_⟩
      · change due o + s.balance ≤ due o + (s.balance + amount)
        omega
      · unfold Fits at hfits
        change s.balance + amount + s.account.balance < wordSize
        omega
    | recoded account code hne => exact ⟨hcovered, hsupplied⟩
    | deposited account amount hfits =>
      refine ⟨covered_depositTo hcovered account block.timestamp amount, ?_⟩
      unfold Fits at hfits
      change s.balance + amount + s.account.balance < wordSize
      omega
    | stakeAdded sender unstakeDelaySec amount hfits hok =>
      obtain ⟨_, _, _, _, _, rfl⟩ := addStake_eq_ok.mp hok
      refine ⟨?_, ?_⟩
      · change Covered (holding (setInfo { s with balance := s.balance + amount } sender _)) _
          (s.balance + amount)
        rw [holding_setInfo]
        apply Covered.credit hcovered
        change (s.deposits sender).deposit + ((s.deposits sender).stake + amount) ≤
          holding s sender + amount
        exact (Nat.add_assoc _ _ _).ge
      · unfold Fits at hfits
        change s.balance + amount + s.account.balance < wordSize
        omega
    | stakeUnlocked sender hok =>
      obtain ⟨_, _, _, rfl⟩ := unlockStake_eq_ok.mp hok
      refine ⟨?_, hsupplied⟩
      change Covered (holding (setInfo s sender _)) _ s.balance
      rw [holding_setInfo]
      exact hcovered.update (Nat.le_refl _)
    | stakeWithdrawn sender withdrawAddress hok =>
      obtain ⟨_, _, _, hfunds, rfl⟩ := withdrawStake_eq_ok.mp hok
      refine ⟨?_, ?_⟩
      · change Covered (holding (setInfo { s with balance := _ } sender _)) _
          (s.balance - (s.deposits sender).stake)
        rw [holding_setInfo]
        apply Covered.withdraw hcovered
        exact Nat.le_refl _
      · change s.balance - (s.deposits sender).stake + s.account.balance < wordSize
        omega
    | withdrawn sender withdrawAddress amount hsender hok =>
      obtain ⟨hle, hfunds, rfl⟩ := withdrawTo_eq_ok.mp hok
      refine ⟨?_, ?_⟩
      · change Covered (holding (setInfo { s with balance := s.balance - amount } sender _)) _
          (s.balance - amount)
        rw [holding_setInfo]
        apply Covered.withdraw hcovered
        change (s.deposits sender).deposit - amount + (s.deposits sender).stake + amount ≤
          (s.deposits sender).deposit + (s.deposits sender).stake
        omega
      · change s.balance - amount + s.account.balance < wordSize
        omega
    | nonceSkipped sender key hsender hok =>
      obtain ⟨_, rfl⟩ := incrementNonce_eq_ok.mp hok
      exact ⟨hcovered, hsupplied⟩
    | accountCalled input hcaller hfits hleft =>
      refine ⟨hcovered, ?_⟩
      by_cases hreceive : ∃ amount, input = .receive amount
      · obtain ⟨amount, rfl⟩ := hreceive
        obtain ⟨rfl, _⟩ := Prod.mk.inj (Option.some.inj hleft)
        have hroom := hfits amount rfl
        unfold Fits at hroom
        change s.balance + (s.account.balance + amount) < wordSize
        omega
      · have hle := left_enter_balance hleft fun amount heq => hreceive ⟨amount, heq⟩
        exact (Nat.add_le_add_left hle s.balance).trans_lt hsupplied
    | accountResumed pending ok hleft =>
      have hle := left_resume_balance d.config hleft
      exact ⟨hcovered, (Nat.add_le_add_left hle s.balance).trans_lt hsupplied⟩
    | remarked e hremark => exact ⟨hcovered, hsupplied⟩
    | opened => exact ⟨hcovered, hsupplied⟩
    | prepaid v hprepared haccepted hcharge =>
      obtain ⟨hle, _, _, rfl⟩ := charge_eq_ok.mp hcharge
      obtain ⟨hcovered₁, hsupplied₁⟩ := accepted_solvent haccepted h
      rw [due_waiting] at hcovered₁
      refine ⟨?_, hsupplied₁⟩
      rw [due_unchecked]
      exact covered_charged hcovered₁ hle
    | checked v haggregator hfinish =>
      obtain ⟨_, hprefund, _, _⟩ := finishValidation_prefund hfinish
      refine ⟨hcovered.mono ?_, hsupplied⟩
      rw [due_unchecked, due_waiting, prefunds_append, hprefund]
      exact (congrArg (· + s.balance) (Nat.add_right_comm _ _ _)).le
    | started =>
      refine ⟨hcovered.mono ?_, hsupplied⟩
      rw [due_running, due_waiting, prefunds_cons]
      omega
    | returned hcallData => exact ⟨hcovered, hsupplied⟩
    | ran call hsender hdecode hleft =>
      have hle := left_enter_balance hleft (by intro amount heq; cases call <;> cases heq)
      exact ⟨hcovered, (Nat.add_le_add_left hle s.balance).trans_lt hsupplied⟩
    | refunded accepted cost gas hcost =>
      rw [due_running] at hcovered
      have hsettled : Covered (holding (refundPrefund block.timestamp s _ accepted cost gas)) _ _ :=
        covered_refunded hcovered hcost
      exact ⟨hsettled.mono (Nat.add_le_add_right (due_collected cost) s.balance), hsupplied⟩
    | kept gas =>
      rw [due_running] at hcovered
      exact ⟨hcovered.mono (Nat.add_le_add_right (due_collected _) s.balance), hsupplied⟩
    | compensated beneficiary hfunds =>
      refine ⟨?_, ?_⟩
      · change Covered (holding s) 0 (s.balance - _)
        apply Covered.pay
        rw [idle, due_waiting] at hcovered
        exact hcovered
      · change s.balance - _ + s.account.balance < wordSize
        omega
    | closed => exact ⟨hcovered, hsupplied⟩

theorem solvent_agrees {labels : List (Label Block (Input d))} {m : Machine Block System Pending}
    (hrun : Run d block labels m) :
    Agrees d (fun block s o _ => Solvent block s o) m.clock m.world
      (m.stack.map Frame.pending) :=
  run_agrees solvent_closed (fun _ _ _ _ hsupply =>
    ⟨covered_of_zero (fun _ => rfl) (Nat.zero_le _), hsupply⟩) hrun

theorem run_solvent {labels : List (Label Block (Input d))} {m : Machine Block System Pending}
    (hrun : Run d block labels m) : Solvent m.clock m.world (openObligations m) :=
  (solvent_agrees hrun).holds.2

/-- At every moment of every run the ether of the EntryPoint covers the deposits and stakes
    of any set of holders, together with all that the bundle in progress holds. -/
theorem entryPoint_solvent {labels : List (Label Block (Input d))}
    {m : Machine Block System Pending} (hrun : Run d block labels m) (S : Finset Address) :
    ∑ a ∈ S, ((m.world.deposits a).deposit + (m.world.deposits a).stake) +
      due (openObligations m) ≤ m.world.balance :=
  (run_solvent hrun).covered S

theorem entryPoint_solvent_midway : ∃ m, Run testDeployment (blockAt 1000 testTime_lt)
    [.call (.depositTo 0x808 100), .call (.handleOps [paymentItem 0] 0xb11)] m ∧
      due (openObligations m) = 210000 * 10 ^ 9 ∧
      ∑ a ∈ ({0x707, 0x808} : Finset Address),
        ((m.world.deposits a).deposit + (m.world.deposits a).stake) +
        due (openObligations m) ≤ m.world.balance := by
  have hrun : (run (entryPoint testDeployment) testStart
      [.call (.depositTo 0x808 100), .call (.handleOps [paymentItem 0] 0xb11)]).map
        (fun m => due (openObligations m)) = some (210000 * 10 ^ 9) := by
    decide +kernel
  obtain ⟨m, hm, hdue⟩ := Run.of_map (by decide +kernel) hrun
  exact ⟨m, hm, hdue, entryPoint_solvent hm {0x707, 0x808}⟩

def Sends (s : System) (sender : Address) (reason : String) (amount : ℕ) : Result → Prop
  | .suspend s' (.withdrawal r) => r = reason ∧ s'.balance + amount = s.balance ∧
      holding s' sender + amount = holding s sender
  | _ => False

theorem holding_setInfo_self (s : System) (a : Address) (info : DepositInfo) :
    holding (setInfo s a info) a = info.deposit + info.stake := by
  rw [holding_setInfo, Function.update_self]

/-- In every reachable state a deposit can be withdrawn, and so can a stake that is due: the
    only obstacles are those that the source names. -/
theorem withdrawals_sent {labels : List (Label Block (Input d))} {m : Machine Block System Pending}
    (hrun : Run d block labels m) (sender withdrawAddress : Address) (hsender : sender ≠ d.account)
    (amount : ℕ) :
    (Sends m.world sender "failed to withdraw" amount
        (enter d m.clock m.world (.withdrawTo sender withdrawAddress amount hsender)) ↔
      amount ≤ (m.world.deposits sender).deposit) ∧
    (Sends m.world sender "failed to withdraw stake" (m.world.deposits sender).stake
        (enter d m.clock m.world (.withdrawStake sender withdrawAddress hsender)) ↔
      0 < (m.world.deposits sender).stake ∧ 0 < (m.world.deposits sender).withdrawTime ∧
        (m.world.deposits sender).withdrawTime ≤ m.clock.timestamp) := by
  obtain ⟨hcovered, hsupplied⟩ := run_solvent hrun
  have hfits : Fits m.world 0 := hsupplied
  have hholding : (m.world.deposits sender).deposit + (m.world.deposits sender).stake ≤
      m.world.balance := (Nat.le_add_right _ _).trans (hcovered.holding_le sender)
  refine ⟨?_, ?_⟩
  · have hcall : enter d m.clock m.world (.withdrawTo sender withdrawAddress amount hsender) =
        sending "failed to withdraw"
          (withdrawTo m.clock.timestamp m.world sender withdrawAddress amount) :=
      enter_eq_call hfits
    rw [hcall]
    cases hok : withdrawTo m.clock.timestamp m.world sender withdrawAddress amount with
    | error failure =>
      refine ⟨fun h => h.elim, fun hle => ?_⟩
      have hsent : withdrawTo m.clock.timestamp m.world sender withdrawAddress amount = .ok _ :=
        withdrawTo_eq_ok.mpr ⟨hle, by omega, rfl⟩
      rw [hok] at hsent
      exact nomatch hsent
    | ok s' =>
      obtain ⟨hle, hfunds, rfl⟩ := withdrawTo_eq_ok.mp hok
      refine ⟨fun _ => hle, fun _ => ⟨rfl, Nat.sub_add_cancel hfunds, ?_⟩⟩
      change holding (setInfo _ sender _) sender + amount = _
      rw [holding_setInfo_self, holding]
      dsimp only
      omega
  · have hcall : enter d m.clock m.world (.withdrawStake sender withdrawAddress hsender) =
        sending "failed to withdraw stake"
          (withdrawStake m.clock.timestamp m.world sender withdrawAddress) :=
      enter_eq_call hfits
    rw [hcall]
    cases hok : withdrawStake m.clock.timestamp m.world sender withdrawAddress with
    | error failure =>
      refine ⟨fun h => h.elim, fun hdue => ?_⟩
      have hsent : withdrawStake m.clock.timestamp m.world sender withdrawAddress = .ok _ :=
        withdrawStake_eq_ok.mpr ⟨hdue.1, hdue.2.1, hdue.2.2, by omega, rfl⟩
      rw [hok] at hsent
      exact nomatch hsent
    | ok s' =>
      obtain ⟨hstake, hunlocked, hdue, hfunds, rfl⟩ := withdrawStake_eq_ok.mp hok
      refine ⟨fun _ => ⟨hstake, hunlocked, hdue⟩, fun _ => ⟨rfl, Nat.sub_add_cancel hfunds, ?_⟩⟩
      change holding (setInfo _ sender _) sender + _ = _
      rw [holding_setInfo_self, holding]
      rfl

theorem withdrawals_sent_midway : ∃ m, Run testDeployment (blockAt 1000 testTime_lt)
    [.call (.depositTo 0x808 100), .call (.handleOps [paymentItem 0] 0xb11)] m ∧
      Sends m.world 0x808 "failed to withdraw" 100 (enter testDeployment m.clock m.world
        (.withdrawTo 0x808 0x80c 100 (by decide))) := by
  have hrun : (run (entryPoint testDeployment) testStart
      [.call (.depositTo 0x808 100), .call (.handleOps [paymentItem 0] 0xb11)]).map
        (fun m => (m.world.deposits 0x808).deposit) = some 100 := by
    decide +kernel
  obtain ⟨m, hm, hdeposit⟩ := Run.of_map (by decide +kernel) hrun
  exact ⟨m, hm, (withdrawals_sent hm 0x808 0x80c (by decide) 100).1.mpr hdeposit.ge⟩

end BoundedSpending.EntryPointSolvency
