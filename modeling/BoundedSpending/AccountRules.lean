import BoundedSpending.AccountMachine

set_option autoImplicit false

namespace BoundedSpending.AccountRules

open CheckedArithmetic CallDataDecoder UserOperations SpendRecorders Preflight
open NestedCalls AccountMachine

variable {env : Env} {cfg : Config} {block : Block} {w w' : World} {ks : List Pending}
  {J : World → List Pending → Prop} {now : ℕ} {sender : Address}

theorem validateUserOp_eq_ok {op : PackedUserOperation}
    {userOpHash missingAccountFunds validationData : ℕ} :
    validateUserOp env cfg block w sender op userOpHash missingAccountFunds =
        .ok (validationData, w') ↔
      sender = cfg.entryPointContract ∧ ∃ s,
        preflight env cfg block w.storage op userOpHash = .ok (validationData, s) ∧
        w' = payPrefund block.timestamp
          (logged { w with storage := s } block.timestamp [.validated]) missingAccountFunds := by
  simp only [validateUserOp, bind_returns, require_eq_ok, Prod.exists, pure_returns,
    Prod.mk.injEq]
  constructor
  · rintro ⟨_, hsender, data, s, hpre, rfl, rfl⟩
    exact ⟨hsender, s, hpre, rfl⟩
  · rintro ⟨hsender, s, hpre, rfl⟩
    exact ⟨(), hsender, _, s, hpre, rfl, rfl⟩

theorem step_validateUserOp {m : Machine Block World Pending} {op : PackedUserOperation}
    {userOpHash missingAccountFunds validationData : ℕ}
    (hok : validateUserOp env cfg m.clock m.world sender op userOpHash missingAccountFunds =
      .ok (validationData, w')) :
    step (account env cfg) m (.call (.validateUserOp sender op userOpHash missingAccountFunds)) =
      some { m with world := w' } := by
  simp only [step, account, AccountMachine.enter, hok, settle]

theorem keeps_validateUserOp {op : PackedUserOperation} {userOpHash missingAccountFunds : ℕ}
    (h : ∀ validationData s, sender = cfg.entryPointContract →
      preflight env cfg block w.storage op userOpHash = .ok (validationData, s) →
      J (payPrefund block.timestamp (logged { w with storage := s } block.timestamp [.validated])
        missingAccountFunds) ks) :
    ((account env cfg).enter block w
      (.validateUserOp sender op userOpHash missingAccountFunds)).Keeps J ks := by
  simp only [account, AccountMachine.enter]
  cases hok : validateUserOp env cfg block w sender op userOpHash missingAccountFunds with
  | error reason => trivial
  | ok result =>
    obtain ⟨hsender, s, hpre, hw⟩ := validateUserOp_eq_ok.mp hok
    change J result.2 ks
    rw [hw]
    exact h result.1 s hsender hpre

theorem keeps_doCalls {calls : List Call} (hdone : calls = [] → J w ks)
    (hcall : ∀ call rest, calls = call :: rest → call.value ≤ w.balance →
      J (logged { w with balance := w.balance - call.value } now [.ethTransferred call.value])
        (.calls call rest :: ks)) :
    (doCalls now w calls).Keeps J ks := by
  cases calls with
  | nil => exact hdone rfl
  | cons call rest =>
    simp only [doCalls]
    split_ifs with hfunds
    · exact hcall call rest rfl hfunds
    · trivial

theorem keeps_spendAndCall {call : SpendCall}
    (h : ∀ s events, sender = cfg.entryPointContract →
      validateAndRecordSpend cfg w.storage now call = .ok (s, events) →
      (doCalls now (logged { w with storage := s } now events) call.calls).Keeps J ks) :
    (spendAndCall cfg now w sender call).Keeps J ks := by
  unfold spendAndCall
  split_ifs with hsender
  · trivial
  · cases hok : validateAndRecordSpend cfg w.storage now call with
    | error reason => trivial
    | ok result => exact h result.1 result.2 (not_not.mp hsender) hok

theorem keeps_payForGasInUsdc {gasLeft amount : ℕ}
    (h : ∀ s events, sender = cfg.paymasterAddress →
      applyUsdcSpend cfg w.storage block.timestamp amount = .ok (s, events) →
      J (logged { w with storage := s } block.timestamp events) (.gasPayment amount :: ks)) :
    ((account env cfg).enter block w (.payForGasInUsdc sender gasLeft amount)).Keeps J ks := by
  simp only [account, AccountMachine.enter, payForGasInUsdc]
  split_ifs with hsender hgas
  · trivial
  · trivial
  · cases hok : applyUsdcSpend cfg w.storage block.timestamp amount with
    | error reason => trivial
    | ok result => exact h result.1 result.2 (not_not.mp hsender) hok

theorem keeps_requestEmergencyWithdraw
    (h : sender = cfg.vaultOwner →
      J (logged { w with storage.emergencyWithdrawRequestTime := block.timestamp }
        block.timestamp [.emergencyWithdrawRequested]) ks) :
    ((account env cfg).enter block w (.requestEmergencyWithdraw sender)).Keeps J ks := by
  simp only [account, AccountMachine.enter, requestEmergencyWithdraw]
  split_ifs with hsender
  · trivial
  · exact h (not_not.mp hsender)

theorem keeps_withdrawUsdcPart {recipient ethAmount : ℕ}
    (hsend : J w (.withdrawUsdc recipient ethAmount w.usdcBalance :: ks))
    (hnone : J (finishWithdraw now w recipient ethAmount 0) ks) :
    (withdrawUsdcPart env now w recipient ethAmount).Keeps J ks := by
  unfold withdrawUsdcPart
  split_ifs
  · exact hsend
  · exact hnone

theorem keeps_emergencyWithdraw {recipient : Address}
    (heth : emergencyWithdrawGuards cfg w.storage block.timestamp sender = .ok () →
      0 < w.balance → J { logged { w with storage.emergencyWithdrawRequestTime := 0 }
        block.timestamp [.withdrawGuardsPassed] with balance := 0 }
          (.withdrawEth recipient w.balance :: ks))
    (husdc : emergencyWithdrawGuards cfg w.storage block.timestamp sender = .ok () →
      (withdrawUsdcPart env block.timestamp
        (logged { w with storage.emergencyWithdrawRequestTime := 0 } block.timestamp
          [.withdrawGuardsPassed]) recipient 0).Keeps J ks) :
    ((account env cfg).enter block w (.emergencyWithdraw sender recipient)).Keeps J ks := by
  simp only [account, AccountMachine.enter, emergencyWithdraw]
  cases hok : emergencyWithdrawGuards cfg w.storage block.timestamp sender with
  | error reason => trivial
  | ok u =>
    dsimp only
    split_ifs with hfunds
    · exact heth hok hfunds
    · exact husdc hok

/-- Every function passes a failed call on, so only the answers of success are left. -/
theorem keeps_resume {k : Pending} (ok : Bool)
    (h : ((account env cfg).resume block w k true).Keeps J ks) :
    ((account env cfg).resume block w k ok).Keeps J ks := by
  cases ok with
  | false => cases k <;> trivial
  | true => exact h

theorem keeps_gasPayment {amount : ℕ}
    (h : ∀ v, transferUsdc env block.timestamp w amount = some v → J v ks) :
    ((account env cfg).resume block w (.gasPayment amount) true).Keeps J ks := by
  simp only [account, AccountMachine.resume]
  cases ht : transferUsdc env block.timestamp w amount with
  | none => trivial
  | some v => exact h v ht

theorem keeps_withdrawUsdc {recipient ethAmount usdcAmount : ℕ}
    (h : usdcAmount ≤ w.usdcBalance → J (finishWithdraw block.timestamp
      { w with usdcBalance := w.usdcBalance - usdcAmount } recipient ethAmount usdcAmount) ks) :
    ((account env cfg).resume block w (.withdrawUsdc recipient ethAmount usdcAmount) true).Keeps
      J ks := by
  simp only [account, AccountMachine.resume]
  split_ifs with hfunds
  · exact h hfunds
  · trivial

end BoundedSpending.AccountRules
