import BoundedSpending.EntryPointMachine

set_option autoImplicit false

namespace BoundedSpending.CallOrigins

open CheckedArithmetic BigEndianWords CallDataDecoder Preflight NestedCalls AccountMachine
open EntryPointState BundleHandler
open EntryPointMachine (callerOf)

inductive Follows : AccountMachine.Pending → AccountMachine.Pending → Prop where
  | calls (call next : Call) (rest : List Call) :
      Follows (.calls call (next :: rest)) (.calls next rest)
  | withdrawal (recipient : Address) (ethAmount usdcAmount : ℕ) :
      Follows (.withdrawEth recipient ethAmount) (.withdrawUsdc recipient ethAmount usdcAmount)

/-- The call that is out is one that the callData names, and what is to follow it as well. -/
inductive NamedBy (callData : Bytes) : AccountMachine.Pending → Prop where
  | calls {spend : SpendCall} (made : List Call) {call : Call} {rest : List Call}
      (hdecode : decodeSpendCall callData = .ok spend)
      (horder : spend.calls = made ++ call :: rest) : NamedBy callData (.calls call rest)

variable {env : Env} {cfg : Config} {block : Block} {w w' : World} {callData : Bytes}
  {k k' : AccountMachine.Pending}

theorem doCalls_suspends {now : ℕ} {calls : List Call} (h : doCalls now w calls = .suspend w' k) :
    ∃ call rest, calls = call :: rest ∧ k = .calls call rest := by
  cases calls with
  | nil => cases h
  | cons call rest =>
    simp only [doCalls] at h
    split_ifs at h
    obtain ⟨_, rfl⟩ := Outcome.suspend.inj h
    exact ⟨call, rest, rfl, rfl⟩

theorem doCalls_follows {now : ℕ} {call : Call} {rest : List Call}
    (h : doCalls now w rest = .suspend w' k) : Follows (.calls call rest) k := by
  obtain ⟨next, rest', rfl, rfl⟩ := doCalls_suspends h
  exact .calls call next rest'

theorem resume_follows {ok : Bool} (h : resume env block w k ok = .suspend w' k') :
    Follows k k' := by
  cases ok with
  | false => cases k <;> cases h
  | true =>
    cases k with
    | calls call rest =>
      simp only [resume] at h
      split_ifs at h
      · cases htransfer : transferUsdc env block.timestamp w (transferAmount call.data) with
        | none =>
          rw [htransfer] at h
          cases h
        | some v =>
          rw [htransfer] at h
          exact doCalls_follows h
      · exact doCalls_follows h
    | gasPayment amount =>
      simp only [resume] at h
      cases htransfer : transferUsdc env block.timestamp w amount with
      | none =>
        rw [htransfer] at h
        cases h
      | some v =>
        rw [htransfer] at h
        cases h
    | withdrawEth recipient ethAmount =>
      simp only [resume, withdrawUsdcPart] at h
      split_ifs at h
      obtain ⟨_, rfl⟩ := Outcome.suspend.inj h
      exact .withdrawal recipient ethAmount w.usdcBalance
    | withdrawUsdc recipient ethAmount usdcAmount =>
      simp only [resume] at h
      split_ifs at h
    | «foreign» => cases h

theorem spendAndCall_suspends {now : ℕ} {sender : Address} {call : SpendCall}
    (h : spendAndCall cfg now w sender call = .suspend w' k) :
    sender = cfg.entryPointContract ∧
      ∃ first rest, call.calls = first :: rest ∧ k = .calls first rest := by
  unfold spendAndCall at h
  split_ifs at h with hsender
  cases hrecord : validateAndRecordSpend cfg w.storage now call with
  | error reason =>
    rw [hrecord] at h
    cases h
  | ok result =>
    rw [hrecord] at h
    exact ⟨not_not.mp hsender, doCalls_suspends h⟩

theorem dispatch_suspends {d : Deployment} (h : dispatch d block w callData = .suspend w' k) :
    NamedBy callData k := by
  unfold dispatch at h
  cases hdecode : decodeSpendCall callData with
  | error reason =>
    rw [hdecode] at h
    cases h
  | ok call =>
    rw [hdecode] at h
    have hspend : spendAndCall d.config block.timestamp w d.config.entryPointContract call =
        .suspend w' k := by
      cases call <;> exact h
    obtain ⟨_, first, rest, hcalls, rfl⟩ := spendAndCall_suspends hspend
    exact .calls [] hdecode hcalls

theorem NamedBy.follows (h : NamedBy callData k) (hnext : Follows k k') : NamedBy callData k' := by
  cases hnext with
  | calls call next rest =>
    cases h with
    | calls made hdecode horder =>
      refine .calls (made ++ [call]) hdecode ?_
      rw [horder, List.append_assoc, List.singleton_append]
  | withdrawal => exact nomatch h

/-- Nobody but the EntryPoint gets the account to call a target. -/
theorem enter_calls {input : AccountMachine.Input} {call : Call} {rest : List Call}
    (h : enter env cfg block w input = .suspend w' (.calls call rest)) :
    callerOf input = some cfg.entryPointContract := by
  cases input with
  | validateUserOp sender op userOpHash missingAccountFunds =>
    simp only [enter] at h
    cases hvalidate : validateUserOp env cfg block w sender op userOpHash missingAccountFunds with
    | error reason =>
      rw [hvalidate] at h
      cases h
    | ok result =>
      rw [hvalidate] at h
      cases h
  | execute sender call => exact congrArg some (spendAndCall_suspends h).1
  | executeBatch sender calls => exact congrArg some (spendAndCall_suspends h).1
  | payForGasInUsdc sender gasLeft amount =>
    simp only [enter, payForGasInUsdc] at h
    split_ifs at h
    cases hspend : SpendRecorders.applyUsdcSpend cfg w.storage block.timestamp amount with
    | error reason =>
      rw [hspend] at h
      cases h
    | ok result =>
      rw [hspend] at h
      cases h
  | requestEmergencyWithdraw sender =>
    simp only [enter, requestEmergencyWithdraw] at h
    split_ifs at h
  | emergencyWithdraw sender recipient =>
    simp only [enter, emergencyWithdraw] at h
    cases hguards : emergencyWithdrawGuards cfg w.storage block.timestamp sender with
    | error reason =>
      rw [hguards] at h
      cases h
    | ok u =>
      rw [hguards] at h
      simp only [withdrawUsdcPart] at h
      split_ifs at h <;> cases h
  | receive amount => cases h
  | addDeposit amount => cases h
  | receiveUsdc amount => cases h
  | «foreign» => cases h

end BoundedSpending.CallOrigins
