import BoundedSpending.EntryPointRules
import BoundedSpending.AccountRules

set_option autoImplicit false

namespace BoundedSpending.AccountProjection

open CheckedArithmetic UserOperations NestedCalls
open EntryPointState StakeManager BundleHandler EntryPointMachine EntryPointEffects EntryPointRules

variable {d : Deployment} {block : Block} {s s' : System}
  {J : Block → World → List AccountMachine.Pending → Prop}

theorem accepted_lifts {v : Validation} {validationData : ℕ} {calls : List AccountMachine.Pending}
    (hinv : Invariant (AccountMachine.account d.env d.config) (fun _ _ _ => True) J)
    (h : J block s.account calls) (haccepted : Accepted d block s v validationData s') :
    J block s'.account calls := by
  cases haccepted with
  | account hsender hok =>
    obtain ⟨account, hvalidate, rfl⟩ := validateByAccount_eq_ok.mp hok
    have hkeeps := hinv.enter block s.account calls (.validateUserOp d.entryPoint v.item.op
      v.info.userOpHash (missingAccountFunds s v.info)) trivial h
    simp only [AccountMachine.account, AccountMachine.enter, hvalidate] at hkeeps
    simp only [withPaid]
    split_ifs
    · exact hkeeps
    · exact hkeeps
  | other hsender validationData => exact h

theorem lifted_closed
    (hinv : Invariant (AccountMachine.account d.env d.config) (fun _ _ _ => True) J) :
    Closed d fun block s _ calls => J block s.account calls where
  advance := fun block block' s hlater h =>
    hinv.advance block block' s.account (decide_eq_true hlater) h
  effect := by
    intro block s o calls s' o' calls' h heffect
    cases heffect with
    | stakeAdded sender unstakeDelaySec amount hfits hok =>
      obtain ⟨_, _, _, _, _, rfl⟩ := addStake_eq_ok.mp hok
      exact h
    | stakeUnlocked sender hok =>
      obtain ⟨_, _, _, rfl⟩ := unlockStake_eq_ok.mp hok
      exact h
    | stakeWithdrawn sender withdrawAddress hok =>
      obtain ⟨_, _, _, _, rfl⟩ := withdrawStake_eq_ok.mp hok
      exact h
    | withdrawn sender withdrawAddress amount hsender hok =>
      obtain ⟨_, _, rfl⟩ := withdrawTo_eq_ok.mp hok
      exact h
    | nonceSkipped sender key hsender hok =>
      obtain ⟨_, rfl⟩ := incrementNonce_eq_ok.mp hok
      exact h
    | accountCalled input hcaller hfits hleft =>
      exact left_of_keeps (J block) (hinv.enter block s.account calls input trivial h) hleft
    | accountResumed pending ok hleft =>
      exact left_of_keeps (J block) (hinv.resume block s.account pending _ ok h) hleft
    | prepaid v hprepared haccepted hcharge =>
      obtain ⟨_, _, _, rfl⟩ := charge_eq_ok.mp hcharge
      have hlifted := accepted_lifts hinv h haccepted
      exact hlifted
    | ran call hsender hdecode hleft =>
      exact left_of_keeps (J block) (hinv.enter block s.account calls _ trivial h) hleft
    | _ => exact h

/-- In every state of every run of the system the account's storage, balances and journal,
    and the calls that its own code has open, are those of a run of the account's machine
    that started with the same clock and has come to the same one. -/
theorem system_projects {labels : List (Label Block (Input d))} {m : Machine Block System Pending}
    (hrun : Run d block labels m) : ∃ labels' m',
      AccountMachine.Run d.env d.config block labels' m' ∧ m'.clock = m.clock ∧
        m'.world = m.world.account ∧
        m'.stack.map Frame.pending = accountCalls (m.stack.map Frame.pending) := by
  have hagrees := run_agrees
    (lifted_closed (reached_invariant (AccountMachine.account d.env d.config) fun m =>
      ∃ balance usdcBalance, m = AccountMachine.launched block balance usdcBalance))
    (fun _ accountBalance usdcBalance _ _ =>
      ⟨_, [], _, ⟨accountBalance, usdcBalance, rfl⟩, rfl, rfl, rfl, rfl⟩) hrun
  obtain ⟨_, labels', m', ⟨balance, usdcBalance, rfl⟩, hrun', hclock, hworld, hcalls⟩ :=
    hagrees.holds.2
  exact ⟨labels', m', ⟨balance, usdcBalance, hrun'⟩, hclock, hworld, hcalls⟩

theorem system_projects_midway : ∃ m, Run testDeployment (blockAt 1000 testTime_lt)
    [.call (.handleOps [paymentItem 0] 0xb11)] m ∧
      accountCalls (m.stack.map Frame.pending) = [.calls ⟨0x909, ether / 10, []⟩ []] ∧
      ∃ labels' m', AccountMachine.Run AccountMachine.ownerEnv testConfig
        (blockAt 1000 testTime_lt) labels' m' ∧ m'.world = m.world.account ∧
          m'.stack.map Frame.pending = [.calls ⟨0x909, ether / 10, []⟩ []] := by
  have hrun : (run (entryPoint testDeployment) testStart
      [.call (.handleOps [paymentItem 0] 0xb11)]).map
        (fun m => accountCalls (m.stack.map Frame.pending)) =
          some [.calls ⟨0x909, ether / 10, []⟩ []] := by
    decide +kernel
  obtain ⟨m, hm, hcalls⟩ := Run.of_map (by decide +kernel) hrun
  obtain ⟨labels', m', hrun', _, hworld, hstack⟩ := system_projects hm
  exact ⟨m, hm, hcalls, labels', m', hrun', hworld, hstack.trans hcalls⟩

end BoundedSpending.AccountProjection
