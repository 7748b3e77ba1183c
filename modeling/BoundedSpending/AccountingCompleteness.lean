import BoundedSpending.AccountBalances
import BoundedSpending.AccountJournal

set_option autoImplicit false

namespace BoundedSpending.AccountingCompleteness

open TimedLog WindowedCounter UserOperations Preflight NestedCalls AccountMachine AccountLedger
open AccountJournal

/-- What has left the account since either reset, gas prefund included, is on the counters.
    `AccountBalances.balances_conserved` compares these sums with what the account holds. -/
structure Complete (w : World) : Prop where
  dailyEth : sumSince ethSent w.storage.lastDailyResetTimestamp w.journal +
    sumSince prefundSent w.storage.lastDailyResetTimestamp w.journal ≤ w.storage.dailyEthSpent
  monthlyEth : sumSince ethSent w.storage.lastMonthlyResetTimestamp w.journal +
    sumSince prefundSent w.storage.lastMonthlyResetTimestamp w.journal ≤ w.storage.monthlyEthSpent
  dailyUsdc : sumSince usdcSent w.storage.lastDailyResetTimestamp w.journal ≤
    w.storage.dailyUsdcSpent
  monthlyUsdc : sumSince usdcSent w.storage.lastMonthlyResetTimestamp w.journal ≤
    w.storage.monthlyUsdcSpent

def PrefundFree (w : World) : Prop := sumSince prefundSent 0 w.journal = 0

theorem PrefundFree.since {w : World} (h : PrefundFree w) (a : ℕ) :
    sumSince prefundSent a w.journal = 0 := by
  have hle := sumSince_anti prefundSent a.zero_le w.journal
  unfold PrefundFree at h
  omega

theorem PrefundFree.grows {now : ℕ} {emits : Event → Prop} {w w' : World} (h : PrefundFree w)
    (hg : Grows now emits w w') (hemits : ∀ event, emits event → prefundSent event = 0) :
    PrefundFree w' := by
  obtain ⟨events, hjournal, hall⟩ := hg
  have hz := sum_map_eq_zero fun event hmem => hemits event (hall event hmem)
  unfold PrefundFree
  rw [hjournal, sumSince_append, sumSince_stamped, hz, ite_self, Nat.zero_add]
  exact h

theorem spendEvent_prefundSent {event : Event} (h : SpendEvent event) : prefundSent event = 0 := by
  cases event <;> first | rfl | exact h.elim

theorem enterEmits_prefundSent {env : Env} {cfg : Config} {block : Block} {w : World}
    {input : Input} (hno : ¬ PaysPrefund env cfg block w input) {event : Event}
    (h : EnterEmits env cfg block w input event) : prefundSent event = 0 := by
  cases input with
  | validateUserOp sender op userOpHash missingAccountFunds =>
    rcases h with rfl | ⟨_, hpays⟩
    · rfl
    · exact absurd hpays hno
  | execute sender call => exact spendEvent_prefundSent h
  | executeBatch sender calls => exact spendEvent_prefundSent h
  | payForGasInUsdc sender gasLeft amount => exact spendEvent_prefundSent h
  | requestEmergencyWithdraw sender =>
    obtain rfl := (h : event = .emergencyWithdrawRequested)
    rfl
  | emergencyWithdraw sender recipient =>
    rcases h with rfl | ⟨_, _, rfl⟩
    · rfl
    · rfl
  | receive amount => exact h.elim
  | addDeposit amount => exact h.elim
  | receiveUsdc amount => exact h.elim
  | «foreign» => exact h.elim

theorem resumeEmits_prefundSent {k : Pending} {event : Event} (h : ResumeEmits k event) :
    prefundSent event = 0 := by
  cases k with
  | calls call rest => exact spendEvent_prefundSent h
  | gasPayment amount => exact spendEvent_prefundSent h
  | withdrawEth recipient ethAmount =>
    obtain ⟨_, rfl⟩ := h
    rfl
  | withdrawUsdc recipient ethAmount usdcAmount =>
    obtain rfl := (h : event = .emergencyWithdrawExecuted recipient ethAmount usdcAmount)
    rfl
  | «foreign» => exact h.elim

theorem account_prefundFree (env : Env) (cfg : Config) :
    Invariant (account env cfg) (fun block w input => ¬ PaysPrefund env cfg block w input)
      (fun _ w _ => PrefundFree w) where
  advance := fun _ _ _ _ h => h
  enter := by
    intro block w ks input hno h
    exact Keeps.imp (enter_grows input) fun _ _ hg =>
      h.grows hg fun _ he => enterEmits_prefundSent hno he
  resume := by
    intro block w k ks ok h
    exact Keeps.imp (resume_grows k ok) fun _ _ hg =>
      h.grows hg fun _ he => resumeEmits_prefundSent he

theorem complete_of_ledger {cfg : Config} {now ethDue usdcDue : ℕ} {w : World}
    (h : Ledger cfg now w ethDue usdcDue) (hfree : PrefundFree w) : Complete w := by
  have hsent := sumSince_le_of_sumIn_le fun a b => (Nat.le_add_right _ _).trans (h.ethCovered a b)
  have hmoved : ∀ a, sumSince usdcSent a w.journal ≤ sumSince usdcRecorded 0 w.journal := by
    intro a
    have hcovered := h.usdcCovered
    have hle := sumSince_anti usdcSent a.zero_le w.journal
    omega
  refine ⟨?_, ?_, (hmoved _).trans h.dailyUsdc, (hmoved _).trans h.monthlyUsdc⟩
  · rw [hfree.since, Nat.add_zero]
    exact (hsent _).trans h.dailyEth.since_anchor
  · rw [hfree.since, Nat.add_zero]
    exact (hsent _).trans h.monthlyEth.since_anchor

/-- In a run without a paid prefund, accounting is complete in every state. -/
theorem complete_of_no_prefund (env : Env) (cfg : Config) (block : Block)
    (balance usdcBalance : ℕ) (labels : List (Label Block Input))
    (m : Machine Block World Pending)
    (hrun : run (account env cfg) (launched block balance usdcBalance) labels = some m)
    (hno : Admits (account env cfg) (fun block w input => ¬ PaysPrefund env cfg block w input)
      (launched block balance usdcBalance) labels) : Complete m.world := by
  have hledger := run_balanced ⟨balance, usdcBalance, hrun⟩
  have hstart : Holds (fun _ w _ => PrefundFree w) (launched block balance usdcBalance) :=
    ⟨rfl, trivial⟩
  have hfree := (account_prefundFree env cfg).run hstart hno hrun
  exact complete_of_ledger hledger hfree.1

theorem complete_of_no_prefund_spend :
    ∃ m, run (account ownerEnv testConfig) (launched (blockAt 1000 (by decide)) ether 0)
        [.call (.execute 0x101 ⟨0x909, 10, []⟩), .answer true] = some m ∧ Complete m.world ∧
      m.world.balance = ether - 10 := by
  have hrun : (run (account ownerEnv testConfig) (launched (blockAt 1000 (by decide)) ether 0)
      [.call (.execute 0x101 ⟨0x909, 10, []⟩), .answer true]).map (fun m => m.world.balance) =
        some (ether - 10) := by
    decide +kernel
  obtain ⟨m, hm, hbalance⟩ := Option.map_eq_some_iff.mp hrun
  refine ⟨m, hm, complete_of_no_prefund _ _ _ _ _ _ m hm ?_, hbalance⟩
  refine ⟨?_, fun _ _ => ⟨?_, fun _ _ => trivial⟩⟩
  · intro input hinput
    cases hinput
    exact id
  · intro input hinput
    exact nomatch hinput

def idleOp : PackedUserOperation := testOp 0x707 0 [] [] testSender_lt

/-- The prefund of one accepted validation leaves the account with every counter at zero. -/
theorem prefund_not_complete :
    ∃ m, Run ownerEnv testConfig (blockAt 1000 (by decide))
        [.call (.validateUserOp 0x101 idleOp 0 (171000 * 10 ^ 9))] m ∧
      m.world.storage.dailyEthSpent = 0 ∧ ¬ Complete m.world := by
  have hpaid : (run (account ownerEnv testConfig) (launched (blockAt 1000 (by decide)) ether 0)
      [.call (.validateUserOp 0x101 idleOp 0 (171000 * 10 ^ 9))]).map (fun m =>
        (m.world.storage.dailyEthSpent,
          sumSince prefundSent m.world.storage.lastDailyResetTimestamp m.world.journal)) =
      some (0, 171000 * 10 ^ 9) := by
    decide +kernel
  obtain ⟨m, hrun, hsums⟩ := Run.of_map hpaid
  obtain ⟨hzero, hprefund⟩ := Prod.mk.inj hsums
  refine ⟨m, hrun, hzero, ?_⟩
  intro hcomplete
  have hdaily := hcomplete.dailyEth
  rw [hprefund, hzero] at hdaily
  omega

end BoundedSpending.AccountingCompleteness
