import BoundedSpending.AccountLedger
import BoundedSpending.CallTallies

set_option autoImplicit false

namespace BoundedSpending.AccountBalances

open TimedLog SpendRecorders CallDataDecoder Preflight UserOperations
open NestedCalls CallTallies AccountMachine AccountRules AccountLedger

def ethWithdrawn : Event → ℕ
  | .emergencyWithdrawExecuted _ ethAmount _ => ethAmount
  | _ => 0

def usdcWithdrawn : Event → ℕ
  | .emergencyWithdrawExecuted _ _ usdcAmount => usdcAmount
  | _ => 0

def ethOut : Event → ℕ
  | .ethTransferred amount => amount
  | .prefundPaid amount => amount
  | .emergencyWithdrawExecuted _ ethAmount _ => ethAmount
  | _ => 0

def usdcOut : Event → ℕ
  | .usdcTransferred amount => amount
  | .emergencyWithdrawExecuted _ _ usdcAmount => usdcAmount
  | _ => 0

theorem sumSince_ethOut (a : ℕ) (log : Journal) : sumSince ethOut a log =
    sumSince ethSent a log + sumSince prefundSent a log + sumSince ethWithdrawn a log := by
  have hsplit : ethOut = fun event =>
      ethSent event + prefundSent event + ethWithdrawn event := by
    funext event
    cases event <;> simp [ethOut, ethSent, prefundSent, ethWithdrawn]
  rw [hsplit, sumSince_add (fun event => ethSent event + prefundSent event), sumSince_add]

theorem sumSince_usdcOut (a : ℕ) (log : Journal) : sumSince usdcOut a log =
    sumSince usdcSent a log + sumSince usdcWithdrawn a log := by
  have hsplit : usdcOut = fun event => usdcSent event + usdcWithdrawn event := by
    funext event
    cases event <;> simp [usdcOut, usdcSent, usdcWithdrawn]
  rw [hsplit, sumSince_add]

/-- The ETH of an emergency withdrawal has left the account while its recipient runs; the
    withdrawal is logged when it is over. -/
def ethInFlight : Pending → ℕ
  | .withdrawEth _ ethAmount => ethAmount
  | .withdrawUsdc _ ethAmount _ => ethAmount
  | _ => 0

structure Receipts where
  eth : ℕ
  usdc : ℕ
  deriving DecidableEq, Repr

def received : Input → Receipts → Receipts
  | .receive amount, r => { r with eth := r.eth + amount }
  | .receiveUsdc amount, r => { r with usdc := r.usdc + amount }
  | _, r => r

/-- What is held, what has left and what is on its way make up the given totals. -/
structure Conserved (eth usdc inFlight : ℕ) (w : World) : Prop where
  eth : w.balance + sumSince ethOut 0 w.journal + inFlight = eth
  usdc : w.usdcBalance + sumSince usdcOut 0 w.journal = usdc

variable {env : Env} {cfg : Config} {block : Block} {w w' : World} {ks : List Pending}
  {now eth usdc inFlight : ℕ}

theorem Conserved.congr (h : Conserved eth usdc inFlight w) (hbalance : w'.balance = w.balance)
    (husdc : w'.usdcBalance = w.usdcBalance) (hjournal : w'.journal = w.journal) :
    Conserved eth usdc inFlight w' := by
  refine ⟨?_, ?_⟩
  · rw [hbalance, hjournal]
    exact h.eth
  · rw [husdc, hjournal]
    exact h.usdc

theorem Conserved.logged {events : List Event} (h : Conserved eth usdc inFlight w)
    (hall : ∀ event ∈ events, ethOut event = 0 ∧ usdcOut event = 0) :
    Conserved eth usdc inFlight (logged w now events) := by
  have heth := sum_map_eq_zero fun event hmem => (hall event hmem).1
  have husdc := sum_map_eq_zero fun event hmem => (hall event hmem).2
  have hjournal : ∀ weight : Event → ℕ, (events.map weight).sum = 0 →
      sumSince weight 0 (stamped now events ++ w.journal) = sumSince weight 0 w.journal := by
    intro weight hzero
    rw [sumSince_append, sumSince_stamped, hzero, ite_self, Nat.zero_add]
  refine ⟨?_, ?_⟩
  · change w.balance + sumSince ethOut 0 (stamped now events ++ w.journal) + inFlight = eth
    rw [hjournal ethOut heth]
    exact h.eth
  · change w.usdcBalance + sumSince usdcOut 0 (stamped now events ++ w.journal) = usdc
    rw [hjournal usdcOut husdc]
    exact h.usdc

theorem Conserved.paid {event : Event} {inFlight' : ℕ} (h : Conserved eth usdc inFlight w)
    (hjournal : w'.journal = (now, event) :: w.journal)
    (hbalance : w'.balance + ethOut event + inFlight' = w.balance + inFlight)
    (husdc : w'.usdcBalance + usdcOut event = w.usdcBalance) :
    Conserved eth usdc inFlight' w' := by
  have hsum : ∀ weight : Event → ℕ, sumSince weight 0 w'.journal =
      weight event + sumSince weight 0 w.journal := by
    intro weight
    rw [hjournal]
    simp only [sumSince, Nat.zero_le, if_true]
  have heth := h.eth
  have husdc' := h.usdc
  refine ⟨?_, ?_⟩
  · rw [hsum]
    omega
  · rw [hsum]
    omega

theorem spendEvents_moveNothing {ethSpent usdcSpent : ℕ} {event : Event}
    (h : event ∈ spendEvents ethSpent usdcSpent) : ethOut event = 0 ∧ usdcOut event = 0 := by
  simp only [spendEvents, List.mem_append, List.mem_ite_nil_right, List.mem_singleton] at h
  rcases h with ⟨_, rfl⟩ | ⟨_, rfl⟩
  · exact ⟨rfl, rfl⟩
  · exact ⟨rfl, rfl⟩

theorem accounting_movesNothing {s s' : Storage} {call : SpendCall} {events : List Event}
    (h : validateAndRecordSpend cfg s now call = .ok (s', events)) :
    ∀ event ∈ events, ethOut event = 0 ∧ usdcOut event = 0 := by
  obtain ⟨_, _, _, _, _, _, _, rfl⟩ := validateAndRecordSpend_eq_ok.mp h
  intro event hmem
  rcases List.mem_append.mp hmem with hmem | hmem
  · exact spendEvents_moveNothing hmem
  · rw [List.mem_singleton.mp hmem]
    exact ⟨rfl, rfl⟩

def inFlightOf (ks : List Pending) : ℕ := (ks.map ethInFlight).sum

def ConservedOver (eth usdc : ℕ) (w : World) (ks : List Pending) : Prop :=
  Conserved eth usdc (inFlightOf ks) w

theorem conservedOver_cons {k : Pending} (hk : ethInFlight k = 0) :
    ConservedOver eth usdc w (k :: ks) ↔ ConservedOver eth usdc w ks := by
  unfold ConservedOver inFlightOf
  rw [List.map_cons, List.sum_cons, hk, Nat.zero_add]

theorem doCalls_conserved (h : ConservedOver eth usdc w ks) (calls : List Call) :
    (doCalls now w calls).Keeps (ConservedOver eth usdc) ks := by
  apply keeps_doCalls
  · intro _
    exact h
  · intro call rest _ hfunds
    refine (conservedOver_cons rfl).mpr ?_
    refine Conserved.paid h rfl ?_ rfl
    change w.balance - call.value + call.value + inFlightOf ks = w.balance + inFlightOf ks
    omega

theorem spendAndCall_conserved {sender : Address} {call : SpendCall}
    (h : ConservedOver eth usdc w ks) :
    (spendAndCall cfg now w sender call).Keeps (ConservedOver eth usdc) ks := by
  apply keeps_spendAndCall
  intro s events _ hok
  have hstored : ConservedOver eth usdc { w with storage := s } ks := Conserved.congr h rfl rfl rfl
  exact doCalls_conserved (Conserved.logged hstored (accounting_movesNothing hok)) call.calls

theorem payPrefund_conserved (h : ConservedOver eth usdc w ks) (missingAccountFunds : ℕ) :
    ConservedOver eth usdc (payPrefund now w missingAccountFunds) ks := by
  unfold payPrefund
  split_ifs with hfunds
  · refine Conserved.paid h rfl ?_ rfl
    change w.balance - missingAccountFunds + missingAccountFunds + inFlightOf ks =
      w.balance + inFlightOf ks
    omega
  · exact h

theorem transferUsdc_conserved {amount : ℕ} (h : ConservedOver eth usdc w ks)
    (ht : transferUsdc env now w amount = some w') : ConservedOver eth usdc w' ks := by
  unfold transferUsdc at ht
  split_ifs at ht with hcode hfunds
  · obtain rfl := Option.some.inj ht
    refine Conserved.paid h rfl rfl ?_
    change w.usdcBalance - amount + amount = w.usdcBalance
    omega
  · obtain rfl := Option.some.inj ht
    exact h

theorem withdrawUsdcPart_conserved {recipient ethAmount : ℕ}
    (h : Conserved eth usdc (ethAmount + inFlightOf ks) w) :
    (withdrawUsdcPart env now w recipient ethAmount).Keeps (ConservedOver eth usdc) ks := by
  apply keeps_withdrawUsdcPart
  · exact h
  · refine Conserved.paid h rfl ?_ rfl
    change w.balance + ethAmount + inFlightOf ks = w.balance + (ethAmount + inFlightOf ks)
    omega

theorem enter_conserved {r : Receipts} (input : Input)
    (h : ConservedOver (eth + r.eth) (usdc + r.usdc) w ks) :
    ((account env cfg).enter block w input).Keeps
      (ConservedOver (eth + (received input r).eth) (usdc + (received input r).usdc)) ks := by
  cases input with
  | receive amount =>
    have heth := h.eth
    refine ⟨?_, h.usdc⟩
    change w.balance + amount + sumSince ethOut 0 w.journal + inFlightOf ks = eth + (r.eth + amount)
    omega
  | receiveUsdc amount =>
    have husdc := h.usdc
    refine ⟨h.eth, ?_⟩
    change w.usdcBalance + amount + sumSince usdcOut 0 w.journal = usdc + (r.usdc + amount)
    omega
  | validateUserOp sender op userOpHash missingAccountFunds =>
    apply keeps_validateUserOp
    intro validationData s _ _
    apply payPrefund_conserved
    have hstored : Conserved _ _ _ { w with storage := s } := Conserved.congr h rfl rfl rfl
    exact hstored.logged (by simp [ethOut, usdcOut])
  | execute sender call => exact spendAndCall_conserved h
  | executeBatch sender calls => exact spendAndCall_conserved h
  | payForGasInUsdc sender gasLeft amount =>
    apply keeps_payForGasInUsdc
    intro s events _ hok
    obtain ⟨_, _, _, rfl⟩ := applyUsdcSpend_eq_ok.mp hok
    have hstored : Conserved _ _ _ { w with storage := s } := Conserved.congr h rfl rfl rfl
    refine (conservedOver_cons rfl).mpr (Conserved.logged hstored ?_)
    intro event hmem
    rw [List.mem_singleton.mp hmem]
    exact ⟨rfl, rfl⟩
  | addDeposit amount => exact h
  | requestEmergencyWithdraw sender =>
    apply keeps_requestEmergencyWithdraw
    intro _
    exact Conserved.paid h rfl rfl rfl
  | emergencyWithdraw sender recipient =>
    have hpassed : ConservedOver _ _ (logged { w with storage.emergencyWithdrawRequestTime := 0 }
        block.timestamp [.withdrawGuardsPassed]) ks := Conserved.paid h rfl rfl rfl
    apply keeps_emergencyWithdraw
    · intro _ _
      have heth : w.balance + sumSince ethOut 0
          ((block.timestamp, .withdrawGuardsPassed) :: w.journal) + inFlightOf ks =
            eth + r.eth := hpassed.eth
      refine ⟨?_, hpassed.usdc⟩
      change 0 + sumSince ethOut 0 ((block.timestamp, .withdrawGuardsPassed) :: w.journal) +
        (w.balance + inFlightOf ks) = eth + r.eth
      omega
    · intro _
      apply withdrawUsdcPart_conserved
      rw [Nat.zero_add]
      exact hpassed
  | «foreign» => exact (conservedOver_cons rfl).mpr h

theorem resume_conserved {k : Pending} (h : ConservedOver eth usdc w (k :: ks)) (ok : Bool) :
    ((account env cfg).resume block w k ok).Keeps (ConservedOver eth usdc) ks := by
  apply keeps_resume
  cases k with
  | calls call rest =>
    have hbelow : ConservedOver eth usdc w ks := (conservedOver_cons rfl).mp h
    simp only [account, AccountMachine.resume]
    split_ifs with htarget
    · cases ht : transferUsdc env block.timestamp w (transferAmount call.data) with
      | none => trivial
      | some v => exact doCalls_conserved (transferUsdc_conserved hbelow ht) rest
    · exact doCalls_conserved hbelow rest
  | gasPayment amount =>
    apply keeps_gasPayment
    intro v ht
    exact transferUsdc_conserved ((conservedOver_cons rfl).mp h) ht
  | withdrawEth recipient ethAmount => exact withdrawUsdcPart_conserved h
  | withdrawUsdc recipient ethAmount usdcAmount =>
    apply keeps_withdrawUsdc
    intro hfunds
    refine Conserved.paid h rfl ?_ ?_
    · change w.balance + ethAmount + inFlightOf ks = w.balance + (ethAmount + inFlightOf ks)
      omega
    · change w.usdcBalance - usdcAmount + usdcAmount = w.usdcBalance
      omega
  | «foreign» => exact (conservedOver_cons rfl).mp h

theorem account_conserved (env : Env) (cfg : Config) (eth usdc : ℕ) :
    Invariant (tallied (account env cfg) received) (fun _ _ _ => True)
      (fun _ w ks => ConservedOver (eth + w.2.eth) (usdc + w.2.usdc) w.1 ks) := by
  apply tallied_invariant (A := fun _ _ _ => True)
  · intro _ _ _ _ h
    exact h
  · intro _ _ _ _ input _ h
    exact enter_conserved input h
  · intro _ _ _ _ _ ok h
    exact resume_conserved h ok

/-- In every run the account still holds what it began with and what it received, less
    what the journal shows to have left and what an open withdrawal is paying. A receipt
    that was rolled back with the call around it is none. -/
theorem balances_conserved (env : Env) (cfg : Config) (block : Block) (balance usdcBalance : ℕ)
    (labels : List (Label Block Input)) (m : Machine Block World Pending)
    (hrun : run (account env cfg) (launched block balance usdcBalance) labels = some m) :
    ∃ t, run (tallied (account env cfg) received)
        (withTally ⟨0, 0⟩ (launched block balance usdcBalance)) labels = some t ∧ forget t = m ∧
      m.world.balance + (sumSince ethSent 0 m.world.journal +
          sumSince prefundSent 0 m.world.journal + sumSince ethWithdrawn 0 m.world.journal) +
        inFlightOf (m.stack.map Frame.pending) = balance + t.world.2.eth ∧
      m.world.usdcBalance + (sumSince usdcSent 0 m.world.journal +
        sumSince usdcWithdrawn 0 m.world.journal) = usdcBalance + t.world.2.usdc := by
  have hforget := run_forget received
    (withTally ⟨0, 0⟩ (launched block balance usdcBalance)) labels (P := account env cfg)
  rw [forget_withTally, hrun] at hforget
  obtain ⟨t, ht, hm⟩ := Option.map_eq_some_iff.mp hforget.symm
  have hstart : Holds (fun _ w ks =>
      ConservedOver (balance + w.2.eth) (usdcBalance + w.2.usdc) w.1 ks)
      (withTally (⟨0, 0⟩ : Receipts) (launched block balance usdcBalance)) :=
    ⟨⟨rfl, rfl⟩, trivial⟩
  have hconserved := ((account_conserved env cfg balance usdcBalance).run hstart
    (admits_true _ _ _) ht).1
  have heth := hconserved.eth
  have husdc := hconserved.usdc
  rw [sumSince_ethOut, ← forget_pending] at heth
  rw [sumSince_usdcOut] at husdc
  subst hm
  exact ⟨t, ht, rfl, heth, husdc⟩

/-- 7 wei received, 100 more in a call that fails, a prefund, a payment of 10 wei, 2 of
    3 USDC for gas, and an emergency withdrawal that is not over yet. -/
def withdrawing : List (Label Block Input) :=
  [.call (.receive 7), .call .foreign, .call (.receive 100), .answer false,
    .call (.receiveUsdc (3 * 10 ^ 6)),
    .call (.validateUserOp 0x101 (testOp 0x707 0 [] [] testSender_lt) 0 (171000 * 10 ^ 9)),
    .call (.execute 0x101 ⟨0x909, 10, []⟩), .answer true,
    .call (.payForGasInUsdc 0x303 60000 (2 * 10 ^ 6)), .answer true,
    .call (.requestEmergencyWithdraw 0x202), .advance (blockAt 173800 dueTime_lt),
    .call (.emergencyWithdraw 0x202 0x808)]

theorem balances_conserved_withdrawing :
    ∃ m t, run (account ownerEnv testConfig) (launched (blockAt 1000 testTime_lt) ether 0)
        withdrawing = some m ∧
      run (tallied (account ownerEnv testConfig) received)
        (withTally ⟨0, 0⟩ (launched (blockAt 1000 testTime_lt) ether 0)) withdrawing = some t ∧
      forget t = m ∧ 0 + (10 + 171000 * 10 ^ 9 + 0) + (ether + 7 - 10 - 171000 * 10 ^ 9) =
        ether + t.world.2.eth ∧ 10 ^ 6 + (2 * 10 ^ 6 + 0) = 0 + t.world.2.usdc := by
  have hrun : (run (account ownerEnv testConfig) (launched (blockAt 1000 testTime_lt) ether 0)
      withdrawing).map (fun m => (m.world.balance, sumSince ethSent 0 m.world.journal,
        sumSince prefundSent 0 m.world.journal, sumSince ethWithdrawn 0 m.world.journal,
        inFlightOf (m.stack.map Frame.pending))) =
      some (0, 10, 171000 * 10 ^ 9, 0, ether + 7 - 10 - 171000 * 10 ^ 9) := by
    decide +kernel
  have hrunUsdc : (run (account ownerEnv testConfig) (launched (blockAt 1000 testTime_lt) ether 0)
      withdrawing).map (fun m => (m.world.usdcBalance, sumSince usdcSent 0 m.world.journal,
        sumSince usdcWithdrawn 0 m.world.journal)) = some (10 ^ 6, 2 * 10 ^ 6, 0) := by
    decide +kernel
  obtain ⟨m, hm, hsums⟩ := Option.map_eq_some_iff.mp hrun
  rw [hm, Option.map_some] at hrunUsdc
  simp only [Prod.mk.injEq] at hsums
  simp only [Option.some.injEq, Prod.mk.injEq] at hrunUsdc
  obtain ⟨t, ht, hforget, heth, husdc⟩ := balances_conserved _ _ _ _ _ _ m hm
  rw [hsums.1, hsums.2.1, hsums.2.2.1, hsums.2.2.2.1, hsums.2.2.2.2] at heth
  rw [hrunUsdc.1, hrunUsdc.2.1, hrunUsdc.2.2] at husdc
  exact ⟨m, t, hm, ht, hforget, heth, husdc⟩

end BoundedSpending.AccountBalances
