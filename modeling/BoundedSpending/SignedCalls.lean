import BoundedSpending.AuthorisedOperations
import BoundedSpending.AccountProjection
import BoundedSpending.AccountLedger

set_option autoImplicit false

namespace BoundedSpending.SignedCalls

open CheckedArithmetic TimedLog CallDataDecoder UserOperations SpendRecorders Preflight NestedCalls
open AccountRules AccountLedger
open EntryPointState BundleHandler EntryPointMachine EntryPointEffects CallOrigins EntryPointRules
open EntryPointSolvency SettledOperations NonceOrder SealedEvents AuthorisedOperations
open AccountProjection

def ethAccounted : Event → ℕ
  | .accounted eth _ => eth
  | _ => 0

/-- The ether sent so far and that of the calls still to be made is what was accounted for. -/
def Sent (w : World) (ks : List AccountMachine.Pending) : Prop :=
  sumSince ethSent 0 w.journal + ethDueOf ks = sumSince ethAccounted 0 w.journal

section Account

variable {env : Env} {cfg : Config} {block : Block} {w w' : World}
  {ks ks' : List AccountMachine.Pending}

theorem Sent.event (h : Sent w ks) (now : ℕ) (event : Event) (hsent : ethSent event = 0)
    (haccounted : ethAccounted event = 0) (hdue : ethDueOf ks' = ethDueOf ks) :
    Sent (AccountMachine.logged w now [event]) ks' := by
  unfold Sent at h ⊢
  change (if 0 ≤ now then ethSent event else 0) + sumSince ethSent 0 w.journal + ethDueOf ks' =
    (if 0 ≤ now then ethAccounted event else 0) + sumSince ethAccounted 0 w.journal
  rw [if_pos now.zero_le, if_pos now.zero_le, hsent, haccounted, hdue]
  omega

theorem doCalls_sent {now : ℕ} {calls : List Call}
    (h : sumSince ethSent 0 w.journal + (ethSum calls + ethDueOf ks) =
      sumSince ethAccounted 0 w.journal) :
    (AccountMachine.doCalls now w calls).Keeps Sent ks := by
  apply keeps_doCalls
  · rintro rfl
    exact (congrArg _ (Nat.zero_add _)).symm.trans h
  · rintro call rest rfl _
    have hsum : ethSum (call :: rest) = call.value + ethSum rest := List.sum_cons
    change (if 0 ≤ now then call.value else 0) + sumSince ethSent 0 w.journal +
      (ethSum rest + ethDueOf ks) = (if 0 ≤ now then 0 else 0) + sumSince ethAccounted 0 w.journal
    rw [if_pos now.zero_le, ite_self]
    omega

theorem spendAndCall_sent (h : Sent w ks) (sender : Address) (call : SpendCall) :
    (AccountMachine.spendAndCall cfg block.timestamp w sender call).Keeps Sent ks := by
  apply keeps_spendAndCall
  intro s events _ hok
  obtain ⟨eth, hspend, _, _, _, _, rfl, rfl⟩ := validateAndRecordSpend_eq_ok.mp hok
  have heth : eth = ethSum call.calls := (SpendCall.spend_eq_ok hspend).2.1
  apply doCalls_sent
  unfold Sent at h
  rw [← heth]
  by_cases hpos : 0 < eth
  · simp only [AccountMachine.logged, stamped, spendEvents, if_pos hpos, lt_irrefl, if_false,
      List.nil_append, List.map_cons, List.map_nil, List.cons_append, sumSince, ethSent,
      ethAccounted, zero_le, if_true]
    omega
  · simp only [AccountMachine.logged, stamped, spendEvents, if_neg hpos, lt_irrefl, if_false,
      List.nil_append, List.map_cons, List.map_nil, List.cons_append, sumSince, ethSent,
      ethAccounted, zero_le, if_true]
    omega

theorem transferUsdc_sent (h : Sent w ks) {now amount : ℕ}
    (ht : AccountMachine.transferUsdc env now w amount = some w') : Sent w' ks := by
  unfold AccountMachine.transferUsdc at ht
  split_ifs at ht
  · obtain rfl := Option.some.inj ht
    have hpaid : Sent { w with usdcBalance := w.usdcBalance - amount } ks := h
    exact hpaid.event _ _ rfl rfl rfl
  · obtain rfl := Option.some.inj ht
    exact h

theorem withdrawUsdcPart_sent (h : Sent w ks) (recipient ethAmount : ℕ) :
    (AccountMachine.withdrawUsdcPart env block.timestamp w recipient ethAmount).Keeps Sent ks := by
  apply keeps_withdrawUsdcPart
  · exact h
  · exact h.event _ _ rfl rfl rfl

theorem enter_sent (h : Sent w ks) (input : AccountMachine.Input) :
    ((AccountMachine.account env cfg).enter block w input).Keeps Sent ks := by
  cases input with
  | validateUserOp sender op userOpHash missingAccountFunds =>
    apply keeps_validateUserOp
    intro validationData s _ _
    have hstored : Sent { w with storage := s } ks := h
    have hvalidated := hstored.event block.timestamp .validated rfl rfl rfl
    unfold AccountMachine.payPrefund
    split_ifs
    · exact hvalidated.event _ (.prefundPaid missingAccountFunds) rfl rfl rfl
    · exact hvalidated
  | execute sender call => exact spendAndCall_sent h sender (.execute call)
  | executeBatch sender calls => exact spendAndCall_sent h sender (.executeBatch calls)
  | payForGasInUsdc sender gasLeft amount =>
    apply keeps_payForGasInUsdc
    intro s events _ hok
    obtain ⟨_, _, _, rfl⟩ := applyUsdcSpend_eq_ok.mp hok
    have hstored : Sent { w with storage := s } ks := h
    exact hstored.event _ _ rfl rfl rfl
  | requestEmergencyWithdraw sender =>
    apply keeps_requestEmergencyWithdraw
    intro _
    exact h.event _ .emergencyWithdrawRequested rfl rfl rfl
  | emergencyWithdraw sender recipient =>
    have hpassed : Sent (AccountMachine.logged
        { w with storage.emergencyWithdrawRequestTime := 0 } block.timestamp
        [.withdrawGuardsPassed]) ks := h.event _ .withdrawGuardsPassed rfl rfl rfl
    apply keeps_emergencyWithdraw
    · exact fun _ _ => hpassed
    · exact fun _ => withdrawUsdcPart_sent hpassed recipient 0
  | _ => exact h

theorem resume_sent {k : AccountMachine.Pending} (h : Sent w (k :: ks)) (ok : Bool) :
    ((AccountMachine.account env cfg).resume block w k ok).Keeps Sent ks := by
  apply keeps_resume
  cases k with
  | calls call rest =>
    simp only [AccountMachine.account, AccountMachine.resume]
    split_ifs
    · cases ht : AccountMachine.transferUsdc env block.timestamp w
          (AccountMachine.transferAmount call.data) with
      | none => trivial
      | some v => exact doCalls_sent (transferUsdc_sent h ht)
    · exact doCalls_sent h
  | gasPayment amount =>
    apply keeps_gasPayment
    intro w' ht
    have hpaid : Sent w ks := h
    exact transferUsdc_sent hpaid ht
  | withdrawEth recipient ethAmount =>
    have hpaid : Sent w ks := h
    exact withdrawUsdcPart_sent hpaid recipient ethAmount
  | withdrawUsdc recipient ethAmount usdcAmount =>
    apply keeps_withdrawUsdc
    intro _
    have hpaid : Sent { w with usdcBalance := w.usdcBalance - usdcAmount } ks := h
    exact hpaid.event _ _ rfl rfl rfl
  | «foreign» => exact h

/-- Ether comes with a spend's calls and with a withdrawal's first; the others go to the token. -/
def Funded : AccountMachine.Pending → Prop
  | .calls call rest => Payments (call :: rest)
  | .withdrawEth _ ethAmount => 0 < ethAmount
  | _ => True

def AllFunded (_ : World) (ks : List AccountMachine.Pending) : Prop := ∀ k ∈ ks, Funded k

theorem AllFunded.push {k : AccountMachine.Pending} (h : AllFunded w ks) (hk : Funded k) :
    AllFunded w (k :: ks) := List.forall_mem_cons.mpr ⟨hk, h⟩

theorem doCalls_funded (h : AllFunded w ks) {now : ℕ} {calls : List Call}
    (hpay : Payments calls) : (AccountMachine.doCalls now w' calls).Keeps AllFunded ks := by
  apply keeps_doCalls
  · intro _
    exact h
  · rintro call rest rfl _
    exact h.push hpay

theorem spendAndCall_funded (h : AllFunded w ks) (now : ℕ) (sender : Address) (call : SpendCall) :
    (AccountMachine.spendAndCall cfg now w sender call).Keeps AllFunded ks := by
  apply keeps_spendAndCall
  intro s events _ hok
  obtain ⟨eth, hspend, _⟩ := validateAndRecordSpend_eq_ok.mp hok
  exact doCalls_funded h (SpendCall.spend_eq_ok hspend).1

theorem withdrawUsdcPart_funded (h : AllFunded w ks) (recipient ethAmount : ℕ) :
    (AccountMachine.withdrawUsdcPart env block.timestamp w' recipient ethAmount).Keeps
      AllFunded ks := by
  apply keeps_withdrawUsdcPart
  · exact h.push trivial
  · exact h

theorem account_funded (env : Env) (cfg : Config) :
    Invariant (AccountMachine.account env cfg) (fun _ _ _ => True) fun _ => AllFunded where
  advance := fun _ _ _ _ h => h
  enter := by
    intro block w ks input _ h
    cases input with
    | validateUserOp sender op userOpHash missingAccountFunds =>
      apply keeps_validateUserOp
      intro _ _ _ _
      exact h
    | execute sender call => exact spendAndCall_funded h _ sender (.execute call)
    | executeBatch sender calls => exact spendAndCall_funded h _ sender (.executeBatch calls)
    | payForGasInUsdc sender gasLeft amount =>
      apply keeps_payForGasInUsdc
      intro _ _ _ _
      exact h.push trivial
    | requestEmergencyWithdraw sender =>
      apply keeps_requestEmergencyWithdraw
      intro _
      exact h
    | emergencyWithdraw sender recipient =>
      apply keeps_emergencyWithdraw
      · intro _ hfunds
        exact h.push hfunds
      · intro _
        exact withdrawUsdcPart_funded h recipient 0
    | «foreign» => exact h.push trivial
    | _ => exact h
  resume := by
    intro block w k ks ok h
    obtain ⟨hk, hks⟩ := List.forall_mem_cons.mp h
    have hbelow : AllFunded w ks := hks
    apply keeps_resume
    cases k with
    | calls call rest =>
      have hpay : Payments rest := fun c hc => hk c (List.mem_cons_of_mem _ hc)
      simp only [AccountMachine.account, AccountMachine.resume]
      split_ifs
      · cases AccountMachine.transferUsdc env block.timestamp w
            (AccountMachine.transferAmount call.data) with
        | none => trivial
        | some v => exact doCalls_funded hbelow hpay
      · exact doCalls_funded hbelow hpay
    | gasPayment amount =>
      apply keeps_gasPayment
      intro _ _
      exact hbelow
    | withdrawEth recipient ethAmount => exact withdrawUsdcPart_funded hbelow recipient ethAmount
    | withdrawUsdc recipient ethAmount usdcAmount =>
      apply keeps_withdrawUsdc
      intro _
      exact hbelow
    | «foreign» => exact hbelow

theorem account_sent (env : Env) (cfg : Config) :
    Invariant (AccountMachine.account env cfg) (fun _ _ _ => True) fun _ w ks => Sent w ks where
  advance := fun _ _ _ _ h => h
  enter := fun _ _ _ input _ h => enter_sent h input
  resume := fun _ _ _ _ ok h => resume_sent h ok

theorem sumSince_ethAccounted (log : Journal) :
    sumSince ethAccounted 0 log = ((log.filterMap fun e => accountedOf e.2).map Prod.fst).sum := by
  induction log with
  | nil => rfl
  | cons e log ih =>
    obtain ⟨time, event⟩ := e
    have hcons : sumSince ethAccounted 0 ((time, event) :: log) =
        ethAccounted event + sumSince ethAccounted 0 log := by
      rw [sumSince, if_pos time.zero_le]
    rw [hcons, ih]
    cases event with
    | accounted eth usdc => rfl
    | _ => exact Nat.zero_add _

end Account

/-- The ether that the calls of an operation are to carry. -/
def asked (op : PackedUserOperation) : ℕ :=
  match decodeSpendCall op.callData with
  | .ok spend => ethSum spend.calls
  | .error _ => 0

variable {d : Deployment} {block : Block} {s : System} {labels : List (Label Block (Input d))}
  {m : Machine Block System Pending} {o : Obligations}

theorem asked_of_asksFor {op : PackedUserOperation} {totals : ℕ × ℕ} (h : AsksFor op totals) :
    totals = (asked op, 0) := by
  obtain ⟨eth, usdc⟩ := totals
  obtain ⟨spend, hdecode, hspend⟩ := h
  obtain ⟨_, rfl, rfl⟩ := SpendCall.spend_eq_ok hspend
  rw [asked, hdecode]

theorem asked_sum {ops : List PackedUserOperation} {spends : List (ℕ × ℕ)}
    (h : List.Forall₂ AsksFor ops spends) : (spends.map Prod.fst).sum = (ops.map asked).sum := by
  induction h with
  | nil => rfl
  | cons hasks _ ih =>
    rw [List.map_cons, List.map_cons, List.sum_cons, List.sum_cons, ih, asked_of_asksFor hasks]

theorem run_sent (hrun : Run d block labels m) :
    Sent m.world.account (accountCalls (m.stack.map Frame.pending)) :=
  (run_agrees (lifted_closed (account_sent d.env d.config)) (fun _ _ _ _ _ => rfl) hrun).holds.2

def calledWith : AccountMachine.Pending → Option (Address × ℕ)
  | .calls call _ => some (call.target, call.value)
  | .gasPayment _ => some (usdc, 0)
  | .withdrawEth recipient ethAmount => some (recipient, ethAmount)
  | .withdrawUsdc _ _ _ => some (usdc, 0)
  | .foreign => none

/-- Every call that the account has out carries ether or goes to the token; so none is to a
    function that takes no ether, as `unlockStake`, `withdrawStake`, `withdrawTo` and
    `incrementNonce` do. -/
theorem calls_funded (hrun : Run d block labels m) {frame : Frame System Pending}
    (hmem : frame ∈ m.stack) {pending : AccountMachine.Pending}
    (haccount : accountCall frame.pending = some pending) {target value : ℕ}
    (hcall : calledWith pending = some (target, value)) : target = usdc ∨ 0 < value := by
  have hfunded : AllFunded m.world.account (accountCalls (m.stack.map Frame.pending)) :=
    (run_agrees (lifted_closed (account_funded d.env d.config))
      (fun _ _ _ _ _ _ hmem => nomatch hmem) hrun).holds.2
  have hpending : Funded pending :=
    hfunded pending (List.mem_filterMap.mpr ⟨_, List.mem_map_of_mem hmem, haccount⟩)
  cases pending with
  | calls call rest =>
    obtain ⟨rfl, rfl⟩ := Prod.mk.inj (Option.some.inj hcall)
    exact .inr (hpending call List.mem_cons_self).2
  | withdrawEth recipient ethAmount =>
    obtain ⟨rfl, rfl⟩ := Prod.mk.inj (Option.some.inj hcall)
    exact .inr hpending
  | gasPayment amount => exact .inl (Prod.mk.inj (Option.some.inj hcall)).1.symm
  | withdrawUsdc recipient ethAmount usdcAmount =>
    exact .inl (Prod.mk.inj (Option.some.inj hcall)).1.symm
  | «foreign» => cases hcall

/-- In every state of every run, the ether that the account's calls have carried and that of
    the calls still to be made is what operations ask for that the owner signed, each with a
    nonce of its own. -/
theorem ether_sent (hrun : Run d block labels m) :
    ∃ ops : List PackedUserOperation,
      (∀ op ∈ ops, op.sender = d.account ∧ OwnerSigned d op) ∧
      (ops.map PackedUserOperation.nonce).Nodup ∧
      sumSince ethSent 0 m.world.account.journal +
        ethDueOf (accountCalls (m.stack.map Frame.pending)) = (ops.map asked).sum := by
  have h := run_authorised hrun
  refine ⟨ranOps m.world, h.ranOps_signed, nonces_nodup hrun h.ranOps_sublist h.own, ?_⟩
  calc sumSince ethSent 0 m.world.account.journal +
        ethDueOf (accountCalls (m.stack.map Frame.pending))
    _ = sumSince ethAccounted 0 m.world.account.journal := run_sent hrun
    _ = ((accountedSpends m.world.account).map Prod.fst).sum := sumSince_ethAccounted _
    _ = ((ranOps m.world).map asked).sum := asked_sum h.spends

theorem ether_sent_midway : ∃ m, Run testDeployment (blockAt 1000 testTime_lt)
    (paymentBundle 0 ++ [.call (.handleOps [paymentItem 1] 0xb11)]) m ∧
      ∃ ops : List PackedUserOperation, (∀ op ∈ ops, OwnerSigned testDeployment op) ∧
        (ops.map PackedUserOperation.nonce).Nodup ∧ (ops.map asked).sum = ether / 5 := by
  have hrun : (run (entryPoint testDeployment) testStart
      (paymentBundle 0 ++ [.call (.handleOps [paymentItem 1] 0xb11)])).map (fun m =>
        sumSince ethSent 0 m.world.account.journal +
          ethDueOf (accountCalls (m.stack.map Frame.pending))) = some (ether / 5) := by
    decide +kernel
  obtain ⟨m, hm, hsum⟩ := Run.of_map (by decide +kernel) hrun
  obtain ⟨ops, hsigned, hnonces, hsent⟩ := ether_sent hm
  exact ⟨m, hm, ops, fun op hmem => (hsigned op hmem).2, hnonces, hsent.symm.trans hsum⟩

theorem ranOps_running {x : Execution} (h : Authorised d s (some (Execution.obligations x true)))
    (hsender : x.prepaid.info.mUserOp.sender = d.account)
    (hcallData : HasCallData x.prepaid.item.op = true) :
    ∃ older spends, ranOps s = x.prepaid.item.op :: older ∧
      accountedSpends s.account = (asked x.prepaid.item.op, 0) :: spends := by
  obtain ⟨ops, hran, _⟩ := h.reported
  have haccepted : acceptedOp d (some (Execution.obligations x true)) = [x.prepaid.item.op] :=
    if_pos hsender
  rw [haccepted, List.singleton_append, List.filter_cons_of_pos hcallData] at hran
  have hspends := h.spends
  rw [hran] at hspends
  cases hspends' : accountedSpends s.account with
  | nil =>
    rw [hspends'] at hspends
    exact nomatch hspends
  | cons totals spends =>
    rw [hspends'] at hspends
    exact ⟨_, spends, hran, by rw [asked_of_asksFor (List.forall₂_cons.mp hspends).1]⟩

/-- In every state of every run, whoever has called back in: a call that the account has out
    for a spend, and the calls that are to follow it, are named in this order by an operation
    that the owner signed; and the whole operation has been accounted for, as the last. -/
theorem calls_signed (hrun : Run d block labels m) {frame : Frame System Pending}
    (hmem : frame ∈ m.stack) {call : Call} {rest : List Call}
    (hcall : accountCall frame.pending = some (.calls call rest)) :
    ∃ op spend made, op.sender = d.account ∧ OwnerSigned d op ∧
      decodeSpendCall op.callData = .ok spend ∧ spend.calls = made ++ call :: rest ∧
      (accountedSpends m.world.account).head? = some (ethSum spend.calls, 0) := by
  have hagrees := solvent_agrees hrun
  have hpending := List.mem_map_of_mem (f := Frame.pending) hmem
  have hformed := hagrees.background.formed _ hpending
  cases hk : frame.pending with
  | account pending =>
    rw [hk] at hcall hformed
    obtain rfl := Option.some.inj hcall
    exact hformed.elim
  | execution x c =>
    rw [hk] at hcall hformed hpending
    cases c with
    | callData saved => cases hcall
    | postOp saved mode => cases hcall
    | accountCallData saved pending =>
      obtain rfl := Option.some.inj hcall
      obtain ⟨hsender, hnamed⟩ := hformed
      cases hnamed with
      | @calls spend made _ _ hdecode horder =>
        have hopen : openObligations m = some (Execution.obligations x true) := by
          have hone : Execution.obligations x true ∈
              (m.stack.map Frame.pending).filterMap obligations :=
            List.mem_filterMap.mpr ⟨_, hpending, rfl⟩
          obtain ⟨o, ho⟩ := List.length_eq_one_iff.mp
            (le_antisymm hagrees.single (List.length_pos_of_mem hone))
          rw [ho] at hone
          rw [openObligations, ho, List.mem_singleton.mp hone]
          rfl
        have h := run_authorised hrun
        rw [hopen] at h
        obtain ⟨older, spends, hran, hspends⟩ :=
          ranOps_running h hsender (hasCallData_of_decode hdecode)
        obtain ⟨hown, hsigned⟩ := h.ranOps_signed x.prepaid.item.op (by rw [hran]; simp)
        refine ⟨x.prepaid.item.op, spend, made, hown, hsigned, hdecode, horder, ?_⟩
        rw [hspends, asked, hdecode]
        rfl
  | _ =>
    rw [hk] at hcall
    cases hcall

theorem calls_signed_reentered : ∃ m, Run testDeployment (blockAt 1000 testTime_lt)
    [.call (.handleOps [paymentItem 0] 0xb11), .call .foreign,
      .call (.handleOps [paymentItem 1] 0xb12)] m ∧ m.stack.length = 2 ∧
      ∃ op spend made, op.sender = 0x707 ∧ OwnerSigned testDeployment op ∧
        decodeSpendCall op.callData = .ok spend ∧
        spend.calls = made ++ [⟨0x909, ether / 10, []⟩] ∧
        (accountedSpends m.world.account).head? = some (ethSum spend.calls, 0) := by
  have hrun : (run (entryPoint testDeployment) testStart
      [.call (.handleOps [paymentItem 0] 0xb11), .call .foreign,
        .call (.handleOps [paymentItem 1] 0xb12)]).map (fun m =>
          m.stack.map fun frame => accountCall frame.pending) =
        some [none, some (.calls ⟨0x909, ether / 10, []⟩ [])] := by
    decide +kernel
  obtain ⟨m, hm, hstack⟩ := Run.of_map (by decide +kernel) hrun
  have hmem : some (AccountMachine.Pending.calls ⟨0x909, ether / 10, []⟩ []) ∈
      m.stack.map fun frame => accountCall frame.pending := by
    rw [hstack]
    exact List.mem_cons_of_mem _ List.mem_cons_self
  have hlength : m.stack.length = 2 := by
    have hmap := congrArg List.length hstack
    rwa [List.length_map] at hmap
  obtain ⟨frame, hframe, hcall⟩ := List.mem_map.mp hmem
  exact ⟨m, hm, hlength, calls_signed hm hframe hcall⟩

end BoundedSpending.SignedCalls
