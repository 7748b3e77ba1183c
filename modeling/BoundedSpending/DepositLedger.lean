import BoundedSpending.SettledOperations

set_option autoImplicit false

namespace BoundedSpending.DepositLedger

open CheckedArithmetic UserOperations NestedCalls Holdings OrderedLogs
open EntryPointState StakeManager BundleHandler EntryPointMachine EntryPointEffects EntryPointRules
open EntryPointSolvency SettledOperations

def creditOf : EntryPointEvent → Option (Address × ℕ)
  | .credited account amount => some (account, amount)
  | _ => none

def withdrawalOf : EntryPointEvent → Option (Address × ℕ)
  | .withdrawn account _ amount => some (account, amount)
  | _ => none

def compensationOf : EntryPointEvent → Option ℕ
  | .compensated _ amount => some amount
  | _ => none

def deposits (s : System) : Address → ℕ := fun a => (s.deposits a).deposit

def credits (s : System) : List (Address × ℕ) := s.journal.filterMap fun e => creditOf e.2

def withdrawals (s : System) : List (Address × ℕ) := s.journal.filterMap fun e => withdrawalOf e.2

def compensations (s : System) : List ℕ := s.journal.filterMap fun e => compensationOf e.2

def bills (s : System) : List (Address × ℕ) :=
  (settlements s).map fun e => (e.payer, e.actualGasCost)

def onHold (o : Option Obligations) : List (Address × ℕ) :=
  (pending o).map fun p => (p.info.payer, p.info.prefund)

def collected (o : Option Obligations) : ℕ := (o.map Obligations.collected).getD 0

structure Balanced (d : Deployment) (s : System) (o : Option Obligations) : Prop where
  ledger : Ledger (deposits s) (withdrawals s ++ bills s ++ onHold o) (credits s)
  fees : ((settlements s).map Settlement.actualGasCost).sum = (compensations s).sum + collected o
  own : ∀ w ∈ withdrawals s, w.1 ≠ d.account

variable {d : Deployment} {block : Block} {s s' : System} {o o' : Option Obligations} {now : ℕ}

theorem deposits_setInfo (s : System) (a : Address) (info : DepositInfo) :
    deposits (setInfo s a info) = Function.update (deposits s) a info.deposit := by
  funext b
  by_cases hb : b = a
  · subst hb
    simp only [deposits, setInfo, Function.update_self]
  · simp only [deposits, setInfo, Function.update_of_ne hb]

theorem deposits_setInfo_same {a : Address} {info : DepositInfo}
    (h : info.deposit = (s.deposits a).deposit) : deposits (setInfo s a info) = deposits s := by
  rw [deposits_setInfo, h]
  exact Function.update_eq_self a (deposits s)

structure SameEntries (s s' : System) : Prop where
  credits : credits s' = credits s
  withdrawals : withdrawals s' = withdrawals s
  compensations : compensations s' = compensations s
  settlements : settlements s' = settlements s

theorem SameEntries.rfl : SameEntries s s := ⟨Eq.refl _, Eq.refl _, Eq.refl _, Eq.refl _⟩

theorem Balanced.same (h : Balanced d s o) (hentries : SameEntries s s')
    (hdeposits : deposits s' = deposits s) (honHold : onHold o' = onHold o)
    (hcollected : collected o' = collected o) : Balanced d s' o' := by
  obtain ⟨hcredits, hwithdrawals, hcompensations, hsettlements⟩ := hentries
  refine ⟨?_, ?_, ?_⟩
  · rw [hdeposits, hwithdrawals, bills, hsettlements, honHold, hcredits]
    exact h.ledger
  · rw [hsettlements, hcompensations, hcollected]
    exact h.fees
  · rw [hwithdrawals]
    exact h.own

theorem deposit_le (h : Solvent block s o) (a : Address) : deposits s a + due o ≤ s.balance :=
  (Nat.add_le_add_right (Nat.le_add_right _ _) _).trans (h.covered.holding_le a)

theorem balanced_depositTo {amount : ℕ} (h : Balanced d s o) (a : Address)
    (hfits : deposits s a + amount < wordSize) :
    Balanced d (depositTo now s a amount) o := by
  refine ⟨?_, h.fees, h.own⟩
  change Ledger (deposits (setInfo _ a _)) _ ((a, amount) :: credits s)
  rw [deposits_setInfo]
  exact h.ledger.credit (uncheckedAdd_of_lt hfits)

theorem balanced_withPaid {account : World} (h : Balanced d s o) (hsolvent : Solvent block s o) :
    Balanced d (withPaid d now s account) o := by
  have hsupplied := hsolvent.supplied
  have hdeposit := deposit_le hsolvent d.account
  unfold Supplied at hsupplied
  simp only [withPaid]
  split_ifs with hpaid
  · apply balanced_depositTo (s := { s with account := account })
    · exact h.same ⟨rfl, rfl, rfl, rfl⟩ rfl rfl rfl
    · change deposits s d.account + _ < wordSize
      omega
  · exact h.same ⟨rfl, rfl, rfl, rfl⟩ rfl rfl rfl

theorem Balanced.accepted {v : Validation} {validationData : ℕ} (h : Balanced d s o)
    (hsolvent : Solvent block s o) (haccepted : Accepted d block s v validationData s') :
    Balanced d s' o := by
  cases haccepted with
  | account hsender hok =>
    obtain ⟨account, _, rfl⟩ := validateByAccount_eq_ok.mp hok
    exact balanced_withPaid h hsolvent
  | other hsender validationData => exact h

section Operations

variable {waiting : List Prepaid} {fees : ℕ} {p : Prepaid} {accepted : Bool}

theorem onHold_running : onHold (some ⟨none, waiting, some (p, accepted), fees⟩) =
    (p.info.payer, p.info.prefund) :: onHold (some ⟨none, waiting, none, fees⟩) := by
  rw [onHold, onHold, pending_running, pending_waiting]
  rfl

theorem onHold_started : onHold (some ⟨none, waiting, some (p, accepted), fees⟩) =
    onHold (some ⟨none, p :: waiting, none, fees⟩) := by
  rw [onHold, onHold, pending_running, pending_waiting]

theorem onHold_unchecked {validationData : ℕ} :
    onHold (some ⟨some (p, validationData), waiting, none, fees⟩) =
      onHold (some ⟨none, waiting, none, fees⟩) ++ [(p.info.payer, p.info.prefund)] := by
  rw [onHold, onHold, pending_unchecked, pending_waiting, List.map_append]
  rfl

theorem Balanced.settle {cost fees' : ℕ} {e : Settlement}
    (h : Balanced d s (some ⟨none, waiting, some (p, accepted), fees⟩))
    (hcost : cost ≤ p.info.prefund)
    (hfees : fees' = fees + cost) (hsettlements : settlements s' = e :: settlements s)
    (hpayer : e.payer = p.info.payer) (hbill : e.actualGasCost = cost)
    (hcredits : credits s' = credits s) (hwithdrawals : withdrawals s' = withdrawals s)
    (hcompensations : compensations s' = compensations s)
    (hdeposits : deposits s' = Function.update (deposits s) p.info.payer
      (deposits s p.info.payer + (p.info.prefund - cost))) :
    Balanced d s' (some ⟨none, waiting, none, fees'⟩) := by
  obtain ⟨hledger, htotal, hown⟩ := h
  refine ⟨?_, ?_, ?_⟩
  · rw [onHold_running] at hledger
    have hadjusted := (hledger.perm List.perm_middle).adjust
      (show deposits s p.info.payer + (p.info.prefund - cost) + cost = _ by omega)
    rw [hdeposits, hcredits, hwithdrawals, bills, hsettlements, List.map_cons, hpayer, hbill]
    apply hadjusted.perm
    rw [List.append_assoc, List.append_assoc]
    exact List.perm_middle.symm
  · rw [hsettlements, hcompensations, List.map_cons, List.sum_cons, htotal, hbill, hfees]
    change cost + ((compensations s).sum + fees) = (compensations s).sum + (fees + cost)
    omega
  · rw [hwithdrawals]
    exact hown

end Operations

theorem balanced_closed : Closed d fun block s o _ => Solvent block s o ∧ Balanced d s o where
  advance := fun _ _ _ _ h => ⟨⟨h.1.covered, h.1.supplied⟩, h.2⟩
  effect := by
    intro block s o calls s' o' calls' h heffect
    obtain ⟨hsolvent, h⟩ := h
    refine ⟨solvent_closed.effect block s o calls s' o' calls' hsolvent heffect, ?_⟩
    have hsupplied := hsolvent.supplied
    unfold Supplied at hsupplied
    cases heffect with
    | deposited account amount hfits =>
      have hdeposit := deposit_le hsolvent account
      unfold Fits at hfits
      exact balanced_depositTo h account (by omega)
    | stakeAdded sender unstakeDelaySec amount hfits hok =>
      obtain ⟨_, _, _, _, _, rfl⟩ := addStake_eq_ok.mp hok
      exact h.same ⟨rfl, rfl, rfl, rfl⟩ (deposits_setInfo_same rfl) rfl rfl
    | stakeUnlocked sender hok =>
      obtain ⟨_, _, _, rfl⟩ := unlockStake_eq_ok.mp hok
      exact h.same ⟨rfl, rfl, rfl, rfl⟩ (deposits_setInfo_same rfl) rfl rfl
    | stakeWithdrawn sender withdrawAddress hok =>
      obtain ⟨_, _, _, _, rfl⟩ := withdrawStake_eq_ok.mp hok
      exact h.same ⟨rfl, rfl, rfl, rfl⟩ (deposits_setInfo_same rfl) rfl rfl
    | withdrawn sender withdrawAddress amount hsender hok =>
      obtain ⟨hle, _, rfl⟩ := withdrawTo_eq_ok.mp hok
      refine ⟨?_, h.fees, ?_⟩
      · change Ledger (deposits (setInfo _ sender _)) ((sender, amount) :: _) (credits s)
        rw [deposits_setInfo]
        exact h.ledger.debit (Nat.sub_add_cancel hle)
      · intro w hmem
        rcases List.mem_cons.mp hmem with rfl | hmem
        · exact hsender
        · exact h.own w hmem
    | nonceSkipped sender key hsender hok =>
      obtain ⟨_, rfl⟩ := incrementNonce_eq_ok.mp hok
      exact h.same ⟨rfl, rfl, rfl, rfl⟩ rfl rfl rfl
    | remarked e hremark =>
      cases e <;> first | exact hremark.elim | exact h.same ⟨rfl, rfl, rfl, rfl⟩ rfl rfl rfl
    | prepaid v hprepared haccepted hcharge =>
      obtain ⟨hle, _, _, rfl⟩ := charge_eq_ok.mp hcharge
      obtain ⟨hledger, hfees, hown⟩ := h.accepted hsolvent haccepted
      refine ⟨?_, hfees, hown⟩
      change Ledger (deposits (setInfo _ v.info.payer _)) _ _
      rw [deposits_setInfo, onHold_unchecked, ← List.append_assoc]
      exact (hledger.debit (Nat.sub_add_cancel hle)).perm (List.perm_append_singleton _ _).symm
    | checked v haggregator hfinish =>
      obtain ⟨_, hprefund, hmemory, _⟩ := finishValidation_prefund hfinish
      refine h.same SameEntries.rfl rfl ?_ rfl
      rw [onHold_unchecked, onHold, onHold, pending_waiting, pending_waiting, List.map_append,
        List.map_singleton, hprefund, UserOpInfo.payer, hmemory]
      rfl
    | started =>
      exact h.same SameEntries.rfl rfl onHold_started rfl
    | refunded accepted cost gas hcost =>
      rename_i p waiting fees
      have hdeposit := deposit_le hsolvent p.info.payer
      rw [due_running] at hdeposit
      have hrefund := uncheckedAdd_of_lt
        (show deposits s p.info.payer + (p.info.prefund - cost) < wordSize by omega)
      have hdeposits : deposits (refundPrefund block.timestamp s p.info accepted cost gas) =
          Function.update (deposits s) p.info.payer
            (deposits s p.info.payer + (p.info.prefund - cost)) := by
        rw [← hrefund]
        exact deposits_setInfo _ _ _
      exact h.settle hcost (uncheckedAdd_of_lt (by omega)) rfl rfl rfl rfl rfl rfl hdeposits
    | kept gas =>
      rename_i p waiting fees
      have hdeposit := deposit_le hsolvent p.info.payer
      rw [due_running] at hdeposit
      have hdeposits : deposits (keepPrefund block.timestamp s p.info gas) =
          Function.update (deposits s) p.info.payer
            (deposits s p.info.payer + (p.info.prefund - p.info.prefund)) := by
        rw [Nat.sub_self, Nat.add_zero]
        exact (Function.update_eq_self _ _).symm
      exact h.settle (Nat.le_refl _) (uncheckedAdd_of_lt (by omega)) rfl rfl rfl rfl rfl rfl
        hdeposits
    | compensated beneficiary hfunds =>
      obtain ⟨hledger, hfees, hown⟩ := h
      refine ⟨hledger, ?_, hown⟩
      change _ = _ + (compensations s).sum + 0
      rw [Nat.add_zero, Nat.add_comm]
      exact hfees
    | _ => exact h.same ⟨rfl, rfl, rfl, rfl⟩ rfl rfl rfl

theorem run_balanced {labels : List (Label Block (Input d))} {m : Machine Block System Pending}
    (hrun : Run d block labels m) : Balanced d m.world (openObligations m) :=
  (run_agrees balanced_closed (fun _ _ _ _ hsupply =>
    ⟨⟨covered_of_zero (fun _ => rfl) (Nat.zero_le _), hsupply⟩,
      ⟨ledger_of_zero fun _ => rfl, rfl, fun _ hmem => (nomatch hmem)⟩⟩) hrun).holds.2.2

/-- In every state of every run, what was paid in for an address is its deposit, what it
    withdrew, the gas that was billed to it and the prefunds held for it. All bills are
    paid out to beneficiaries or held by the bundle in progress, and the account's deposit
    pays for gas only, since it cannot call `withdrawTo` (`SignedCalls.calls_funded`). -/
theorem deposits_accounted {labels : List (Label Block (Input d))}
    {m : Machine Block System Pending} (hrun : Run d block labels m) :
    (∀ a, (m.world.deposits a).deposit + amountFor a (withdrawals m.world) +
        amountFor a (bills m.world) + amountFor a (onHold (openObligations m)) =
      amountFor a (credits m.world)) ∧
    ((settlements m.world).map Settlement.actualGasCost).sum =
      (compensations m.world).sum + collected (openObligations m) ∧
    (m.world.deposits d.account).deposit + amountFor d.account (bills m.world) +
        amountFor d.account (onHold (openObligations m)) =
      amountFor d.account (credits m.world) := by
  obtain ⟨hledger, hfees, hown⟩ := run_balanced hrun
  have haddress : ∀ a, (m.world.deposits a).deposit + amountFor a (withdrawals m.world) +
      amountFor a (bills m.world) + amountFor a (onHold (openObligations m)) =
        amountFor a (credits m.world) := by
    intro a
    have ha := hledger a
    rw [amountFor_append, amountFor_append] at ha
    rw [← ha, deposits]
    omega
  refine ⟨haddress, hfees, ?_⟩
  have haccount := haddress d.account
  rwa [amountFor_eq_zero hown, Nat.add_zero] at haccount

theorem deposits_accounted_midway : ∃ m, Run testDeployment (blockAt 1000 testTime_lt)
    (paymentBundle 0 ++ [.call (.handleOps [paymentItem 1] 0xb11)]) m ∧
      onHold (openObligations m) = [(0x707, 210000 * 10 ^ 9)] ∧
      (m.world.deposits 0x707).deposit + amountFor 0x707 (bills m.world) +
        amountFor 0x707 (onHold (openObligations m)) = amountFor 0x707 (credits m.world) := by
  have hrun : (run (entryPoint testDeployment) testStart
      (paymentBundle 0 ++ [.call (.handleOps [paymentItem 1] 0xb11)])).map
        (fun m => onHold (openObligations m)) = some [(0x707, 210000 * 10 ^ 9)] := by
    decide +kernel
  obtain ⟨m, hm, hheld⟩ := Run.of_map (by decide +kernel) hrun
  exact ⟨m, hm, hheld, (deposits_accounted hm).2.2⟩

end BoundedSpending.DepositLedger
