import BoundedSpending.EntryPointSolvency
import BoundedSpending.OrderedLogs

set_option autoImplicit false

namespace BoundedSpending.SettledOperations

open CheckedArithmetic UserOperations NestedCalls GasCostOrder OrderedLogs
open EntryPointState StakeManager UserOpHash BundleHandler EntryPointMachine EntryPointEffects
open EntryPointRules EntryPointSolvency

structure Prepayment where
  op : PackedUserOperation
  payer : Address
  prefund : ℕ
  deriving DecidableEq, Repr

structure Settlement where
  userOpHash : ℕ
  sender : Address
  paymaster : Address
  nonce : ℕ
  success : Bool
  actualGasCost : ℕ
  actualGasUsed : ℕ
  deriving DecidableEq, Repr

def prepaymentOf : EntryPointEvent → Option Prepayment
  | .prepaid op payer prefund => some ⟨op, payer, prefund⟩
  | _ => none

def settlementOf : EntryPointEvent → Option Settlement
  | .userOperationEvent userOpHash sender paymaster nonce success actualGasCost actualGasUsed =>
    some ⟨userOpHash, sender, paymaster, nonce, success, actualGasCost, actualGasUsed⟩
  | _ => none

def prepayments (s : System) : List Prepayment := s.journal.filterMap fun e => prepaymentOf e.2

def settlements (s : System) : List Settlement := s.journal.filterMap fun e => settlementOf e.2

def Settlement.payer (e : Settlement) : Address := if e.paymaster = 0 then e.sender else e.paymaster

structure Settles (d : Deployment) (p : Prepayment) (e : Settlement) : Prop where
  sender : e.sender = p.op.sender
  nonce : e.nonce = p.op.nonce
  payer : e.payer = p.payer
  cost : e.actualGasCost ≤ p.prefund
  memory : ∃ mUserOp, copyUserOpToMemory p.op = .ok mUserOp ∧ e.paymaster = mUserOp.paymaster ∧
    p.prefund = getRequiredPrefund mUserOp
  hash : ∃ code, code d.account = .contract ∧
    getUserOpHash d.messageHashUtils d.domainSeparator code p.op = .ok e.userOpHash

/-- The operations under way, in the order in which they will be settled. -/
def Obligations.pending (o : Obligations) : List Prepaid :=
  (o.running.map Prod.fst).toList ++ o.waiting ++ (o.unchecked.map Prod.fst).toList

def pending (o : Option Obligations) : List Prepaid := (o.map Obligations.pending).getD []

def Prepaid.prepayment (p : Prepaid) : Prepayment := ⟨p.item.op, p.info.payer, p.info.prefund⟩

structure Settled (d : Deployment) (s : System) (o : Option Obligations) : Prop where
  formed : ∀ p ∈ pending o, Prepared d p.item.op p.info
  inOrder : InOrder (Settles d) ((pending o).map Prepaid.prepayment) (prepayments s)
    (settlements s)

variable {d : Deployment} {block : Block} {s s' : System} {o o' : Option Obligations}

theorem copyUserOpToMemory_copies {op : PackedUserOperation} {mUserOp : MemoryUserOp}
    (h : copyUserOpToMemory op = .ok mUserOp) :
    mUserOp.sender = op.sender ∧ mUserOp.nonce = op.nonce := by
  unfold copyUserOpToMemory at h
  dsimp only at h
  split_ifs at h with hlength
  · simp only [bind_returns, pure_returns, Prod.exists] at h
    obtain ⟨_, _, _, _, _, _, _, _, rfl⟩ := h
    exact ⟨rfl, rfl⟩
  · obtain rfl := pure_returns.mp h
    exact ⟨rfl, rfl⟩

theorem settles_event {prepaid : Prepaid} (h : Prepared d prepaid.item.op prepaid.info)
    (success : Bool) {cost gas : ℕ} (hcost : cost ≤ prepaid.info.prefund) :
    Settles d (Prepaid.prepayment prepaid) ⟨prepaid.info.userOpHash, prepaid.info.mUserOp.sender,
      prepaid.info.mUserOp.paymaster, prepaid.info.mUserOp.nonce, success, cost, gas⟩ where
  sender := (copyUserOpToMemory_copies h.copied).1
  nonce := (copyUserOpToMemory_copies h.copied).2
  payer := rfl
  cost := hcost
  memory := ⟨prepaid.info.mUserOp, h.copied, rfl, h.prefund⟩
  hash := h.hash

theorem Settled.same (h : Settled d s o) (hpending : pending o' = pending o)
    (hprepayments : prepayments s' = prepayments s)
    (hsettlements : settlements s' = settlements s) : Settled d s' o' := by
  refine ⟨?_, ?_⟩
  · rw [hpending]
    exact h.formed
  · rw [hpending, hprepayments, hsettlements]
    exact h.inOrder

theorem prepayments_withPaid (now : ℕ) (s : System) (account : World) :
    prepayments (withPaid d now s account) = prepayments s := by
  simp only [withPaid]
  split_ifs <;> rfl

theorem settlements_withPaid (now : ℕ) (s : System) (account : World) :
    settlements (withPaid d now s account) = settlements s := by
  simp only [withPaid]
  split_ifs <;> rfl

theorem Settled.accepted {v : Validation} {validationData : ℕ} (h : Settled d s o)
    (haccepted : Accepted d block s v validationData s') : Settled d s' o := by
  cases haccepted with
  | account hsender hok =>
    obtain ⟨account, _, rfl⟩ := validateByAccount_eq_ok.mp hok
    exact h.same rfl (prepayments_withPaid block.timestamp s account)
      (settlements_withPaid block.timestamp s account)
  | other hsender validationData => exact h

section Queue

variable {waiting : List Prepaid} {collected validationData : ℕ}

theorem pending_waiting : pending (some ⟨none, waiting, none, collected⟩) = waiting :=
  List.append_nil waiting

theorem pending_running (p : Prepaid) (accepted : Bool) :
    pending (some ⟨none, waiting, some (p, accepted), collected⟩) = p :: waiting :=
  List.append_nil (p :: waiting)

theorem pending_unchecked (p : Prepaid) :
    pending (some ⟨some (p, validationData), waiting, none, collected⟩) = waiting ++ [p] := rfl

end Queue

theorem Settled.settle {p : Prepaid} {waiting : List Prepaid} {collected collected' : ℕ}
    {accepted : Bool} (h : Settled d s (some ⟨none, waiting, some (p, accepted), collected⟩))
    (success : Bool) {cost gas : ℕ}
    (hcost : cost ≤ p.info.prefund) (hprepayments : prepayments s' = prepayments s)
    (hsettlements : settlements s' = ⟨p.info.userOpHash, p.info.mUserOp.sender,
      p.info.mUserOp.paymaster, p.info.mUserOp.nonce, success, cost, gas⟩ :: settlements s) :
    Settled d s' (some ⟨none, waiting, none, collected'⟩) := by
  obtain ⟨hformed, horder⟩ := h
  rw [pending_running] at hformed horder
  refine ⟨?_, ?_⟩
  · intro p' hmem
    rw [pending_waiting] at hmem
    exact hformed p' (List.mem_cons_of_mem p hmem)
  · rw [pending_waiting, hprepayments, hsettlements]
    exact horder.leave (settles_event (hformed p List.mem_cons_self) success hcost)

theorem prepared_finished {v : Validation} {prepaid : Prepaid}
    {validationData paymasterValidationData contextLength : ℕ}
    (h : Prepared d v.item.op v.info)
    (hfinish : finishValidation block v validationData paymasterValidationData contextLength =
      .ok prepaid) : Prepared d prepaid.item.op prepaid.info := by
  obtain ⟨hitem, hprefund, hmemory, hhash⟩ := finishValidation_prefund hfinish
  rw [hitem]
  refine ⟨hmemory ▸ h.copied, hhash ▸ h.hash, ?_, hmemory ▸ h.gas⟩
  rw [hprefund, hmemory]
  exact h.prefund

theorem settled_closed : Closed d fun _ s o _ => Settled d s o where
  advance := fun _ _ _ _ h => h
  effect := by
    intro block s o calls s' o' calls' h heffect
    cases heffect with
    | stakeAdded sender unstakeDelaySec amount hfits hok =>
      obtain ⟨_, _, _, _, _, rfl⟩ := addStake_eq_ok.mp hok
      exact h.same rfl rfl rfl
    | stakeUnlocked sender hok =>
      obtain ⟨_, _, _, rfl⟩ := unlockStake_eq_ok.mp hok
      exact h.same rfl rfl rfl
    | stakeWithdrawn sender withdrawAddress hok =>
      obtain ⟨_, _, _, _, rfl⟩ := withdrawStake_eq_ok.mp hok
      exact h.same rfl rfl rfl
    | withdrawn sender withdrawAddress amount hsender hok =>
      obtain ⟨_, _, rfl⟩ := withdrawTo_eq_ok.mp hok
      exact h.same rfl rfl rfl
    | nonceSkipped sender key hsender hok =>
      obtain ⟨_, rfl⟩ := incrementNonce_eq_ok.mp hok
      exact h.same rfl rfl rfl
    | remarked e hremark =>
      cases e <;> first | exact hremark.elim | exact h.same rfl rfl rfl
    | prepaid v hprepared haccepted hcharge =>
      obtain ⟨_, _, _, rfl⟩ := charge_eq_ok.mp hcharge
      obtain ⟨hformed, horder⟩ := h.accepted haccepted
      rw [pending_waiting] at hformed horder
      refine ⟨?_, ?_⟩
      · intro p hmem
        rw [pending_unchecked] at hmem
        rcases List.mem_append.mp hmem with hmem | hmem
        · exact hformed p hmem
        · rw [List.mem_singleton.mp hmem]
          exact hprepared
      · rw [pending_unchecked, List.map_append]
        exact horder.enter ⟨v.item.op, v.info.payer, v.info.prefund⟩
    | checked v haggregator hfinish =>
      obtain ⟨hformed, horder⟩ := h
      rw [pending_unchecked] at hformed horder
      obtain ⟨hitem, hprefund, hmemory, _⟩ := finishValidation_prefund hfinish
      refine ⟨?_, ?_⟩
      · intro p hmem
        rw [pending_waiting] at hmem
        rcases List.mem_append.mp hmem with hmem | hmem
        · exact hformed p (List.mem_append_left _ hmem)
        · rw [List.mem_singleton.mp hmem]
          exact prepared_finished (hformed _ (List.mem_append_right _ List.mem_cons_self)) hfinish
      · rw [pending_waiting]
        rw [List.map_append] at horder ⊢
        rw [List.map_singleton] at horder ⊢
        rw [Prepaid.prepayment, hitem, hprefund, UserOpInfo.payer, hmemory]
        exact horder
    | started => exact h.same ((pending_running _ false).trans pending_waiting.symm) rfl rfl
    | refunded accepted cost gas hcost => exact h.settle accepted hcost rfl rfl
    | kept gas => exact h.settle false (Nat.le_refl _) rfl rfl
    | _ => exact h.same rfl rfl rfl

theorem run_settled {labels : List (Label Block (Input d))} {m : Machine Block System Pending}
    (hrun : Run d block labels m) : Settled d m.world (openObligations m) :=
  (run_agrees settled_closed (fun _ _ _ _ _ =>
    ⟨fun _ hmem => (nomatch hmem), inOrder_nil _⟩) hrun).holds.2

/-- In every state of every run the operations whose prefund was taken are those with a
    `UserOperationEvent`, in the same order, followed by those of the bundle in progress;
    and each event fits its operation and bills no more than the prefund. -/
theorem operations_settled_once {labels : List (Label Block (Input d))}
    {m : Machine Block System Pending} (hrun : Run d block labels m) :
    ∃ older, prepayments m.world =
        ((pending (openObligations m)).map Prepaid.prepayment).reverse ++ older ∧
      List.Forall₂ (Settles d) older (settlements m.world) ∧
      (m.stack = [] → older = prepayments m.world) := by
  obtain ⟨_, older, hprepayments, hsettles⟩ := run_settled hrun
  refine ⟨older, hprepayments, hsettles, ?_⟩
  intro hstack
  have hnone : openObligations m = none := by
    rw [openObligations, hstack]
    rfl
  rw [hnone] at hprepayments
  exact hprepayments.symm

theorem operations_settled_once_twice : ∃ m, Run testDeployment (blockAt 1000 testTime_lt)
    (paymentBundle 0 ++ paymentBundle 1) m ∧
      (settlements m.world).map Settlement.nonce = [1, 0] ∧
      List.Forall₂ (Settles testDeployment) (prepayments m.world) (settlements m.world) := by
  have hrun : (run (entryPoint testDeployment) testStart (paymentBundle 0 ++ paymentBundle 1)).map
      (fun m => (m.stack.length, (settlements m.world).map Settlement.nonce)) =
        some (0, [1, 0]) := by
    decide +kernel
  obtain ⟨m, hm, hfound⟩ := Run.of_map (by decide +kernel) hrun
  obtain ⟨hstack, hnonces⟩ := Prod.mk.inj hfound
  obtain ⟨older, _, hsettles, hall⟩ := operations_settled_once hm
  rw [hall (List.length_eq_zero_iff.mp hstack)] at hsettles
  exact ⟨m, hm, hnonces, hsettles⟩

end BoundedSpending.SettledOperations
