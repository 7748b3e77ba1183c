import BoundedSpending.AccountJournal
import BoundedSpending.EntryPointEffects

set_option autoImplicit false

namespace BoundedSpending.SealedEvents

open CheckedArithmetic TimedLog CallDataDecoder UserOperations SpendRecorders Preflight NestedCalls
open AccountMachine AccountRules AccountJournal EntryPointMachine EntryPointEffects

def Sealed : Event → Prop
  | .accounted _ _ | .validated | .prefundPaid _ => True
  | _ => False

def accountedOf : Event → Option (ℕ × ℕ)
  | .accounted eth usdc => some (eth, usdc)
  | _ => none

def prefundOf : Event → Option ℕ
  | .prefundPaid amount => some amount
  | _ => none

/-- The totals of every `execute` and `executeBatch` that passed its accounting. -/
def accountedSpends (w : World) : List (ℕ × ℕ) := w.journal.filterMap fun e => accountedOf e.2

def prefundsPaid (w : World) : List ℕ := w.journal.filterMap fun e => prefundOf e.2

variable {env : Env} {cfg : Config} {block : Block} {w w' : World}
  {ks : List AccountMachine.Pending}

theorem Transfer.not_sealed {event : Event} (h : Transfer event) : ¬ Sealed event := by
  cases event with
  | ethTransferred amount => exact id
  | usdcTransferred amount => exact id
  | _ => exact h.elim

theorem AnswerEmits.not_sealed {k : AccountMachine.Pending} {event : Event}
    (h : AnswerEmits k event) : ¬ Sealed event := by
  cases k with
  | calls call rest => exact Transfer.not_sealed h
  | gasPayment amount => exact Transfer.not_sealed h
  | withdrawEth recipient ethAmount =>
    obtain ⟨usdcAmount, rfl⟩ := h
    exact id
  | withdrawUsdc recipient ethAmount usdcAmount =>
    obtain rfl : event = _ := h
    exact id
  | «foreign» => exact h.elim

theorem grows_filterMap {β : Type} {now : ℕ} {emits : Event → Prop} {f : Event → Option β}
    (h : Grows now emits w w') (hf : ∀ event, emits event → f event = none) :
    (w'.journal.filterMap fun e => f e.2) = w.journal.filterMap fun e => f e.2 := by
  obtain ⟨events, hjournal, hall⟩ := h
  have hnone : (stamped now events).filterMap (fun e => f e.2) = [] := by
    apply List.filterMap_eq_nil_iff.mpr
    intro e hmem
    exact forall_stamped (p := fun event => f event = none)
      (fun event hevent => hf event (hall event hevent)) e hmem
  rw [hjournal, List.filterMap_append, hnone, List.nil_append]

theorem accountedOf_unsealed {event : Event} (h : ¬ Sealed event) : accountedOf event = none := by
  cases event with
  | accounted eth usdc => exact absurd trivial h
  | _ => rfl

theorem prefundOf_unsealed {event : Event} (h : ¬ Sealed event) : prefundOf event = none := by
  cases event with
  | prefundPaid amount => exact absurd trivial h
  | _ => rfl

def Unsealed (now : ℕ) (w w' : World) : Prop := Grows now (fun event => ¬ Sealed event) w w'

theorem Unsealed.accounted {now : ℕ} (h : Unsealed now w w') :
    accountedSpends w' = accountedSpends w :=
  grows_filterMap h fun _ => accountedOf_unsealed

theorem Unsealed.prefunds {now : ℕ} (h : Unsealed now w w') : prefundsPaid w' = prefundsPaid w :=
  grows_filterMap h fun _ => prefundOf_unsealed

theorem spendAndCall_refused {call : SpendCall} {now : ℕ} {sender : Address}
    (h : sender ≠ cfg.entryPointContract) : (spendAndCall cfg now w sender call).Keeps
      (fun w' _ => Unsealed block.timestamp w w') ks := by
  apply keeps_spendAndCall
  intro s events hsender _
  exact absurd hsender h

theorem enter_unsealed {input : AccountMachine.Input}
    (hcaller : callerOf input ≠ some cfg.entryPointContract) :
    ((account env cfg).enter block w input).Keeps
      (fun w' _ => Unsealed block.timestamp w w') ks := by
  cases input with
  | receive amount => exact Grows.same rfl
  | validateUserOp sender op userOpHash missingAccountFunds =>
    apply keeps_validateUserOp
    intro validationData s hsender _
    exact absurd (congrArg some hsender) hcaller
  | execute sender call =>
    exact spendAndCall_refused fun hsender => hcaller (congrArg some hsender)
  | executeBatch sender calls =>
    exact spendAndCall_refused fun hsender => hcaller (congrArg some hsender)
  | payForGasInUsdc sender gasLeft amount =>
    apply keeps_payForGasInUsdc
    intro s events _ hok
    obtain ⟨_, _, _, rfl⟩ := applyUsdcSpend_eq_ok.mp hok
    exact Grows.event rfl id
  | addDeposit amount => exact Grows.same rfl
  | requestEmergencyWithdraw sender =>
    apply keeps_requestEmergencyWithdraw
    intro _
    exact Grows.event rfl id
  | emergencyWithdraw sender recipient =>
    have hpassed : Unsealed block.timestamp w
        (logged { w with storage.emergencyWithdrawRequestTime := 0 } block.timestamp
          [.withdrawGuardsPassed]) := Grows.event rfl id
    apply keeps_emergencyWithdraw
    · intro _ _
      exact hpassed
    · intro _
      refine Keeps.imp (withdrawUsdcPart_logs _ recipient 0) fun _ _ h => ?_
      refine hpassed.trans (h.grows.mono ?_)
      rintro event ⟨usdcAmount, rfl⟩
      exact id
  | receiveUsdc amount => exact Grows.same rfl
  | «foreign» => exact Grows.same rfl

theorem resume_unsealed (env : Env) (cfg : Config) (k : AccountMachine.Pending) (ok : Bool) :
    ((account env cfg).resume block w k ok).Keeps
      (fun w' _ => Unsealed block.timestamp w w') ks :=
  Keeps.imp (resume_logs k ok) fun _ _ h => h.grows.mono fun _ => AnswerEmits.not_sealed

theorem enter_dispatched (call : SpendCall) :
    ((account env cfg).enter block w (FailedOperations.dispatched cfg call)).Keeps
      (fun w' _ => ∃ eth, call.spend = .ok (eth, 0) ∧
        accountedSpends w' = (eth, 0) :: accountedSpends w ∧
        prefundsPaid w' = prefundsPaid w) ks := by
  have hspent : (spendAndCall cfg block.timestamp w cfg.entryPointContract call).Keeps
      (fun w' _ => ∃ eth, call.spend = .ok (eth, 0) ∧
        accountedSpends w' = (eth, 0) :: accountedSpends w ∧
        prefundsPaid w' = prefundsPaid w) ks := by
    refine Keeps.imp (spendAndCall_effect block.timestamp _ call) fun w' _ h => ?_
    obtain ⟨s, events, hok, hsent⟩ := h
    obtain ⟨eth, hspend, _, _, _, _, _, rfl⟩ := validateAndRecordSpend_eq_ok.mp hok
    have hquiet : Unsealed block.timestamp _ w' := hsent.grows.mono fun _ => Transfer.not_sealed
    refine ⟨eth, hspend, ?_, ?_⟩
    · rw [hquiet.accounted]
      by_cases heth : 0 < eth
      · simp [accountedSpends, logged, stamped, spendEvents, accountedOf, heth]
      · simp [accountedSpends, logged, stamped, spendEvents, accountedOf, heth]
    · rw [hquiet.prefunds]
      by_cases heth : 0 < eth
      · simp [prefundsPaid, logged, stamped, spendEvents, prefundOf, heth]
      · simp [prefundsPaid, logged, stamped, spendEvents, prefundOf, heth]
  cases call with
  | execute c => exact hspent
  | executeBatch calls => exact hspent

end BoundedSpending.SealedEvents
