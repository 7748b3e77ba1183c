import BoundedSpending.AccountLedger
import BoundedSpending.PreflightExecution
import BoundedSpending.EndedCalls

set_option autoImplicit false

namespace BoundedSpending.FailedOperations

open CheckedArithmetic CallDataDecoder UserOperations SpendRecorders Preflight NestedCalls
open AccountMachine AccountRules AccountJournal AccountLedger PreflightExecution

structure SamePolicy (s s' : Storage) : Prop where
  counters : SameCounters s s'
  lastLargeSpendTime : s'.lastLargeSpendTime = s.lastLargeSpendTime

def dispatched (cfg : Config) : SpendCall → Input
  | .execute call => .execute cfg.entryPointContract call
  | .executeBatch calls => .executeBatch cfg.entryPointContract calls

/-- The ways in which the dispatched frame reverts, with the machine it leaves. -/
inductive DispatchReverts (env : Env) (cfg : Config) (m : Machine Block World Pending)
    (callData : BigEndianWords.Bytes) : Machine Block World Pending → Prop where
  /-- No function has this callData, or its ABI decoding fails. -/
  | undecodable (reason : Revert) (h : decodeSpendCall callData = .error reason) :
      DispatchReverts env cfg m callData m
  | outOfGas : DispatchReverts env cfg m callData m
  /-- The function reverts, at once or after any nested calls. -/
  | reverted (call : SpendCall) (m' : Machine Block World Pending)
      (h : decodeSpendCall callData = .ok call)
      (hreverts : Reverts (account env cfg) m (dispatched cfg call) m') :
      DispatchReverts env cfg m callData m'

theorem DispatchReverts.restores {env : Env} {cfg : Config} {m m' : Machine Block World Pending}
    {callData : BigEndianWords.Bytes} (h : DispatchReverts env cfg m callData m') : m' = m := by
  cases h with
  | undecodable reason h => rfl
  | outOfGas => rfl
  | reverted call m' h hreverts => exact hreverts.restores

variable {env : Env} {cfg : Config} {block : Block} {w w' : World}

theorem samePolicy_noted {s : Storage} {now eth usdc : ℕ} (hover : CooldownOver s now) :
    SamePolicy s (noted cfg s now eth usdc) ↔ now = 0 ∨ ¬ LargeSpend cfg eth usdc := by
  have hperiod : 0 < cooldownPeriod := by decide
  by_cases hlarge : LargeSpend cfg eth usdc
  · constructor
    · intro h
      have hlast := h.lastLargeSpendTime
      rw [noted_large hlarge] at hlast
      rcases hover with hzero | hafter
      · exact .inl (hlast.trans hzero)
      · omega
    · intro h
      have hzero : now = 0 := h.resolve_right (not_not_intro hlarge)
      refine ⟨noted_sameCounters cfg s now eth usdc, ?_⟩
      rw [noted_large hlarge]
      rcases hover with hlast | hafter
      · exact hzero.trans hlast.symm
      · omega
  · have hsame : noted cfg s now eth usdc = s := if_neg hlarge
    rw [hsame]
    exact ⟨fun _ => .inr hlarge, fun _ => ⟨SameCounters.refl s, rfl⟩⟩

/-- An accepted validation whose dispatched call reverts leaves the policy as it was
    exactly when the spend it asked for is not a large one. -/
theorem failed_operation_samePolicy (env : Env) (cfg : Config)
    (m m₁ m₂ : Machine Block World Pending) (op : PackedUserOperation)
    (userOpHash missingAccountFunds : ℕ) (hpaymaster : op.paymasterAndData = [])
    (haccepted : ∃ result, validateUserOp env cfg m.clock m.world cfg.entryPointContract op
      userOpHash missingAccountFunds = .ok result)
    (hvalidate : step (account env cfg) m (.call (.validateUserOp cfg.entryPointContract op
      userOpHash missingAccountFunds)) = some m₁)
    (hfailed : DispatchReverts env cfg m₁ op.callData m₂) :
    SamePolicy m.world.storage m₂.world.storage ↔
      m.clock.timestamp = 0 ∨ ¬ LargeOperation cfg op.callData := by
  obtain ⟨⟨validationData, w'⟩, hok⟩ := haccepted
  have hworld : m₁.world = w' := by
    rw [step_validateUserOp hok, Option.some.injEq] at hvalidate
    rw [← hvalidate]
  obtain ⟨_, s, hpre, hw⟩ := validateUserOp_eq_ok.mp hok
  obtain ⟨eth, usdc, gasCost, _, hparse, hgas, _, _, hover, _, hs⟩ := preflight_eq_ok.mp hpre
  rw [getUsdcGasCostIfPaymaster_unsponsored hpaymaster] at hgas
  obtain rfl := Except.ok.inj hgas
  have hstorage : m₂.world.storage = noted cfg m.world.storage m.clock.timestamp eth usdc := by
    rw [hfailed.restores, hworld, hw, payPrefund_storage]
    exact hs
  rw [hstorage, samePolicy_noted hover, largeOperation_iff hparse]

def emptyMachine : Machine Block World Pending := launched (blockAt 1000 testTime_lt) 0 0

def validatedMachine : Machine Block World Pending :=
  ⟨blockAt 1000 testTime_lt, ⟨deployed 1000, 0, 0, [(1000, .validated)]⟩, []⟩

theorem failed_operation_samePolicy_unfunded :
    step (account ownerEnv testConfig) emptyMachine
        (.call (.validateUserOp 0x101 (payOp (ether / 10)) 0 0)) = some validatedMachine ∧
      DispatchReverts ownerEnv testConfig validatedMachine (payOp (ether / 10)).callData
        validatedMachine ∧
      (SamePolicy emptyMachine.world.storage validatedMachine.world.storage ↔
        emptyMachine.clock.timestamp = 0 ∨
          ¬ LargeOperation testConfig (payOp (ether / 10)).callData) := by
  have hvalid : validateUserOp ownerEnv testConfig emptyMachine.clock emptyMachine.world 0x101
      (payOp (ether / 10)) 0 0 = .ok (0, validatedMachine.world) := by
    decide +kernel
  have hstep : step (account ownerEnv testConfig) emptyMachine
      (.call (.validateUserOp 0x101 (payOp (ether / 10)) 0 0)) = some validatedMachine :=
    step_validateUserOp hvalid
  have hunfunded : (account ownerEnv testConfig).enter validatedMachine.clock
      validatedMachine.world (.execute 0x101 ⟨0x909, ether / 10, []⟩) = .revert .callFailed := by
    decide +kernel
  have hreverts : DispatchReverts ownerEnv testConfig validatedMachine
      (payOp (ether / 10)).callData validatedMachine :=
    .reverted (.execute ⟨0x909, ether / 10, []⟩) _ (decodeSpendCall_payOp (by decide))
      (Reverts.at_once hunfunded)
  exact ⟨hstep, hreverts, failed_operation_samePolicy ownerEnv testConfig emptyMachine
    validatedMachine validatedMachine (payOp (ether / 10)) 0 0 rfl ⟨_, hvalid⟩ hstep hreverts⟩

/-- A large spend: validated, refused by its own cooldown, and on record ever after. -/
theorem failed_operation_moves_cooldown :
    ∃ m₁, step (account ownerEnv testConfig) (launched (blockAt 1000 (by decide)) ether 0)
        (.call (.validateUserOp 0x101 (payOp (6 * ether / 10)) 0 0)) = some m₁ ∧
      DispatchReverts ownerEnv testConfig m₁ (payOp (6 * ether / 10)).callData m₁ ∧
      m₁.world.storage.lastLargeSpendTime = 1000 ∧
      ¬ SamePolicy (deployed 1000) m₁.world.storage := by
  have hvalid : validateUserOp ownerEnv testConfig (blockAt 1000 (by decide))
      (launched (blockAt 1000 (by decide)) ether 0).world 0x101 (payOp (6 * ether / 10)) 0 0 =
        .ok (0, ⟨{ deployed 1000 with lastLargeSpendTime := 1000 }, ether, 0,
          [(1000, .validated)]⟩) := by
    decide +kernel
  have hrefused : (account ownerEnv testConfig).enter (blockAt 1000 (by decide))
      ⟨{ deployed 1000 with lastLargeSpendTime := 1000 }, ether, 0, [(1000, .validated)]⟩
      (.execute 0x101 ⟨0x909, 6 * ether / 10, []⟩) = .revert .largeSpendCooldownActive := by
    decide +kernel
  refine ⟨_, step_validateUserOp hvalid, ?_, rfl, fun h => nomatch h.lastLargeSpendTime⟩
  exact .reverted (.execute ⟨0x909, 6 * ether / 10, []⟩) _ (decodeSpendCall_payOp (by decide))
    (Reverts.at_once hrefused)

end BoundedSpending.FailedOperations
