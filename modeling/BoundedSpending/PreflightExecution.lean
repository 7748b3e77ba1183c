import BoundedSpending.AccountJournal

set_option autoImplicit false

namespace BoundedSpending.PreflightExecution

open CheckedArithmetic BigEndianWords LimitPolicy SpendRecorders CallDataDecoder UserOperations
open Preflight NestedCalls AccountMachine AccountRules AccountJournal

/-- What the account does with callData that the EntryPoint dispatches to it, up to
    its first `_doCall`. -/
def executionPolicy (cfg : Config) (s : Storage) (nowTs : ℕ) (callData : Bytes) :
    Except Revert (SpendCall × Storage × List Event) := do
  let call ← decodeSpendCall callData
  let (s, events) ← validateAndRecordSpend cfg s nowTs call
  return (call, s, events)

def LargeOperation (cfg : Config) (callData : Bytes) : Prop :=
  ∃ eth usdc, parseSpendAmountsFromCallData callData = .ok (eth, usdc) ∧ LargeSpend cfg eth usdc

theorem largeOperation_iff {cfg : Config} {callData : Bytes} {eth usdc : ℕ}
    (hparse : parseSpendAmountsFromCallData callData = .ok (eth, usdc)) :
    LargeOperation cfg callData ↔ LargeSpend cfg eth usdc := by
  constructor
  · intro h
    obtain ⟨eth', usdc', hparse', hlarge⟩ := h
    obtain ⟨rfl, rfl⟩ := Prod.mk.inj (Except.ok.inj (hparse.symm.trans hparse'))
    exact hlarge
  · intro hlarge
    exact ⟨eth, usdc, hparse, hlarge⟩

theorem execute_of_executionPolicy {cfg : Config} {now : ℕ} {w : World} {callData : Bytes}
    {call : SpendCall} {s : Storage} {events : List Event}
    (h : executionPolicy cfg w.storage now callData = .ok (call, s, events)) :
    spendAndCall cfg now w cfg.entryPointContract call =
      doCalls now (logged { w with storage := s } now events) call.calls := by
  simp only [executionPolicy, bind_returns, Prod.exists, pure_returns, Prod.mk.injEq] at h
  obtain ⟨c, _, s', events', hok, rfl, rfl, rfl⟩ := h
  simp only [spendAndCall, ne_eq, not_true_eq_false, if_false, hok]

variable {env : Env} {cfg : Config} {block : Block} {w w' : World}

theorem selector_long {callData : Bytes} (h : 2 ^ 24 ≤ selectorOf callData) :
    4 ≤ callData.length := by
  by_contra hshort
  have hlt := value_lt (callData.take 4)
  rw [List.length_take, Nat.min_eq_right (by omega)] at hlt
  have hpow : 256 ^ callData.length ≤ 256 ^ 3 := Nat.pow_le_pow_right (by omega) (by omega)
  unfold selectorOf at h
  omega

theorem parse_spendCall {callData : Bytes} (hlong : 4 ≤ callData.length) {eth usdc : ℕ} :
    parseSpendAmountsFromCallData callData = .ok (eth, usdc) ↔
      ∃ call, decodeSpendCall callData = .ok call ∧ call.spend = .ok (eth, usdc) := by
  rw [parseSpendAmountsFromCallData, if_neg (by omega), bind_returns]

theorem validateUserOp_unsponsored {sender : Address} {op : PackedUserOperation}
    {userOpHash missingAccountFunds validationData : ℕ} (hpaymaster : op.paymasterAndData = [])
    (hlong : 4 ≤ op.callData.length)
    (hok : validateUserOp env cfg block w sender op userOpHash missingAccountFunds =
      .ok (validationData, w')) :
    ∃ call eth, decodeSpendCall op.callData = .ok call ∧ call.spend = .ok (eth, 0) ∧
      (0 < eth → EthRoom cfg w.storage block.timestamp eth) ∧
      CooldownOver w.storage block.timestamp ∧ ValueFits cfg eth 0 ∧
      w'.storage = noted cfg w.storage block.timestamp eth 0 := by
  obtain ⟨_, s, hpre, rfl⟩ := validateUserOp_eq_ok.mp hok
  obtain ⟨eth, usdc, gasCost, _, hparse, hgas, _, hlimits, hover, hfits, rfl⟩ :=
    preflight_eq_ok.mp hpre
  obtain ⟨call, hdecode, hspend⟩ := (parse_spendCall hlong).mp hparse
  obtain rfl := (SpendCall.spend_eq_ok hspend).2.2
  rw [getUsdcGasCostIfPaymaster_unsponsored hpaymaster] at hgas
  obtain rfl := Except.ok.inj hgas
  refine ⟨call, eth, hdecode, hspend, (checkPreflightLimits_eq_ok.mp hlimits).2.2.1, hover, hfits,
    ?_⟩
  rw [payPrefund_storage]
  rfl

theorem noted_large {s : Storage} {now eth usdc : ℕ} (hlarge : LargeSpend cfg eth usdc) :
    (noted cfg s now eth usdc).lastLargeSpendTime = now := by
  rw [noted, if_pos hlarge]

theorem cooldownOver_noted_large {s : Storage} {now eth usdc : ℕ}
    (hlarge : LargeSpend cfg eth usdc) : CooldownOver (noted cfg s now eth usdc) now ↔ now = 0 := by
  have hperiod : 0 < cooldownPeriod := by decide
  rw [CooldownOver, noted_large hlarge]
  constructor
  · intro h
    rcases h with hzero | hafter
    · exact hzero
    · omega
  · exact Or.inl

theorem executionPolicy_eq_ok {s : Storage} {now eth : ℕ} {call : SpendCall} {callData : Bytes}
    (hdecode : decodeSpendCall callData = .ok call) (hspend : call.spend = .ok (eth, 0)) :
    (∃ result, executionPolicy cfg s now callData = .ok result) ↔
      CooldownOver s now ∧ ValueFits cfg eth 0 ∧ ClockFits s now ∧
        (0 < eth → EthRoom cfg s now eth) := by
  constructor
  · intro h
    obtain ⟨result, h⟩ := h
    simp only [executionPolicy, bind_returns, Prod.exists] at h
    obtain ⟨c, hc, s', events, hok, _⟩ := h
    obtain rfl := Except.ok.inj (hdecode.symm.trans hc)
    obtain ⟨eth', hspend', hover, hfits, hclock, hroom, _, _⟩ := validateAndRecordSpend_eq_ok.mp hok
    obtain rfl := (Prod.mk.inj (Except.ok.inj (hspend.symm.trans hspend'))).1
    exact ⟨hover, hfits, hclock, hroom⟩
  · intro h
    obtain ⟨hover, hfits, hclock, hroom⟩ := h
    have hok := validateAndRecordSpend_eq_ok.mpr
      ⟨eth, hspend, hover, hfits, hclock, hroom, rfl, rfl⟩
    refine ⟨(call, recorded (noted cfg s now eth 0) now eth 0,
      spendEvents eth 0 ++ [.accounted eth 0]), ?_⟩
    simp only [executionPolicy, bind_returns, Prod.exists]
    exact ⟨call, hdecode, _, _, hok, rfl⟩

/-- After an accepted validation the policy lets the same callData through exactly
    when the spend is not a large one and the clock leaves room for the windows. -/
theorem executionPolicy_after_validateUserOp (env : Env) (cfg : Config) (block : Block)
    (w w' : World) (op : PackedUserOperation) (userOpHash missingAccountFunds validationData : ℕ)
    (hpaymaster : op.paymasterAndData = [])
    (hselector : selectorOf op.callData = executeSelector ∨
      selectorOf op.callData = executeBatchSelector)
    (hvalid : validateUserOp env cfg block w cfg.entryPointContract op userOpHash
      missingAccountFunds = .ok (validationData, w')) :
    (∃ result, executionPolicy cfg w'.storage block.timestamp op.callData = .ok result) ↔
      (block.timestamp = 0 ∨ ¬ LargeOperation cfg op.callData) ∧
        ClockFits w.storage block.timestamp := by
  have hlong : 4 ≤ op.callData.length := by
    apply selector_long
    rcases hselector with h | h
    · rw [h]; decide
    · rw [h]; decide
  obtain ⟨call, eth, hdecode, hspend, hroom, hover, hfits, hstorage⟩ :=
    validateUserOp_unsponsored hpaymaster hlong hvalid
  have hparse := (parse_spendCall hlong).mpr ⟨call, hdecode, hspend⟩
  rw [executionPolicy_eq_ok hdecode hspend, hstorage, clockFits_noted, ethRoom_noted,
    largeOperation_iff hparse]
  by_cases hl : LargeSpend cfg eth 0
  · rw [cooldownOver_noted_large hl]
    constructor
    · intro h
      exact ⟨.inl h.1, h.2.2.1⟩
    · intro h
      exact ⟨h.1.resolve_right (not_not_intro hl), hfits, h.2, hroom⟩
  · have hsame : noted cfg w.storage block.timestamp eth 0 = w.storage := if_neg hl
    rw [hsame]
    constructor
    · intro h
      exact ⟨.inr hl, h.2.2.1⟩
    · intro h
      exact ⟨hover, hfits, h.2, hroom⟩

def payOp (amount : ℕ) : PackedUserOperation :=
  testOp 0x707 0 (encodeExecute ⟨0x909, amount, []⟩) [] testSender_lt

theorem decodeSpendCall_payOp {amount : ℕ} (h : amount < 2 ^ 256) :
    decodeSpendCall (payOp amount).callData = .ok (.execute ⟨0x909, amount, []⟩) := by
  have htarget : 0x909 < 2 ^ 160 := by decide
  exact decodeSpendCall_encodeExecute htarget h (Nat.zero_le maxOffset)

def freshWorld : World := (launched (blockAt 1000 (by decide)) ether 0).world

def validatedWorld : World := { freshWorld with journal := [(1000, .validated)] }

theorem executionPolicy_after_validateUserOp_small :
    validateUserOp ownerEnv testConfig (blockAt 1000 (by decide)) freshWorld 0x101
        (payOp (ether / 10)) 0 0 = .ok (0, validatedWorld) ∧
      ((∃ result, executionPolicy testConfig validatedWorld.storage 1000
          (payOp (ether / 10)).callData = .ok result) ↔
        ((1000 = 0 ∨ ¬ LargeOperation testConfig (payOp (ether / 10)).callData) ∧
          ClockFits freshWorld.storage 1000)) := by
  have hvalid : validateUserOp ownerEnv testConfig (blockAt 1000 (by decide)) freshWorld 0x101
      (payOp (ether / 10)) 0 0 = .ok (0, validatedWorld) := by
    decide +kernel
  exact ⟨hvalid, executionPolicy_after_validateUserOp ownerEnv testConfig
    (blockAt 1000 (by decide)) freshWorld validatedWorld (payOp (ether / 10)) 0 0 0 rfl
    (.inl (by decide +kernel)) hvalid⟩

/-- Six tenths of an ether is a large spend: validated, and refused a moment later. -/
theorem large_spend_validated_then_refused :
    ∃ w', validateUserOp ownerEnv testConfig (blockAt 1000 (by decide)) freshWorld 0x101
        (payOp (6 * ether / 10)) 0 0 = .ok (0, w') ∧
      executionPolicy testConfig w'.storage 1000 (payOp (6 * ether / 10)).callData =
        .error .largeSpendCooldownActive :=
  ⟨{ freshWorld with
      storage.lastLargeSpendTime := 1000, journal := [(1000, .validated)] },
    by decide +kernel, by decide +kernel⟩

end BoundedSpending.PreflightExecution
