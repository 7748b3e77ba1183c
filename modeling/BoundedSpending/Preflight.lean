import BoundedSpending.UserOperations
import BoundedSpending.SpendRecorders
import BoundedSpending.CallDataDecoder

set_option autoImplicit false

namespace BoundedSpending.Preflight

open CheckedArithmetic BigEndianWords LimitPolicy SpendRecorders CallDataDecoder UserOperations

/-- What the account asks of code outside the repository. `recover` is
    `ECDSA.recover`, with `none` where it reverts. -/
structure Env where
  recover : ℕ → Bytes → Option Address
  usdcHasCode : Bool

def getUsdValue (cfg : Config) (ethAmount : ℕ) : Except Revert ℕ := do
  let scaled ← mul ethAmount cfg.usdcPerEth
  return scaled / ether

def cooldownGuard (s : Storage) (nowTs : ℕ) : Except Revert Unit :=
  if s.lastLargeSpendTime = 0 then .ok ()
  else do
    let cooldownEnd ← add s.lastLargeSpendTime cooldownPeriod
    require (cooldownEnd ≤ nowTs) .largeSpendCooldownActive

def checkAndUpdatePanicCooldown (cfg : Config) (s : Storage) (nowTs ethAmount usdcAmount : ℕ) :
    Except Revert Storage := do
  cooldownGuard s nowTs
  let usdValue ← getUsdValue cfg ethAmount
  let totalUsdValue ← add usdValue usdcAmount
  let threshold ← mul cfg.dailyUsdcLimit panicThresholdBps
  return if threshold / 10000 < totalUsdValue then { s with lastLargeSpendTime := nowTs } else s

def validateEthIfAny (cfg : Config) (w : Windows) (ethSpend : ℕ) : Except Revert Unit :=
  if 0 < ethSpend then
    validateEthSpend w.dailySpent w.monthlySpent cfg.dailyEthLimit cfg.monthlyEthLimit ethSpend
  else .ok ()

def validateUsdcIfAny (cfg : Config) (w : Windows) (usdcSpend : ℕ) : Except Revert Unit :=
  if 0 < usdcSpend then
    validateUsdcSpend w.dailySpent w.monthlySpent cfg.dailyUsdcLimit cfg.monthlyUsdcLimit usdcSpend
  else .ok ()

/-- The limit checks of `_validatePreflightLimits`, without the cooldown. -/
def checkPreflightLimits (cfg : Config) (s : Storage) (nowTs ethSpend usdcSpend : ℕ) :
    Except Revert Unit := do
  let eth ← maybeResetWindows s.lastDailyResetTimestamp s.lastMonthlyResetTimestamp
    s.dailyEthSpent s.monthlyEthSpent nowTs
  -- here both calls read the stored anchors, unlike in the recorders
  let usdc ← maybeResetWindows s.lastDailyResetTimestamp s.lastMonthlyResetTimestamp
    s.dailyUsdcSpent s.monthlyUsdcSpent nowTs
  validateEthIfAny cfg eth ethSpend
  validateUsdcIfAny cfg usdc usdcSpend

def validatePreflightLimits (cfg : Config) (s : Storage) (nowTs ethSpend usdcSpend : ℕ) :
    Except Revert Storage := do
  checkPreflightLimits cfg s nowTs ethSpend usdcSpend
  checkAndUpdatePanicCooldown cfg s nowTs ethSpend usdcSpend

def sigValidationSuccess : ℕ := 0
def sigValidationFailed : ℕ := 1

def validateSignature (env : Env) (cfg : Config) (op : PackedUserOperation) (userOpHash : ℕ) :
    Except Revert ℕ :=
  match env.recover userOpHash op.signature with
  | none => .error .invalidSignature
  | some recovered =>
    .ok (if recovered = cfg.vaultOwner then sigValidationSuccess else sigValidationFailed)

/-- `validateUserOp` up to its prefund: the validation data and the new storage. -/
def preflight (env : Env) (cfg : Config) (block : Block) (s : Storage)
    (op : PackedUserOperation) (userOpHash : ℕ) : Except Revert (ℕ × Storage) := do
  let validationData ← validateSignature env cfg op userOpHash
  let (ethSpend, usdcSpend) ← parseSpendAmountsFromCallData op.callData
  let usdcGasCost ← getUsdcGasCostIfPaymaster cfg block op
  let usdcTotal ← add usdcSpend usdcGasCost
  let s ← validatePreflightLimits cfg s block.timestamp ethSpend usdcTotal
  return (validationData, s)

/-- `_validateAndRecordSpend`; `executeBatch` has the same steps on its totals. -/
def validateAndRecordSpend (cfg : Config) (s : Storage) (nowTs : ℕ) (call : SpendCall) :
    Except Revert (Storage × List Event) := do
  let (ethAmount, usdcAmount) ← call.spend
  let s ← checkAndUpdatePanicCooldown cfg s nowTs ethAmount usdcAmount
  let (s, events) ← applySpendAndUpdate cfg s nowTs ethAmount usdcAmount
  return (s, events ++ [.accounted ethAmount usdcAmount])

def CooldownOver (s : Storage) (now : ℕ) : Prop :=
  s.lastLargeSpendTime = 0 ∨
    (s.lastLargeSpendTime + cooldownPeriod < wordSize ∧
      s.lastLargeSpendTime + cooldownPeriod ≤ now)

def ValueFits (cfg : Config) (eth usdc : ℕ) : Prop :=
  eth * cfg.usdcPerEth < wordSize ∧ eth * cfg.usdcPerEth / ether + usdc < wordSize ∧
    cfg.dailyUsdcLimit * panicThresholdBps < wordSize

def LargeSpend (cfg : Config) (eth usdc : ℕ) : Prop :=
  cfg.dailyUsdcLimit * panicThresholdBps / 10000 < eth * cfg.usdcPerEth / ether + usdc

instance (s : Storage) (now : ℕ) : Decidable (CooldownOver s now) := by
  unfold CooldownOver; infer_instance

instance (cfg : Config) (eth usdc : ℕ) : Decidable (ValueFits cfg eth usdc) := by
  unfold ValueFits; infer_instance

instance (cfg : Config) (eth usdc : ℕ) : Decidable (LargeSpend cfg eth usdc) := by
  unfold LargeSpend; infer_instance

def noted (cfg : Config) (s : Storage) (now eth usdc : ℕ) : Storage :=
  if LargeSpend cfg eth usdc then { s with lastLargeSpendTime := now } else s

def LiveUsdcRoom (cfg : Config) (s : Storage) (now amount : ℕ) : Prop :=
  effective s.lastDailyResetTimestamp dailyWindow now s.dailyUsdcSpent + amount ≤
    cfg.dailyUsdcLimit ∧
  effective s.lastMonthlyResetTimestamp monthlyWindow now s.monthlyUsdcSpent + amount ≤
    cfg.monthlyUsdcLimit

theorem cooldownGuard_eq_ok {s : Storage} {now : ℕ} {u : Unit} :
    cooldownGuard s now = .ok u ↔ CooldownOver s now := by
  unfold cooldownGuard CooldownOver
  split_ifs with h
  · simp [h]
  · simp only [h, false_or, bind_returns, add_eq_ok, require_eq_ok]
    constructor
    · rintro ⟨_, ⟨hlt, rfl⟩, hle⟩
      exact ⟨hlt, hle⟩
    · rintro ⟨hlt, hle⟩
      exact ⟨_, ⟨hlt, rfl⟩, hle⟩

theorem checkAndUpdatePanicCooldown_eq_ok {cfg : Config} {s s' : Storage} {now eth usdc : ℕ} :
    checkAndUpdatePanicCooldown cfg s now eth usdc = .ok s' ↔
      CooldownOver s now ∧ ValueFits cfg eth usdc ∧ s' = noted cfg s now eth usdc := by
  simp only [checkAndUpdatePanicCooldown, getUsdValue, bind_returns, cooldownGuard_eq_ok,
    mul_eq_ok, add_eq_ok, pure_returns]
  constructor
  · rintro ⟨_, hover, _, ⟨_, ⟨h₁, rfl⟩, rfl⟩, _, ⟨h₂, rfl⟩, _, ⟨h₃, rfl⟩, rfl⟩
    exact ⟨hover, ⟨h₁, h₂, h₃⟩, rfl⟩
  · rintro ⟨hover, ⟨h₁, h₂, h₃⟩, rfl⟩
    exact ⟨(), hover, _, ⟨_, ⟨h₁, rfl⟩, rfl⟩, _, ⟨h₂, rfl⟩, _, ⟨h₃, rfl⟩, rfl⟩

theorem validateEthIfAny_eq_ok {cfg : Config} {w : Windows} {amount : ℕ} {u : Unit} :
    validateEthIfAny cfg w amount = .ok u ↔ (0 < amount →
      w.dailySpent + amount ≤ cfg.dailyEthLimit ∧
        w.monthlySpent + amount ≤ cfg.monthlyEthLimit) := by
  unfold validateEthIfAny validateEthSpend
  split_ifs with h
  · simp only [h, true_implies, validateSpend_eq_ok cfg.dailyEthLimit_lt cfg.monthlyEthLimit_lt]
  · simp [h]

theorem validateUsdcIfAny_eq_ok {cfg : Config} {w : Windows} {amount : ℕ} {u : Unit} :
    validateUsdcIfAny cfg w amount = .ok u ↔ (0 < amount →
      w.dailySpent + amount ≤ cfg.dailyUsdcLimit ∧
        w.monthlySpent + amount ≤ cfg.monthlyUsdcLimit) := by
  unfold validateUsdcIfAny validateUsdcSpend
  split_ifs with h
  · simp only [h, true_implies, validateSpend_eq_ok cfg.dailyUsdcLimit_lt cfg.monthlyUsdcLimit_lt]
  · simp [h]

theorem checkPreflightLimits_eq_ok {cfg : Config} {s : Storage} {now eth usdc : ℕ} {u : Unit} :
    checkPreflightLimits cfg s now eth usdc = .ok u ↔
      s.lastDailyResetTimestamp + dailyWindow < wordSize ∧
      s.lastMonthlyResetTimestamp + monthlyWindow < wordSize ∧
      (0 < eth → EthRoom cfg s now eth) ∧ (0 < usdc → LiveUsdcRoom cfg s now usdc) := by
  simp only [checkPreflightLimits, bind_returns, maybeResetWindows_eq_ok, validateEthIfAny_eq_ok,
    validateUsdcIfAny_eq_ok]
  constructor
  · rintro ⟨_, ⟨hd, hm, rfl⟩, _, ⟨_, _, rfl⟩, _, heth, husdc⟩
    exact ⟨hd, hm, heth, husdc⟩
  · rintro ⟨hd, hm, heth, husdc⟩
    exact ⟨_, ⟨hd, hm, rfl⟩, _, ⟨hd, hm, rfl⟩, (), heth, husdc⟩

theorem preflight_eq_ok {env : Env} {cfg : Config} {block : Block} {s s' : Storage}
    {op : PackedUserOperation} {userOpHash validationData : ℕ} :
    preflight env cfg block s op userOpHash = .ok (validationData, s') ↔
      ∃ eth usdc gasCost, validateSignature env cfg op userOpHash = .ok validationData ∧
        parseSpendAmountsFromCallData op.callData = .ok (eth, usdc) ∧
        getUsdcGasCostIfPaymaster cfg block op = .ok gasCost ∧ usdc + gasCost < wordSize ∧
        checkPreflightLimits cfg s block.timestamp eth (usdc + gasCost) = .ok () ∧
        CooldownOver s block.timestamp ∧ ValueFits cfg eth (usdc + gasCost) ∧
        s' = noted cfg s block.timestamp eth (usdc + gasCost) := by
  simp only [preflight, validatePreflightLimits, bind_returns, Prod.exists, add_eq_ok,
    pure_returns, Prod.mk.injEq, checkAndUpdatePanicCooldown_eq_ok]
  constructor
  · rintro ⟨_, hsig, eth, usdc, hparse, gas, hgas, _, ⟨hsum, rfl⟩, _, ⟨_, hlimits, hover, hfits,
      rfl⟩, rfl, rfl⟩
    exact ⟨eth, usdc, gas, hsig, hparse, hgas, hsum, hlimits, hover, hfits, rfl⟩
  · rintro ⟨eth, usdc, gas, hsig, hparse, hgas, hsum, hlimits, hover, hfits, rfl⟩
    exact ⟨_, hsig, eth, usdc, hparse, gas, hgas, _, ⟨hsum, rfl⟩, _, ⟨(), hlimits, hover, hfits,
      rfl⟩, rfl, rfl⟩

theorem clockFits_noted (cfg : Config) (s : Storage) (now eth usdc t : ℕ) :
    ClockFits (noted cfg s now eth usdc) t ↔ ClockFits s t := by
  unfold noted
  split_ifs <;> rfl

theorem ethRoom_noted (cfg : Config) (s : Storage) (now eth usdc t amount : ℕ) :
    EthRoom cfg (noted cfg s now eth usdc) t amount ↔ EthRoom cfg s t amount := by
  unfold noted
  split_ifs <;> rfl

/-- Accounting in one statement: only ETH is ever recorded by it. -/
theorem validateAndRecordSpend_eq_ok {cfg : Config} {s s' : Storage} {now : ℕ}
    {call : SpendCall} {events : List Event} :
    validateAndRecordSpend cfg s now call = .ok (s', events) ↔
      ∃ eth, call.spend = .ok (eth, 0) ∧ CooldownOver s now ∧ ValueFits cfg eth 0 ∧
        ClockFits s now ∧ (0 < eth → EthRoom cfg s now eth) ∧
        s' = recorded (noted cfg s now eth 0) now eth 0 ∧
        events = spendEvents eth 0 ++ [.accounted eth 0] := by
  simp only [validateAndRecordSpend, bind_returns, Prod.exists, pure_returns, Prod.mk.injEq,
    checkAndUpdatePanicCooldown_eq_ok, applySpendAndUpdate_eq_ok]
  constructor
  · rintro ⟨eth, usdc, hspend, _, ⟨hover, hfits, rfl⟩, _, _, ⟨hclock, heth, _, rfl, rfl⟩, rfl, rfl⟩
    obtain rfl := (SpendCall.spend_eq_ok hspend).2.2
    rw [clockFits_noted] at hclock
    rw [ethRoom_noted] at heth
    exact ⟨eth, hspend, hover, hfits, hclock, heth, rfl, rfl⟩
  · rintro ⟨eth, hspend, hover, hfits, hclock, heth, rfl, rfl⟩
    refine ⟨eth, 0, hspend, _, ⟨hover, hfits, rfl⟩, _, _, ⟨?_, ?_, ?_, rfl, rfl⟩, rfl, rfl⟩
    · rwa [clockFits_noted]
    · rwa [ethRoom_noted]
    · exact fun h => absurd h (lt_irrefl 0)

end BoundedSpending.Preflight
