import BoundedSpending.AccountLedger

set_option autoImplicit false

namespace BoundedSpending.WithinLimitSpends

open CheckedArithmetic LimitPolicy SpendParser CallDataDecoder SpendRecorders Preflight
open NestedCalls AccountMachine AccountLedger

/-- `execute`, called by the EntryPoint, gets past its accounting to the call itself. -/
def ReachesCall (cfg : Config) (now : ℕ) (w : World) (call : Call) : Prop :=
  ∃ s events, validateAndRecordSpend cfg w.storage now (.execute call) = .ok (s, events) ∧
    execute cfg now w cfg.entryPointContract call =
      doCalls now (logged { w with storage := s } now events) [call]

def CooldownInactive (s : Storage) (now : ℕ) : Prop :=
  s.lastLargeSpendTime = 0 ∨ s.lastLargeSpendTime + cooldownPeriod ≤ now

variable {cfg : Config} {s : Storage} {w : World} {now eth usdcAmount : ℕ} {call : Call}

theorem rolled_lt {anchor window bound : ℕ} (ha : anchor < bound) (hn : now < bound) :
    rolled anchor window now < bound := by
  unfold rolled
  split_ifs
  · exact hn
  · exact ha

theorem windowEnd_lt {anchor window : ℕ} (hw : window ≤ monthlyWindow) (h : anchor < 2 ^ 64) :
    anchor + window < wordSize := by
  have hend : 2 ^ 64 + monthlyWindow < wordSize := by decide
  omega

theorem clockFits_of_lt (hdaily : s.lastDailyResetTimestamp < 2 ^ 64)
    (hmonthly : s.lastMonthlyResetTimestamp < 2 ^ 64) (hnow : now < 2 ^ 64) : ClockFits s now := by
  have hw : dailyWindow ≤ monthlyWindow := by decide
  exact ⟨windowEnd_lt hw hdaily, windowEnd_lt le_rfl hmonthly,
    windowEnd_lt hw (rolled_lt hdaily hnow), windowEnd_lt le_rfl (rolled_lt hmonthly hnow)⟩

theorem CooldownInactive.over (h : CooldownInactive s now) (hnow : now < 2 ^ 64) :
    CooldownOver s now := by
  have hword : 2 ^ 64 < wordSize := by decide
  rcases h with h | h
  · exact .inl h
  · exact .inr ⟨by omega, h⟩

/-- The threshold is computed on every call, after the value and before any limit. -/
theorem checkAndUpdatePanicCooldown_overflow (hover : CooldownOver s now)
    (hscaled : eth * cfg.usdcPerEth < wordSize)
    (htotal : eth * cfg.usdcPerEth / ether + usdcAmount < wordSize)
    (hlimit : ¬ cfg.dailyUsdcLimit * panicThresholdBps < wordSize) :
    checkAndUpdatePanicCooldown cfg s now eth usdcAmount = .error .arithmeticOverflow := by
  have hguard : cooldownGuard s now = .ok () := cooldownGuard_eq_ok.mpr hover
  have hvalue : getUsdValue cfg eth = .ok (eth * cfg.usdcPerEth / ether) := by
    simp only [getUsdValue, bind_returns, mul_eq_ok, pure_returns]
    exact ⟨_, ⟨hscaled, rfl⟩, rfl⟩
  have hsum : add (eth * cfg.usdcPerEth / ether) usdcAmount =
      .ok (eth * cfg.usdcPerEth / ether + usdcAmount) := add_eq_ok.mpr ⟨htotal, rfl⟩
  have hthreshold : mul cfg.dailyUsdcLimit panicThresholdBps = .error .arithmeticOverflow :=
    if_neg hlimit
  simp only [checkAndUpdatePanicCooldown, bind, Except.bind, hguard, hvalue, hsum, hthreshold]

theorem valueFits_iff (hscaled : eth * cfg.usdcPerEth < wordSize) :
    ValueFits cfg eth 0 ↔ cfg.dailyUsdcLimit * panicThresholdBps < wordSize := by
  have htotal : eth * cfg.usdcPerEth / ether + 0 < wordSize :=
    (Nat.div_le_self _ _).trans_lt hscaled
  constructor
  · intro h
    exact h.2.2
  · intro h
    exact ⟨hscaled, htotal, h⟩

theorem reachesCall_iff_accounted : ReachesCall cfg now w call ↔
    ∃ s events, validateAndRecordSpend cfg w.storage now (.execute call) = .ok (s, events) := by
  constructor
  · intro h
    obtain ⟨s, events, hok, _⟩ := h
    exact ⟨s, events, hok⟩
  · intro h
    obtain ⟨s, events, hok⟩ := h
    refine ⟨s, events, hok, ?_⟩
    simp only [execute, spendAndCall, ne_eq, not_true_eq_false, if_false, hok, SpendCall.calls]

/-- A spend of ETH that the limits allow, at a time without a cooldown, gets to its call
    exactly when the daily USDC limit leaves room for the factor 5000 of the threshold;
    otherwise the account reverts with a panic. -/
theorem within_limit_spend_iff (env : Env) (cfg : Config) (block : Block)
    (labels : List (Label Block Input)) (m : Machine Block World Pending)
    (hrun : Run env cfg block labels m) (htime : m.clock.timestamp < 2 ^ 64) (now : ℕ)
    (hnow : now < 2 ^ 64) (hinactive : CooldownInactive m.world.storage now) (call : Call)
    (htarget : call.target ≠ usdc) (hvalue : 0 < call.value)
    (hroom : EthRoom cfg m.world.storage now call.value)
    (hscaled : call.value * cfg.usdcPerEth < wordSize) :
    (ReachesCall cfg now m.world call ↔ cfg.dailyUsdcLimit * panicThresholdBps < wordSize) ∧
      (¬ cfg.dailyUsdcLimit * panicThresholdBps < wordSize →
        execute cfg now m.world cfg.entryPointContract call = .revert .arithmeticOverflow) := by
  have hledger := run_balanced hrun
  have hover := hinactive.over hnow
  have hclock : ClockFits m.world.storage now :=
    clockFits_of_lt (hledger.dailyEth.anchor_le.trans_lt htime)
      (hledger.monthlyEth.anchor_le.trans_lt htime) hnow
  have hspend : (SpendCall.execute call).spend = .ok (call.value, 0) :=
    parseSpendAmounts_eq_ok.mpr ⟨htarget, hvalue, rfl, rfl⟩
  refine ⟨?_, ?_⟩
  · rw [reachesCall_iff_accounted, ← valueFits_iff hscaled]
    constructor
    · intro h
      obtain ⟨s, events, hok⟩ := h
      obtain ⟨eth, heth, _, hfits, _⟩ := validateAndRecordSpend_eq_ok.mp hok
      rw [hspend] at heth
      cases heth
      exact hfits
    · intro hfits
      exact ⟨_, _, validateAndRecordSpend_eq_ok.mpr
        ⟨call.value, hspend, hover, hfits, hclock, fun _ => hroom, rfl, rfl⟩⟩
  · intro hlimit
    have htotal : call.value * cfg.usdcPerEth / ether + 0 < wordSize :=
      (Nat.div_le_self _ _).trans_lt hscaled
    have hpanic := checkAndUpdatePanicCooldown_overflow hover hscaled htotal hlimit
    have hrefused : validateAndRecordSpend cfg m.world.storage now (.execute call) =
        .error .arithmeticOverflow := by
      simp only [validateAndRecordSpend, bind, Except.bind, hspend, hpanic]
    simp only [execute, spendAndCall, ne_eq, not_true_eq_false, if_false, hrefused]

theorem within_limit_spend_dayAfter :
    ∃ m, Run ownerEnv testConfig (blockAt 1000 testTime_lt) dayAfter m ∧
      m.world.storage = dayAfterStorage ∧
      (ReachesCall testConfig 87400 m.world ⟨0x909, ether, []⟩ ↔
        testConfig.dailyUsdcLimit * panicThresholdBps < wordSize) ∧
      ReachesCall testConfig 87400 m.world ⟨0x909, ether, []⟩ := by
  obtain ⟨m, hm, htime, hstorage⟩ := dayAfter_reached
  have hinactive : CooldownInactive m.world.storage 87400 := by
    rw [hstorage]
    exact .inr (by decide)
  have hroom : EthRoom testConfig m.world.storage 87400 ether := by
    rw [hstorage]
    decide
  have hiff := (within_limit_spend_iff _ _ _ _ m hm (by rw [htime]; decide) 87400 (by decide)
    hinactive ⟨0x909, ether, []⟩ (by decide) (by decide) hroom (by decide)).1
  exact ⟨m, hm, hstorage, hiff, hiff.mpr (by decide)⟩

theorem maxWord_lt : 2 ^ 256 - 1 < wordSize := by decide

def unlimitedConfig : Config :=
  { testConfig with
    dailyEthLimit := 2 ^ 256 - 1
    monthlyEthLimit := 2 ^ 256 - 1
    dailyUsdcLimit := 2 ^ 256 - 1
    monthlyUsdcLimit := 2 ^ 256 - 1
    dailyEthLimit_lt := maxWord_lt
    monthlyEthLimit_lt := maxWord_lt
    dailyUsdcLimit_lt := maxWord_lt
    monthlyUsdcLimit_lt := maxWord_lt }

/-- Fresh from its deployment, it cannot send a single wei. -/
theorem unlimited_spend_refused :
    Run ownerEnv unlimitedConfig (blockAt 1000 (by decide)) []
        (launched (blockAt 1000 (by decide)) ether 0) ∧
      CooldownInactive (deployed 1000) 1000 ∧ EthRoom unlimitedConfig (deployed 1000) 1000 1 ∧
      1 * unlimitedConfig.usdcPerEth < wordSize ∧
      execute unlimitedConfig 1000 (launched (blockAt 1000 (by decide)) ether 0).world
        unlimitedConfig.entryPointContract ⟨0x909, 1, []⟩ = .revert .arithmeticOverflow ∧
      ¬ ReachesCall unlimitedConfig 1000 (launched (blockAt 1000 (by decide)) ether 0).world
        ⟨0x909, 1, []⟩ := by
  have hrefused : validateAndRecordSpend unlimitedConfig (deployed 1000) 1000
      (.execute ⟨0x909, 1, []⟩) = .error .arithmeticOverflow := by
    decide +kernel
  refine ⟨⟨_, _, rfl⟩, .inl rfl, by decide, by decide, by decide +kernel, ?_⟩
  rw [reachesCall_iff_accounted]
  rintro ⟨s, events, hok⟩
  cases hrefused.symm.trans hok

end BoundedSpending.WithinLimitSpends
