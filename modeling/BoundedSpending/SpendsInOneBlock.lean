import BoundedSpending.AccountLedger
import BoundedSpending.WindowRefinement

set_option autoImplicit false

namespace BoundedSpending.SpendsInOneBlock

open CheckedArithmetic LimitPolicy SpendRecorders Preflight WindowRefinement TransactionTraces
open NestedCalls AccountMachine AccountLedger

theorem run_fits {env : Env} {cfg : Config} {block : Block} {labels : List (Label Block Input)}
    {m : Machine Block World Pending} (hrun : Run env cfg block labels m) :
    (policyOf m.world.storage).Fits cfg := by
  have hledger := run_balanced hrun
  exact ⟨⟨hledger.dailyEth.counter_le, hledger.dailyUsdc_le⟩, hledger.monthlyEth.counter_le,
    hledger.monthlyUsdc_le⟩

/-- A gas charge is accepted exactly when the general recorder accepts it as a spend without
    ETH, and leaves the same storage. -/
theorem record_gasCharge_eq (env : Env) (cfg : Config) (block : Block)
    (labels : List (Label Block Input)) (m : Machine Block World Pending)
    (hrun : Run env cfg block labels m) (now amount : ℕ) :
    record cfg m.world.storage (.gasCharge now amount) =
      record cfg m.world.storage (.execution now 0 amount) := by
  have hlimits := run_fits hrun
  apply Option.ext
  intro s'
  rw [record_eq_some hlimits, record_eq_some hlimits]
  rfl

theorem record_gasCharge_eq_dayAfter :
    ∃ m, Run ownerEnv testConfig (blockAt 1000 testTime_lt) dayAfter m ∧
      m.world.storage = dayAfterStorage ∧
      record testConfig dayAfterStorage (.gasCharge 87400 (7 * 10 ^ 6)) =
        record testConfig dayAfterStorage (.execution 87400 0 (7 * 10 ^ 6)) ∧
      (record testConfig dayAfterStorage (.gasCharge 87400 (7 * 10 ^ 6))).isSome = true ∧
      record testConfig dayAfterStorage (.gasCharge 87400 0) =
        record testConfig dayAfterStorage (.execution 87400 0 0) ∧
      (record testConfig dayAfterStorage (.gasCharge 87400 0)).isSome = true := by
  obtain ⟨m, hm, _, hstorage⟩ := dayAfter_reached
  have heq := record_gasCharge_eq _ _ _ _ m hm 87400
  rw [hstorage] at heq
  exact ⟨m, hm, hstorage, heq (7 * 10 ^ 6), by decide +kernel, heq 0, by decide +kernel⟩

def bumped (anchor window now spent eth : ℕ) : ℕ :=
  if 0 < eth then effective anchor window now spent + eth else spent

/-- If the window has run out, then nothing is left on its counter. -/
def Cleared (anchor window now spent : ℕ) : Prop := anchor + window ≤ now → spent = 0

variable {anchor window now spent limit eth₁ eth₂ : ℕ}

theorem Cleared.effective_eq (h : Cleared anchor window now spent) :
    effective anchor window now spent = spent := by
  unfold effective
  split_ifs with hexp
  · exact (h hexp).symm
  · rfl

theorem cleared_of_effective_eq (h : effective anchor window now spent = spent) :
    Cleared anchor window now spent := by
  intro hexp
  rw [effective, if_pos hexp] at h
  exact h.symm

theorem bumped_bumped (hw : 0 < window)
    (h : 0 < eth₁ ∨ eth₂ = 0 ∨ Cleared anchor window now spent) :
    bumped (rolled anchor window now) window now (bumped anchor window now spent eth₁) eth₂ =
      bumped anchor window now spent (eth₁ + eth₂) := by
  unfold bumped
  rw [effective_rolled hw]
  by_cases h₁ : 0 < eth₁
  · have hsum : 0 < eth₁ + eth₂ := by omega
    rw [if_pos h₁, if_pos hsum]
    split_ifs with h₂
    · exact Nat.add_assoc _ _ _
    · omega
  · have hzero : eth₁ = 0 := by omega
    subst hzero
    rw [Nat.zero_add, if_neg h₁]
    rcases h with h | h | h
    · exact absurd h h₁
    · rw [h]
      rfl
    · rw [h.effective_eq]

/-- Recorded in turn, two spends ask at least what their sum asks, and no more unless the
    second has to go on top of a counter that should have been cleared. -/
theorem room_of_room_in_turn (h₁ : 0 < eth₁ → effective anchor window now spent + eth₁ ≤ limit)
    (h₂ : 0 < eth₂ → bumped anchor window now spent eth₁ + eth₂ ≤ limit)
    (hsum : 0 < eth₁ + eth₂) : effective anchor window now spent + (eth₁ + eth₂) ≤ limit := by
  have hle : effective anchor window now spent ≤ spent := effective_le
  unfold bumped at h₂
  split_ifs at h₂ with hpos
  · have hfirst := h₁ hpos
    by_cases hpos₂ : 0 < eth₂
    · have hsecond := h₂ hpos₂
      omega
    · omega
  · have hsecond := h₂ (by omega)
    omega

theorem room_in_turn_of_room (h : 0 < eth₁ ∨ eth₂ = 0 ∨ Cleared anchor window now spent)
    (hroom : effective anchor window now spent + (eth₁ + eth₂) ≤ limit) (hpos : 0 < eth₂) :
    bumped anchor window now spent eth₁ + eth₂ ≤ limit := by
  unfold bumped
  rcases h with h | h | h
  · rw [if_pos h]
    omega
  · omega
  · rw [h.effective_eq] at hroom ⊢
    split_ifs <;> omega

def EthCleared (s : Storage) (now : ℕ) : Prop :=
  Cleared s.lastDailyResetTimestamp dailyWindow now s.dailyEthSpent ∧
    Cleared s.lastMonthlyResetTimestamp monthlyWindow now s.monthlyEthSpent

def Affordable (cfg : Config) (s : Storage) (now eth usdc : ℕ) : Prop :=
  ClockFits s now ∧ (0 < eth → EthRoom cfg s now eth) ∧ (0 < usdc → UsdcRoom cfg s usdc)

def inTurn (cfg : Config) (s : Storage) (first second : Spend) : Option Storage :=
  (record cfg s first).bind fun s' => record cfg s' second

def together (first second : Spend) : Spend :=
  .execution first.time (first.eth + second.eth) (first.usdc + second.usdc)

variable {cfg : Config} {s s' : Storage} {first second : Spend} {usdc₁ usdc₂ : ℕ}

theorem recorded_recorded (h : 0 < eth₁ ∨ eth₂ = 0 ∨ EthCleared s now) :
    recorded (recorded s now eth₁ usdc₁) now eth₂ usdc₂ =
      recorded s now (eth₁ + eth₂) (usdc₁ + usdc₂) := by
  have hdaily := bumped_bumped dailyWindow_pos (h.imp_right (Or.imp_right And.left))
  have hmonthly := bumped_bumped monthlyWindow_pos (h.imp_right (Or.imp_right And.right))
  simp only [bumped] at hdaily hmonthly
  simp only [recorded, hdaily, hmonthly, rolled_rolled, Nat.add_assoc]

theorem ethRoom_recorded : EthRoom cfg (recorded s now eth₁ usdc₁) now eth₂ ↔
    bumped s.lastDailyResetTimestamp dailyWindow now s.dailyEthSpent eth₁ + eth₂ ≤
        cfg.dailyEthLimit ∧
      bumped s.lastMonthlyResetTimestamp monthlyWindow now s.monthlyEthSpent eth₁ + eth₂ ≤
        cfg.monthlyEthLimit := by
  simp only [EthRoom, recorded, effective_rolled dailyWindow_pos,
    effective_rolled monthlyWindow_pos, bumped]

theorem record_eq_some_iff {op : Spend} (hlimits : (policyOf s).Fits cfg) :
    record cfg s op = some s' ↔
      Affordable cfg s op.time op.eth op.usdc ∧ s' = recorded s op.time op.eth op.usdc := by
  rw [record_eq_some hlimits, Affordable, and_assoc, and_assoc]

theorem inTurn_eq_some (hlimits : (policyOf s).Fits cfg) (hsame : second.time = first.time) :
    inTurn cfg s first second = some s' ↔
      Affordable cfg s first.time first.eth first.usdc ∧
      (0 < second.eth → EthRoom cfg (recorded s first.time first.eth first.usdc) first.time
        second.eth) ∧
      (0 < second.usdc → UsdcRoom cfg s (first.usdc + second.usdc)) ∧
      s' = recorded (recorded s first.time first.eth first.usdc) first.time second.eth
        second.usdc := by
  have hsecond : ∀ v, record cfg s first = some v → (policyOf v).Fits cfg := by
    intro v hv
    have hfits : (policyOf (after (record cfg) s first)).Fits cfg := fits_after hlimits
    rwa [after_of_eq_some hv] at hfits
  rw [inTurn, Option.bind_eq_some_iff]
  constructor
  · intro h
    obtain ⟨v, hv, hs'⟩ := h
    have hs' := (record_eq_some (hsecond v hv)).mp hs'
    obtain ⟨hfirst, rfl⟩ := (record_eq_some_iff hlimits).mp hv
    rw [hsame, usdcRoom_recorded] at hs'
    exact ⟨hfirst, hs'.2.1, hs'.2.2.1, hs'.2.2.2⟩
  · intro h
    obtain ⟨hfirst, heth, husdc, hs'⟩ := h
    have hv : record cfg s first = some (recorded s first.time first.eth first.usdc) :=
      (record_eq_some_iff hlimits).mpr ⟨hfirst, rfl⟩
    refine ⟨_, hv, (record_eq_some (hsecond _ hv)).mpr ?_⟩
    rw [hsame, usdcRoom_recorded, clockFits_recorded]
    exact ⟨hfirst.1, heth, husdc, hs'⟩

theorem record_together (hlimits : (policyOf s).Fits cfg) :
    record cfg s (together first second) = some s' ↔
      Affordable cfg s first.time (first.eth + second.eth) (first.usdc + second.usdc) ∧
        s' = recorded s first.time (first.eth + second.eth) (first.usdc + second.usdc) :=
  record_eq_some_iff hlimits

theorem affordable_together (hfirst : Affordable cfg s now eth₁ usdc₁)
    (heth : 0 < eth₂ → EthRoom cfg (recorded s now eth₁ usdc₁) now eth₂)
    (husdc : 0 < usdc₂ → UsdcRoom cfg s (usdc₁ + usdc₂)) :
    Affordable cfg s now (eth₁ + eth₂) (usdc₁ + usdc₂) := by
  rw [ethRoom_recorded] at heth
  obtain ⟨hclock, heth₁, husdc₁⟩ := hfirst
  refine ⟨hclock, ?_, ?_⟩
  · intro hsum
    exact ⟨room_of_room_in_turn (fun hpos => (heth₁ hpos).1) (fun hpos => (heth hpos).1) hsum,
      room_of_room_in_turn (fun hpos => (heth₁ hpos).2) (fun hpos => (heth hpos).2) hsum⟩
  · intro hsum
    by_cases hpos : 0 < usdc₂
    · exact husdc hpos
    · have hzero : usdc₂ = 0 := by omega
      rw [hzero] at hsum ⊢
      exact husdc₁ hsum

theorem inTurn_eq_together (hlimits : (policyOf s).Fits cfg) (hsame : second.time = first.time)
    (h : 0 < first.eth ∨ second.eth = 0 ∨ EthCleared s first.time) :
    inTurn cfg s first second = record cfg s (together first second) := by
  apply Option.ext
  intro s'
  rw [inTurn_eq_some hlimits hsame, record_together hlimits, recorded_recorded h]
  constructor
  · intro hturn
    exact ⟨affordable_together hturn.1 hturn.2.1 hturn.2.2.1, hturn.2.2.2⟩
  · intro hsum
    obtain ⟨⟨hclock, heth, husdc⟩, hs'⟩ := hsum
    refine ⟨⟨hclock, ?_, ?_⟩, ?_, ?_, hs'⟩
    · intro hpos
      have hroom := heth (by omega)
      exact ⟨by have := hroom.1; omega, by have := hroom.2; omega⟩
    · intro hpos
      exact (husdc (by omega)).mono (Nat.le_add_right _ _)
    · intro hpos
      have hroom := heth (by omega)
      rw [ethRoom_recorded]
      exact ⟨room_in_turn_of_room (h.imp_right (Or.imp_right And.left)) hroom.1 hpos,
        room_in_turn_of_room (h.imp_right (Or.imp_right And.right)) hroom.2 hpos⟩
    · intro hpos
      exact husdc (by omega)

/-- A spend without ETH moves the anchors and leaves the ETH counters of the windows that
    have run out, so an ETH spend after it starts from a stale counter. -/
theorem cleared_of_inTurn_eq (hlimits : (policyOf s).Fits cfg) (hsame : second.time = first.time)
    (hfirst : first.eth = 0) (hsecond : 0 < second.eth)
    (hsum : Affordable cfg s first.time (first.eth + second.eth) (first.usdc + second.usdc))
    (h : (inTurn cfg s first second).map policyOf =
      (record cfg s (together first second)).map policyOf) : EthCleared s first.time := by
  rw [(record_together hlimits).mpr ⟨hsum, rfl⟩, Option.map_some, Option.map_eq_some_iff] at h
  obtain ⟨s', hs', hpolicy⟩ := h
  obtain ⟨_, _, _, rfl⟩ := (inTurn_eq_some hlimits hsame).mp hs'
  have hdaily := congrArg (fun r => r.daily.eth) hpolicy
  have hmonthly := congrArg (fun r => r.monthly.eth) hpolicy
  simp only [policyOf, recorded, hfirst, lt_irrefl, if_false, Nat.zero_add, if_pos hsecond,
    effective_rolled dailyWindow_pos, effective_rolled monthlyWindow_pos, Nat.add_right_cancel_iff]
    at hdaily hmonthly
  exact ⟨cleared_of_effective_eq hdaily.symm, cleared_of_effective_eq hmonthly.symm⟩

theorem inTurn_eq_together_iff (hlimits : (policyOf s).Fits cfg)
    (hsame : second.time = first.time) :
    (inTurn cfg s first second).map policyOf = (record cfg s (together first second)).map policyOf ↔
      ¬ Affordable cfg s first.time (first.eth + second.eth) (first.usdc + second.usdc) ∨
        0 < first.eth ∨ second.eth = 0 ∨ EthCleared s first.time := by
  constructor
  · intro h
    by_cases hsum : Affordable cfg s first.time (first.eth + second.eth)
        (first.usdc + second.usdc)
    · by_cases hfirst : 0 < first.eth
      · exact .inr (.inl hfirst)
      · by_cases hsecond : second.eth = 0
        · exact .inr (.inr (.inl hsecond))
        · exact .inr (.inr (.inr (cleared_of_inTurn_eq hlimits hsame (by omega) (by omega) hsum h)))
    · exact .inl hsum
  · intro h
    rcases h with hsum | h
    · have htogether : record cfg s (together first second) = none := by
        apply Option.eq_none_iff_forall_ne_some.mpr
        intro v hv
        exact hsum ((record_together hlimits).mp hv).1
      have hturn : inTurn cfg s first second = none := by
        apply Option.eq_none_iff_forall_ne_some.mpr
        intro v hv
        obtain ⟨hfirst, heth, husdc, _⟩ := (inTurn_eq_some hlimits hsame).mp hv
        exact hsum (affordable_together hfirst heth husdc)
      rw [htogether, hturn]
    · rw [inTurn_eq_together hlimits hsame h]

theorem together_comm (hsame : second.time = first.time) :
    together second first = together first second := by
  rw [together, together, hsame, Nat.add_comm second.eth, Nat.add_comm second.usdc]

/-- Two spends of one block leave what their sum leaves, in either order, exactly when their
    sum cannot be recorded, or both or neither carry ETH, or no window that has run out still
    has ETH on its counter. -/
theorem spends_in_one_block_iff (env : Env) (cfg : Config) (block : Block)
    (labels : List (Label Block Input)) (m : Machine Block World Pending)
    (hrun : Run env cfg block labels m) (first second : Spend)
    (hsame : second.time = first.time) :
    ((inTurn cfg m.world.storage first second).map policyOf =
        (record cfg m.world.storage (together first second)).map policyOf ∧
      (inTurn cfg m.world.storage second first).map policyOf =
        (inTurn cfg m.world.storage first second).map policyOf) ↔
      ¬ Affordable cfg m.world.storage first.time (first.eth + second.eth)
          (first.usdc + second.usdc) ∨
        (0 < first.eth ↔ 0 < second.eth) ∨ EthCleared m.world.storage first.time := by
  have hlimits := run_fits hrun
  have hforward := inTurn_eq_together_iff hlimits hsame
  have hbackward := inTurn_eq_together_iff hlimits hsame.symm
  rw [together_comm hsame, hsame, Nat.add_comm second.eth, Nat.add_comm second.usdc] at hbackward
  have horder : ∀ x y z : Option Reference, (x = z ∧ y = x) ↔ (x = z ∧ y = z) := by
    intro x y z
    constructor
    · intro h
      exact ⟨h.1, h.2.trans h.1⟩
    · intro h
      exact ⟨h.1, h.2.trans h.1.symm⟩
  rw [horder, hforward, hbackward]
  by_cases hfirst : 0 < first.eth
  · by_cases hsecond : 0 < second.eth
    · simp [hfirst, hsecond]
    · have hzero : second.eth = 0 := by omega
      have hne : first.eth ≠ 0 := by omega
      simp [hfirst, hzero, hne]
  · have hzero : first.eth = 0 := by omega
    by_cases hsecond : 0 < second.eth
    · have hne : second.eth ≠ 0 := by omega
      simp [hzero, hsecond, hne]
    · have hzero' : second.eth = 0 := by omega
      simp [hzero, hzero']

theorem spends_in_one_block_dayAfter :
    ∃ m, Run ownerEnv testConfig (blockAt 1000 testTime_lt) dayAfter m ∧
      m.world.storage = dayAfterStorage ∧
      (inTurn testConfig dayAfterStorage (.execution 87400 (ether / 10) (5 * 10 ^ 6))
          (.execution 87400 (ether / 5) 0)).map policyOf =
        (record testConfig dayAfterStorage
          (.execution 87400 (ether / 10 + ether / 5) (5 * 10 ^ 6 + 0))).map policyOf ∧
      (inTurn testConfig dayAfterStorage (.execution 87400 (ether / 5) 0)
          (.execution 87400 (ether / 10) (5 * 10 ^ 6))).map policyOf =
        (inTurn testConfig dayAfterStorage (.execution 87400 (ether / 10) (5 * 10 ^ 6))
          (.execution 87400 (ether / 5) 0)).map policyOf ∧
      (record testConfig dayAfterStorage
        (.execution 87400 (ether / 10 + ether / 5) (5 * 10 ^ 6 + 0))).isSome = true := by
  obtain ⟨m, hm, _, hstorage⟩ := dayAfter_reached
  have hiff := spends_in_one_block_iff _ _ _ _ m hm
    (.execution 87400 (ether / 10) (5 * 10 ^ 6)) (.execution 87400 (ether / 5) 0) rfl
  rw [hstorage] at hiff
  have hboth : (0 < ether / 10 ↔ 0 < ether / 5) := by decide
  obtain ⟨htogether, horder⟩ := hiff.mpr (.inr (.inl hboth))
  exact ⟨m, hm, hstorage, htogether, horder, by decide +kernel⟩

/-- A day after a spend of 0.4 ether, a gas charge and a spend of 0.7 ether are recorded
    together and in one order, and refused in the other. -/
theorem gas_before_spend_refused :
    ∃ m labels, Run ownerEnv testConfig (blockAt 1000 (by decide)) labels m ∧
      m.clock.timestamp = 87400 ∧
      inTurn testConfig m.world.storage (.gasCharge 87400 (5 * 10 ^ 6))
        (.execution 87400 (7 * ether / 10) 0) = none ∧
      (record testConfig m.world.storage
        (.execution 87400 (7 * ether / 10) (5 * 10 ^ 6))).isSome = true ∧
      (inTurn testConfig m.world.storage (.execution 87400 (7 * ether / 10) 0)
        (.gasCharge 87400 (5 * 10 ^ 6))).isSome = true := by
  have hspent : (run (account ownerEnv testConfig) (launched (blockAt 1000 (by decide)) ether 0)
      [.call (.execute 0x101 ⟨0x909, 4 * ether / 10, []⟩), .answer true,
        .advance (blockAt 87400 (by decide))]).map
        (fun m => (m.clock.timestamp, m.world.storage)) =
      some (87400, { deployed 1000 with
        dailyEthSpent := 4 * ether / 10, monthlyEthSpent := 4 * ether / 10,
        lastLargeSpendTime := 1000 }) := by
    decide +kernel
  obtain ⟨m, hrun, hstate⟩ := Run.of_map hspent
  obtain ⟨htime, hstorage⟩ := Prod.mk.inj hstate
  refine ⟨m, _, hrun, htime, ?_, ?_, ?_⟩
  · rw [hstorage]
    decide +kernel
  · rw [hstorage]
    decide +kernel
  · rw [hstorage]
    decide +kernel

end BoundedSpending.SpendsInOneBlock
