import BoundedSpending.AccountLedger

set_option autoImplicit false

namespace BoundedSpending.PermutedBatches

open CheckedArithmetic LimitPolicy SpendParser CallDataDecoder SpendRecorders Preflight
open NestedCalls AccountMachine AccountLedger

def Parses (call : Call) : Prop :=
  ∃ amounts, parseSpendAmounts call.target call.value call.data = .ok amounts

def amountsOf (call : Call) : ℕ × ℕ :=
  (parseSpendAmounts call.target call.value call.data).toOption.getD (0, 0)

def ethTotal (calls : List Call) : ℕ := (calls.map fun call => (amountsOf call).1).sum

def usdcTotal (calls : List Call) : ℕ := (calls.map fun call => (amountsOf call).2).sum

/-- `executeBatch` up to its first `_doCall`. -/
def batchAccounting (cfg : Config) (s : Storage) (now : ℕ) (sender : Address)
    (calls : List Call) : Except Revert (Storage × List Event) := do
  require (sender = cfg.entryPointContract) .notFromEntryPoint
  validateAndRecordSpend cfg s now (.executeBatch calls)

/-- The batch is accounted for as a whole, and only then called one by one. -/
theorem executeBatch_eq (cfg : Config) (now : ℕ) (w : World) (sender : Address)
    (calls : List Call) : executeBatch cfg now w sender calls =
      match batchAccounting cfg w.storage now sender calls with
      | .error reason => .revert reason
      | .ok (s, events) => doCalls now (logged { w with storage := s } now events) calls := by
  by_cases hsender : sender = cfg.entryPointContract
  · simp only [executeBatch, spendAndCall, batchAccounting, require, hsender, if_true, ne_eq,
      not_true_eq_false, if_false, bind, Except.bind]
    rfl
  · simp only [executeBatch, spendAndCall, batchAccounting, require, hsender, if_false, ne_eq,
      not_false_eq_true, if_true, bind, Except.bind]

theorem amountsOf_eq {call : Call} {amounts : ℕ × ℕ}
    (h : parseSpendAmounts call.target call.value call.data = .ok amounts) :
    amountsOf call = amounts := by
  rw [amountsOf, h]
  rfl

variable {calls calls' : List Call}

/-- The sums only grow, so the checked additions fail somewhere exactly when the totals do
    not fit in a word. -/
theorem totalSpend_eq_ok_iff {eth usdc : ℕ} {totals : ℕ × ℕ} (heth : eth < wordSize)
    (husdc : usdc < wordSize) : totalSpend calls eth usdc = .ok totals ↔
      (∀ call ∈ calls, Parses call) ∧ eth + ethTotal calls < wordSize ∧
        usdc + usdcTotal calls < wordSize ∧
        totals = (eth + ethTotal calls, usdc + usdcTotal calls) := by
  induction calls generalizing eth usdc with
  | nil =>
    simp only [totalSpend, ethTotal, usdcTotal, List.map_nil, List.sum_nil, Nat.add_zero,
      List.not_mem_nil, false_implies, implies_true, true_and, heth, husdc, Except.ok.injEq]
    exact eq_comm
  | cons call calls ih =>
    have hethCons : ethTotal (call :: calls) = (amountsOf call).1 + ethTotal calls := rfl
    have husdcCons : usdcTotal (call :: calls) = (amountsOf call).2 + usdcTotal calls := rfl
    simp only [totalSpend, bind_returns, Prod.exists, add_eq_ok, List.forall_mem_cons, hethCons,
      husdcCons, ← Nat.add_assoc]
    constructor
    · rintro ⟨e, u, hparse, _, ⟨he, rfl⟩, _, ⟨hu, rfl⟩, hrest⟩
      obtain ⟨hall, hsums⟩ := (ih he hu).mp hrest
      rw [amountsOf_eq hparse]
      exact ⟨⟨⟨_, hparse⟩, hall⟩, hsums⟩
    · rintro ⟨⟨⟨⟨e, u⟩, hparse⟩, hall⟩, hsums⟩
      rw [amountsOf_eq hparse] at hsums
      have he : eth + e < wordSize := (Nat.le_add_right _ _).trans_lt hsums.1
      have hu : usdc + u < wordSize := (Nat.le_add_right _ _).trans_lt hsums.2.1
      exact ⟨e, u, hparse, _, ⟨he, rfl⟩, _, ⟨hu, rfl⟩, (ih he hu).mpr ⟨hall, hsums⟩⟩

theorem ethTotal_perm (h : calls.Perm calls') : ethTotal calls = ethTotal calls' :=
  (h.map _).sum_nat

theorem usdcTotal_perm (h : calls.Perm calls') : usdcTotal calls = usdcTotal calls' :=
  (h.map _).sum_nat

theorem totalSpend_perm (h : calls.Perm calls') :
    (totalSpend calls 0 0).toOption = (totalSpend calls' 0 0).toOption := by
  have hword : 0 < wordSize := by decide
  apply Option.ext
  intro totals
  rw [toOption_eq_some, toOption_eq_some, totalSpend_eq_ok_iff hword hword,
    totalSpend_eq_ok_iff hword hword, ethTotal_perm h, usdcTotal_perm h]
  simp only [h.mem_iff]

variable {cfg : Config} {s : Storage} {now : ℕ} {sender : Address}

theorem validateAndRecordSpend_congr {call call' : SpendCall}
    (h : call.spend.toOption = call'.spend.toOption) :
    (validateAndRecordSpend cfg s now call).toOption =
      (validateAndRecordSpend cfg s now call').toOption := by
  apply Option.ext
  intro result
  simp only [toOption_eq_some, validateAndRecordSpend, bind_returns]
  have hiff : ∀ amounts, call.spend = .ok amounts ↔ call'.spend = .ok amounts := by
    intro amounts
    rw [← toOption_eq_some, h, toOption_eq_some]
  simp only [hiff]

theorem batchAccounting_perm (h : calls.Perm calls') :
    (batchAccounting cfg s now sender calls).toOption =
      (batchAccounting cfg s now sender calls').toOption := by
  have haccounted : (validateAndRecordSpend cfg s now (.executeBatch calls)).toOption =
      (validateAndRecordSpend cfg s now (.executeBatch calls')).toOption :=
    validateAndRecordSpend_congr (totalSpend_perm h)
  apply Option.ext
  intro result
  simp only [toOption_eq_some, batchAccounting, bind_returns, require_eq_ok]
  rw [← toOption_eq_some, haccounted, toOption_eq_some]

theorem liveUsdcRoom_of_room {amount : ℕ} (h : UsdcRoom cfg s amount) :
    LiveUsdcRoom cfg s now amount :=
  ⟨(Nat.add_le_add_right effective_le amount).trans h.1,
    (Nat.add_le_add_right effective_le amount).trans h.2⟩

theorem totals_fit {env : Env} {block : Block} {labels : List (Label Block Input)}
    {m : Machine Block World Pending} (hrun : Run env cfg block labels m)
    {result : Storage × List Event}
    (hok : validateAndRecordSpend cfg m.world.storage now (.executeBatch calls) = .ok result) :
    (∀ call ∈ calls, Parses call) ∧ EthRoom cfg m.world.storage now (ethTotal calls) ∧
      LiveUsdcRoom cfg m.world.storage now (usdcTotal calls) := by
  have hledger := run_balanced hrun
  have hword : 0 < wordSize := by decide
  simp only [validateAndRecordSpend, bind_returns, Prod.exists, applySpendAndUpdate_eq_ok,
    checkAndUpdatePanicCooldown_eq_ok] at hok
  obtain ⟨eth, usdcAmount, hspend, _, ⟨_, _, rfl⟩, _, _, ⟨_, heth, husdc, _, _⟩, _⟩ := hok
  obtain ⟨hall, _, _, htotals⟩ := (totalSpend_eq_ok_iff hword hword).mp hspend
  rw [Nat.zero_add, Nat.zero_add, Prod.mk.injEq] at htotals
  obtain ⟨rfl, rfl⟩ := htotals
  rw [ethRoom_noted] at heth
  have hcounters := noted_sameCounters cfg m.world.storage now (ethTotal calls) (usdcTotal calls)
  refine ⟨hall, ?_, ?_⟩
  · by_cases hpos : 0 < ethTotal calls
    · exact heth hpos
    · have hzero : ethTotal calls = 0 := by omega
      rw [hzero, EthRoom, Nat.add_zero, Nat.add_zero]
      exact ⟨effective_le.trans hledger.dailyEth.counter_le,
        effective_le.trans hledger.monthlyEth.counter_le⟩
  · by_cases hpos : 0 < usdcTotal calls
    · apply liveUsdcRoom_of_room
      have hroom := husdc hpos
      rwa [UsdcRoom, hcounters.dailyUsdc, hcounters.monthlyUsdc] at hroom
    · have hzero : usdcTotal calls = 0 := by omega
      rw [hzero]
      apply liveUsdcRoom_of_room
      exact ⟨hledger.dailyUsdc_le, hledger.monthlyUsdc_le⟩

/-- The accounting of a batch answers alike, and leaves the same storage, in every order of
    its calls; and whatever it accepts parses and fits as a whole. -/
theorem batch_order_irrelevant (env : Env) (cfg : Config) (block : Block)
    (labels : List (Label Block Input)) (m : Machine Block World Pending)
    (hrun : Run env cfg block labels m) (now : ℕ) (sender : Address) (calls calls' : List Call)
    (hperm : calls.Perm calls') :
    (batchAccounting cfg m.world.storage now sender calls).toOption.map Prod.fst =
        (batchAccounting cfg m.world.storage now sender calls').toOption.map Prod.fst ∧
      ∀ result, batchAccounting cfg m.world.storage now sender calls = .ok result →
        (∀ call ∈ calls, Parses call) ∧
          EthRoom cfg m.world.storage now (ethTotal calls) ∧
          LiveUsdcRoom cfg m.world.storage now (usdcTotal calls) := by
  refine ⟨?_, ?_⟩
  · rw [batchAccounting_perm hperm]
  · intro result hok
    simp only [batchAccounting, bind_returns] at hok
    obtain ⟨_, _, haccounted⟩ := hok
    exact totals_fit hrun haccounted

theorem batch_order_irrelevant_dayAfter :
    ∃ m, Run ownerEnv testConfig (blockAt 1000 testTime_lt) dayAfter m ∧
      m.world.storage = dayAfterStorage ∧
      (batchAccounting testConfig dayAfterStorage 87400 0x101
          [⟨0x909, ether / 10, []⟩, ⟨0x808, ether / 5, []⟩]).toOption.map Prod.fst =
        (batchAccounting testConfig dayAfterStorage 87400 0x101
          [⟨0x808, ether / 5, []⟩, ⟨0x909, ether / 10, []⟩]).toOption.map Prod.fst ∧
      (batchAccounting testConfig dayAfterStorage 87400 0x101
        [⟨0x909, ether / 10, []⟩, ⟨0x808, ether / 5, []⟩]).toOption.isSome = true := by
  obtain ⟨m, hm, _, hstorage⟩ := dayAfter_reached
  have horder := batch_order_irrelevant _ _ _ _ m hm 87400 0x101
    [⟨0x909, ether / 10, []⟩, ⟨0x808, ether / 5, []⟩] _ (List.Perm.swap _ _ _)
  rw [hstorage] at horder
  exact ⟨m, hm, hstorage, horder.1, by decide +kernel⟩

end BoundedSpending.PermutedBatches
