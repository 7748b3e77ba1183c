import BoundedSpending.FailedOperations
import BoundedSpending.EndedCalls

set_option autoImplicit false

namespace BoundedSpending.CallDataDispatch

open CheckedArithmetic BigEndianWords SpendParser CallDataDecoder SpendRecorders Preflight
open NestedCalls AccountMachine PreflightExecution FailedOperations

/-- The external functions of the account, the getters of its public state among them. -/
inductive ExternalFunction where
  | execute
  | executeBatch
  | validateUserOp
  | payForGasInUsdc
  | getDeposit
  | addDeposit
  | requestEmergencyWithdraw
  | emergencyWithdraw
  | usdc
  | usdcPerEth
  | entryPointContract
  | vaultOwner
  | paymasterAddress
  | dailyEthLimit
  | monthlyEthLimit
  | dailyUsdcLimit
  | monthlyUsdcLimit
  | dailyEthSpent
  | monthlyEthSpent
  | dailyUsdcSpent
  | monthlyUsdcSpent
  | lastDailyResetTimestamp
  | lastMonthlyResetTimestamp
  | emergencyWithdrawRequestTime
  | lastLargeSpendTime
  deriving DecidableEq, Repr

def ExternalFunction.selector : ExternalFunction → ℕ
  | .execute => executeSelector
  | .executeBatch => executeBatchSelector
  | .validateUserOp => 0x19822f7c
  | .payForGasInUsdc => 0xf0fb2463
  | .getDeposit => 0xc399ec88
  | .addDeposit => 0x4a58db19
  | .requestEmergencyWithdraw => 0xc28f7c3b
  | .emergencyWithdraw => 0x6ff1c9bc
  | .usdc => 0x89a30271
  | .usdcPerEth => 0x3fd1df19
  | .entryPointContract => 0xad5407cc
  | .vaultOwner => 0x1f52692b
  | .paymasterAddress => 0xd9ed1fee
  | .dailyEthLimit => 0xef770b36
  | .monthlyEthLimit => 0x541dda18
  | .dailyUsdcLimit => 0x9371fc4b
  | .monthlyUsdcLimit => 0xbfe110e9
  | .dailyEthSpent => 0xa18bc909
  | .monthlyEthSpent => 0x881cae3e
  | .dailyUsdcSpent => 0x0b48e8cf
  | .monthlyUsdcSpent => 0xe0352f20
  | .lastDailyResetTimestamp => 0xd7a4cf7f
  | .lastMonthlyResetTimestamp => 0xd579d308
  | .emergencyWithdrawRequestTime => 0x646e945b
  | .lastLargeSpendTime => 0xd9257dcf

def externalFunctions : List ExternalFunction :=
  [.execute, .executeBatch, .validateUserOp, .payForGasInUsdc, .getDeposit, .addDeposit,
    .requestEmergencyWithdraw, .emergencyWithdraw, .usdc, .usdcPerEth, .entryPointContract,
    .vaultOwner, .paymasterAddress, .dailyEthLimit, .monthlyEthLimit, .dailyUsdcLimit,
    .monthlyUsdcLimit, .dailyEthSpent, .monthlyEthSpent, .dailyUsdcSpent, .monthlyUsdcSpent,
    .lastDailyResetTimestamp, .lastMonthlyResetTimestamp, .emergencyWithdrawRequestTime,
    .lastLargeSpendTime]

/-- The function that runs on non-empty callData. The contract has no fallback. -/
def functionAt (callData : Bytes) : Option ExternalFunction :=
  if callData.length < 4 then none
  else externalFunctions.find? fun f => f.selector = selectorOf callData

def spendFunction : SpendCall → ExternalFunction
  | .execute _ => .execute
  | .executeBatch _ => .executeBatch

theorem selectorOf_functionAt {callData : Bytes} {f : ExternalFunction}
    (h : functionAt callData = some f) :
    4 ≤ callData.length ∧ f.selector = selectorOf callData := by
  unfold functionAt at h
  split_ifs at h with hshort
  have hfound := List.find?_some h
  exact ⟨Nat.not_lt.mp hshort, of_decide_eq_true hfound⟩

theorem selector_spend {f : ExternalFunction}
    (h : f.selector = executeSelector ∨ f.selector = executeBatchSelector) :
    f = .execute ∨ f = .executeBatch := by
  cases f <;> first | exact .inl rfl | exact .inr rfl | exact absurd h (by decide)

/-- The preflight refuses what would run any other function. -/
theorem parse_other {callData : Bytes} {f : ExternalFunction} (h : functionAt callData = some f)
    (hf : f ≠ .execute) (hf' : f ≠ .executeBatch) :
    parseSpendAmountsFromCallData callData = .error .invalidTargetOrSelector := by
  obtain ⟨hlength, hselector⟩ := selectorOf_functionAt h
  have hnot : ¬ (f.selector = executeSelector ∨ f.selector = executeBatchSelector) := by
    intro hspend
    rcases selector_spend hspend with rfl | rfl
    · exact hf rfl
    · exact hf' rfl
  rw [hselector, not_or] at hnot
  have hundecoded : decodeSpendCall callData = .error .invalidTargetOrSelector := by
    rw [decodeSpendCall, if_neg hnot.1, if_neg hnot.2]
  rw [parseSpendAmountsFromCallData, if_neg (by omega), hundecoded]
  rfl

theorem functionAt_of_decode {callData : Bytes} {call : SpendCall}
    (h : decodeSpendCall callData = .ok call) :
    functionAt callData = some (spendFunction call) := by
  unfold decodeSpendCall at h
  split_ifs at h with hexecute hbatch
  · obtain ⟨c, _, hc⟩ := bind_returns.mp h
    obtain rfl := pure_returns.mp hc
    have hlong := selector_long (hexecute ▸ by decide : 2 ^ 24 ≤ selectorOf callData)
    rw [functionAt, if_neg (by omega), hexecute]
    rfl
  · obtain ⟨cs, _, hcs⟩ := bind_returns.mp h
    obtain rfl := pure_returns.mp hcs
    have hlong := selector_long (hbatch ▸ by decide : 2 ^ 24 ≤ selectorOf callData)
    rw [functionAt, if_neg (by omega), hbatch]
    rfl

def outgoing : Pending → Option Call
  | .calls call _ => some call
  | _ => none

def ethOf : Pending → ℕ
  | .calls call _ => call.value
  | .withdrawEth _ ethAmount => ethAmount
  | _ => 0

def usdcOf : Pending → ℕ
  | .calls call _ => if call.target = usdc then transferAmount call.data else 0
  | .gasPayment amount => amount
  | .withdrawUsdc _ _ usdcAmount => usdcAmount
  | _ => 0

/-- Of `calls`, those that are `made` have been answered and the rest is still to come. -/
def Calling (calls : List Call) (made : List Pending) : Result → Prop
  | .revert _ => True
  | .done _ => made.map outgoing = calls.map some
  | .suspend _ pending => ∃ call rest, pending = .calls call rest ∧
    made.map outgoing ++ (call :: rest).map some = calls.map some

variable {env : Env} {cfg : Config} {block : Block} {calls : List Call} {made : List Pending}

theorem doCalls_calling {rest : List Call} (now : ℕ) (w : World)
    (h : made.map outgoing ++ rest.map some = calls.map some) :
    Calling calls made (doCalls now w rest) := by
  cases rest with
  | nil =>
    rw [List.map_nil, List.append_nil] at h
    exact h
  | cons call rest =>
    simp only [doCalls]
    split_ifs with hfunds
    · exact ⟨call, rest, rfl, h⟩
    · trivial

theorem resume_calling {pending : Pending} {w : World} (h : Calling calls made (.suspend w pending))
    (left : World) (ok : Bool) :
    Calling calls (made ++ [pending]) ((account env cfg).resume block left pending ok) := by
  obtain ⟨call, rest, rfl, hcalls⟩ := h
  have hnext : (made ++ [Pending.calls call rest]).map outgoing ++ rest.map some =
      calls.map some := by
    rw [← hcalls]
    simp [outgoing]
  cases ok with
  | false => trivial
  | true =>
    simp only [account, AccountMachine.resume]
    split_ifs with htarget
    · cases transferUsdc env block.timestamp left (transferAmount call.data) with
      | none => trivial
      | some v => exact doCalls_calling block.timestamp v hnext
    · exact doCalls_calling block.timestamp left hnext

theorem progress_calling {start outcome : Result}
    (h : Progress (account env cfg) block start made outcome) (hstart : Calling calls [] start) :
    Calling calls made outcome := by
  induction h with
  | start => exact hstart
  | answer _ left ok ih => exact resume_calling ih left ok

theorem sum_outgoing {weight : Pending → ℕ} {amount : Call → ℕ}
    (hweight : ∀ call rest, weight (.calls call rest) = amount call)
    (h : made.map outgoing = calls.map some) : (made.map weight).sum = (calls.map amount).sum := by
  induction made generalizing calls with
  | nil =>
    cases calls with
    | nil => rfl
    | cons call calls => cases h
  | cons pending made ih =>
    cases calls with
    | nil => cases h
    | cons call calls =>
      obtain ⟨hhead, htail⟩ := List.cons.inj h
      cases pending with
      | calls c rest =>
        obtain rfl := Option.some.inj hhead
        simp only [List.map_cons, List.sum_cons, hweight, ih htail]
      | _ => cases hhead

theorem sum_transfers_of_payments (h : Payments calls) :
    (calls.map fun call => if call.target = usdc then transferAmount call.data else 0).sum = 0 := by
  induction calls with
  | nil => rfl
  | cons call calls ih =>
    have htarget := (h call List.mem_cons_self).1
    rw [List.map_cons, List.sum_cons, if_neg htarget, Nat.zero_add]
    exact ih fun c hc => h c (List.mem_cons_of_mem _ hc)

/-- What comes of the EntryPoint's call with this callData, together with the external calls
    that the function has made. About other functions than the two nothing is said. -/
inductive Dispatched (env : Env) (cfg : Config) (m : Machine Block World Pending)
    (callData : Bytes) : List Pending → Machine Block World Pending → Prop where
  | noCall (h : callData = []) : Dispatched env cfg m callData [] m
  | reverted (m' : Machine Block World Pending) (h : DispatchReverts env cfg m callData m') :
      Dispatched env cfg m callData [] m'
  | returned (call : SpendCall) (made : List Pending) (m' : Machine Block World Pending)
      (h : decodeSpendCall callData = .ok call)
      (hreturns : Returns (account env cfg) m (dispatched cfg call) made m') :
      Dispatched env cfg m callData made m'
  | other (f : ExternalFunction) (made : List Pending) (m' : Machine Block World Pending)
      (h : functionAt callData = some f) (hf : f ≠ .execute) (hf' : f ≠ .executeBatch) :
      Dispatched env cfg m callData made m'

def accountedWorld (cfg : Config) (now : ℕ) (w : World) (eth usdcAmount : ℕ) : World :=
  let s := recorded (noted cfg w.storage now eth usdcAmount) now eth usdcAmount
  logged { w with storage := s } now (spendEvents eth usdcAmount ++ [.accounted eth usdcAmount])

/-- `execute` or `executeBatch` ran, recorded these amounts and sent exactly them. -/
def SpendsExactly (env : Env) (cfg : Config) (m : Machine Block World Pending) (callData : Bytes)
    (eth usdcAmount : ℕ) (made : List Pending) : Prop :=
  ∃ call, decodeSpendCall callData = .ok call ∧
    functionAt callData = some (spendFunction call) ∧
    (account env cfg).enter m.clock m.world (dispatched cfg call) =
      doCalls m.clock.timestamp
        (accountedWorld cfg m.clock.timestamp m.world eth usdcAmount) call.calls ∧
    made.map outgoing = call.calls.map some ∧
    (made.map ethOf).sum = eth ∧ (made.map usdcOf).sum = usdcAmount

theorem enter_dispatched (env : Env) (cfg : Config) (m : Machine Block World Pending)
    (call : SpendCall) :
    (account env cfg).enter m.clock m.world (dispatched cfg call) =
      match validateAndRecordSpend cfg m.world.storage m.clock.timestamp call with
      | .error reason => .revert reason
      | .ok (s, events) => doCalls m.clock.timestamp
        (logged { m.world with storage := s } m.clock.timestamp events) call.calls := by
  have henter : (account env cfg).enter m.clock m.world (dispatched cfg call) =
      spendAndCall cfg m.clock.timestamp m.world cfg.entryPointContract call := by
    cases call <;> rfl
  rw [henter]
  unfold spendAndCall
  exact if_neg (not_not_intro rfl)

theorem spendsExactly_of_returns {m m' : Machine Block World Pending} {callData : Bytes}
    {call : SpendCall} {eth usdcAmount : ℕ} (hdecode : decodeSpendCall callData = .ok call)
    (hspend : call.spend = .ok (eth, usdcAmount))
    (hreturns : Returns (account env cfg) m (dispatched cfg call) made m') :
    SpendsExactly env cfg m callData eth usdcAmount made := by
  obtain ⟨world, hprogress, _⟩ := hreturns.progress
  obtain ⟨hpay, heth, husdc⟩ := SpendCall.spend_eq_ok hspend
  have hstart := enter_dispatched env cfg m call
  cases hok : validateAndRecordSpend cfg m.world.storage m.clock.timestamp call with
  | error reason =>
    rw [hok] at hstart
    rw [hstart] at hprogress
    cases hprogress.of_revert
  | ok result =>
    rw [hok] at hstart
    obtain ⟨eth', hspend', _, _, _, _, hs, hevents⟩ := validateAndRecordSpend_eq_ok.mp hok
    rw [hspend] at hspend'
    cases hspend'
    have hentered : (account env cfg).enter m.clock m.world (dispatched cfg call) =
        doCalls m.clock.timestamp (accountedWorld cfg m.clock.timestamp m.world eth 0)
          call.calls := by
      rw [hstart, accountedWorld, ← hs, ← hevents]
    rw [hentered] at hprogress
    have hmade : made.map outgoing = call.calls.map some :=
      progress_calling hprogress (doCalls_calling _ _ rfl)
    refine ⟨call, hdecode, functionAt_of_decode hdecode, hentered, hmade, ?_, ?_⟩
    · rw [sum_outgoing (fun _ _ => rfl) hmade]
      exact heth.symm
    · rw [sum_outgoing (fun _ _ => rfl) hmade]
      exact sum_transfers_of_payments hpay

/-- Whatever amounts the preflight reads off callData, a dispatch of it changes nothing or
    spends exactly these; and it reads none where another function would run. -/
theorem preflight_reads_dispatch (env : Env) (cfg : Config) (m : Machine Block World Pending)
    (callData : Bytes) :
    (∀ eth usdcAmount, parseSpendAmountsFromCallData callData = .ok (eth, usdcAmount) →
      ∀ made m', Dispatched env cfg m callData made m' →
        (made = [] ∧ m' = m) ∨ SpendsExactly env cfg m callData eth usdcAmount made) ∧
    ∀ f, functionAt callData = some f → f ≠ .execute → f ≠ .executeBatch →
      parseSpendAmountsFromCallData callData = .error .invalidTargetOrSelector := by
  refine ⟨?_, fun f h hf hf' => parse_other h hf hf'⟩
  intro eth usdcAmount hparse made m' hdispatched
  cases hdispatched with
  | noCall h => exact .inl ⟨rfl, rfl⟩
  | reverted m' h => exact .inl ⟨rfl, h.restores⟩
  | returned call made m' h hreturns =>
    have hlong := (selectorOf_functionAt (functionAt_of_decode h)).1
    rw [parseSpendAmountsFromCallData, if_neg (by omega), h] at hparse
    exact .inr (spendsExactly_of_returns h hparse hreturns)
  | other f made m' h hf hf' =>
    rw [parse_other h hf hf'] at hparse
    cases hparse

def paidWorld : World where
  storage := { deployed 1000 with dailyEthSpent := 10, monthlyEthSpent := 10 }
  balance := ether - 10
  usdcBalance := 0
  journal := [(1000, .ethTransferred 10), (1000, .ethSpent 10), (1000, .accounted 10 0)]

theorem preflight_reads_dispatch_payment :
    parseSpendAmountsFromCallData (encodeExecute ⟨0x909, 10, []⟩) = .ok (10, 0) ∧
      Dispatched ownerEnv testConfig fundedMachine (encodeExecute ⟨0x909, 10, []⟩)
        [.calls ⟨0x909, 10, []⟩ []] ⟨fundedMachine.clock, paidWorld, []⟩ ∧
      SpendsExactly ownerEnv testConfig fundedMachine (encodeExecute ⟨0x909, 10, []⟩) 10 0
        [.calls ⟨0x909, 10, []⟩ []] := by
  have hparse : parseSpendAmountsFromCallData (encodeExecute ⟨0x909, 10, []⟩) = .ok (10, 0) := by
    decide +kernel
  have hdecode : decodeSpendCall (encodeExecute ⟨0x909, 10, []⟩) = .ok (.execute ⟨0x909, 10, []⟩) :=
    decodeSpendCall_encodeExecute (by decide) (by decide) (Nat.zero_le maxOffset)
  have henter : (account ownerEnv testConfig).enter fundedMachine.clock fundedMachine.world
      (.execute 0x101 ⟨0x909, 10, []⟩) = .suspend paidWorld (.calls ⟨0x909, 10, []⟩ []) := by
    decide +kernel
  have hstep : step (account ownerEnv testConfig) fundedMachine
      (.call (.execute 0x101 ⟨0x909, 10, []⟩)) = some ⟨fundedMachine.clock, paidWorld,
        [⟨fundedMachine.world, .calls ⟨0x909, 10, []⟩ []⟩]⟩ := by
    simp only [step, henter, settle]
    rfl
  have hdispatched : Dispatched ownerEnv testConfig fundedMachine (encodeExecute ⟨0x909, 10, []⟩)
      [.calls ⟨0x909, 10, []⟩ []] ⟨fundedMachine.clock, paidWorld, []⟩ :=
    .returned _ _ _ hdecode (.inr ⟨[], _, _, _, true, paidWorld, hstep, rfl, Nat.one_pos, rfl, rfl,
      rfl, rfl, rfl⟩)
  refine ⟨hparse, hdispatched, ?_⟩
  have hread := (preflight_reads_dispatch ownerEnv testConfig fundedMachine
    (encodeExecute ⟨0x909, 10, []⟩)).1 10 0 hparse _ _ hdispatched
  rcases hread with ⟨hmade, _⟩ | hspends
  · cases hmade
  · exact hspends

end BoundedSpending.CallDataDispatch
