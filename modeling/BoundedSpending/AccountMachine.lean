import BoundedSpending.Preflight
import BoundedSpending.NestedCalls
import BoundedSpending.TimedLog

set_option autoImplicit false

/-!
# The account under any environment

Every external function of SpendingAccount.sol as an entry of a nested-call
machine. A call to a target, to a withdrawal's recipient or to the token is left
open, so that anyone may call back in before it answers. The EntryPoint's
`receive` and `depositTo` take the money and call nobody; `_payPrefund` and
`addDeposit` are therefore single steps.
-/
namespace BoundedSpending.AccountMachine

open CheckedArithmetic BigEndianWords SpendParser CallDataDecoder UserOperations SpendRecorders
open Preflight NestedCalls TimedLog

inductive Input where
  | receive (amount : ℕ)
  | validateUserOp (sender : Address) (op : PackedUserOperation)
      (userOpHash missingAccountFunds : ℕ)
  | execute (sender : Address) (call : Call)
  | executeBatch (sender : Address) (calls : List Call)
  | payForGasInUsdc (sender : Address) (gasLeft amount : ℕ)
  | addDeposit (amount : ℕ)
  | requestEmergencyWithdraw (sender : Address)
  | emergencyWithdraw (sender recipient : Address)
  | receiveUsdc (amount : ℕ)
  /-- Some other contract opens a call frame of its own, to be kept or rolled back. -/
  | foreign

/-- The call that is out, and what the function does once it has returned. -/
inductive Pending where
  | calls (call : Call) (rest : List Call)
  | gasPayment (amount : ℕ)
  | withdrawEth (recipient : Address) (ethAmount : ℕ)
  | withdrawUsdc (recipient : Address) (ethAmount usdcAmount : ℕ)
  | foreign
  deriving DecidableEq, Repr

abbrev Result := Outcome Revert World Pending

def logged (w : World) (now : ℕ) (events : List Event) : World :=
  { w with journal := stamped now events ++ w.journal }

theorem logged_append (w : World) (now : ℕ) (newer older : List Event) :
    logged w now (newer ++ older) = logged (logged w now older) now newer := by
  simp only [logged, stamped, List.map_append, List.append_assoc]

/-- `payable(msg.sender).call{value: missingAccountFunds}("")`, its success ignored. -/
def payPrefund (now : ℕ) (w : World) (missingAccountFunds : ℕ) : World :=
  if missingAccountFunds ≠ 0 ∧ missingAccountFunds ≤ w.balance then
    logged { w with balance := w.balance - missingAccountFunds } now
      [.prefundPaid missingAccountFunds]
  else w

def validateUserOp (env : Env) (cfg : Config) (block : Block) (w : World) (sender : Address)
    (op : PackedUserOperation) (userOpHash missingAccountFunds : ℕ) :
    Except Revert (ℕ × World) := do
  require (sender = cfg.entryPointContract) .notFromEntryPoint
  let (validationData, s) ← preflight env cfg block w.storage op userOpHash
  let w := logged { w with storage := s } block.timestamp [.validated]
  return (validationData, payPrefund block.timestamp w missingAccountFunds)

def doCalls (now : ℕ) (w : World) : List Call → Result
  | [] => .done w
  | call :: rest =>
    if call.value ≤ w.balance then
      .suspend (logged { w with balance := w.balance - call.value } now
        [.ethTransferred call.value]) (.calls call rest)
    else .revert .callFailed

def spendAndCall (cfg : Config) (now : ℕ) (w : World) (sender : Address) (call : SpendCall) :
    Result :=
  if sender ≠ cfg.entryPointContract then .revert .notFromEntryPoint
  else match validateAndRecordSpend cfg w.storage now call with
    | .error reason => .revert reason
    | .ok (s, events) => doCalls now (logged { w with storage := s } now events) call.calls

def execute (cfg : Config) (now : ℕ) (w : World) (sender : Address) (call : Call) : Result :=
  spendAndCall cfg now w sender (.execute call)

def executeBatch (cfg : Config) (now : ℕ) (w : World) (sender : Address) (calls : List Call) :
    Result :=
  spendAndCall cfg now w sender (.executeBatch calls)

def payForGasInUsdc (cfg : Config) (now : ℕ) (w : World) (sender : Address)
    (gasLeft amount : ℕ) : Result :=
  if sender ≠ cfg.paymasterAddress then .revert .notFromPaymaster
  else if gasLeft < minGasForUsdcTransfer then
    .revert (.insufficientGasForUsdcTransfer gasLeft minGasForUsdcTransfer)
  else match applyUsdcSpend cfg w.storage now amount with
    | .error reason => .revert reason
    | .ok (s, events) => .suspend (logged { w with storage := s } now events) (.gasPayment amount)

def requestEmergencyWithdraw (cfg : Config) (now : ℕ) (w : World) (sender : Address) : Result :=
  if sender ≠ cfg.vaultOwner then .revert .notVaultOwner
  else .done (logged { w with storage.emergencyWithdrawRequestTime := now } now
    [.emergencyWithdrawRequested])

def emergencyWithdrawGuards (cfg : Config) (s : Storage) (now : ℕ) (sender : Address) :
    Except Revert Unit := do
  require (sender = cfg.vaultOwner) .notVaultOwner
  require (s.emergencyWithdrawRequestTime ≠ 0) .noWithdrawRequested
  let due ← add s.emergencyWithdrawRequestTime withdrawTimelock
  require (due ≤ now) .withdrawTimelockNotMet

def finishWithdraw (now : ℕ) (w : World) (recipient : Address) (ethAmount usdcAmount : ℕ) :
    World :=
  logged w now [.emergencyWithdrawExecuted recipient ethAmount usdcAmount]

def withdrawUsdcPart (env : Env) (now : ℕ) (w : World) (recipient : Address) (ethAmount : ℕ) :
    Result :=
  if env.usdcHasCode = true ∧ 0 < w.usdcBalance then
    .suspend w (.withdrawUsdc recipient ethAmount w.usdcBalance)
  else .done (finishWithdraw now w recipient ethAmount 0)

def emergencyWithdraw (env : Env) (cfg : Config) (now : ℕ) (w : World)
    (sender recipient : Address) : Result :=
  match emergencyWithdrawGuards cfg w.storage now sender with
  | .error reason => .revert reason
  | .ok () =>
    let w := logged { w with storage.emergencyWithdrawRequestTime := 0 } now
      [.withdrawGuardsPassed]
    if 0 < w.balance then
      .suspend { w with balance := 0 } (.withdrawEth recipient w.balance)
    else withdrawUsdcPart env now w recipient 0

/-- The token's side of a transfer by the account that reported success. -/
def transferUsdc (env : Env) (now : ℕ) (w : World) (amount : ℕ) : Option World :=
  if env.usdcHasCode = true then
    if amount ≤ w.usdcBalance then
      some (logged { w with usdcBalance := w.usdcBalance - amount } now
        [.usdcTransferred amount])
    else none
  else some w

/-- The amount of a `transfer(to, amount)` call, 0 for any other call to the token. -/
def transferAmount (data : Bytes) : ℕ :=
  if 68 ≤ data.length ∧ data.take 4 = encode 4 transferSelector then loadWord data 36 else 0

def enter (env : Env) (cfg : Config) (block : Block) (w : World) : Input → Result
  | .receive amount => .done { w with balance := w.balance + amount }
  | .validateUserOp sender op userOpHash missingAccountFunds =>
    match validateUserOp env cfg block w sender op userOpHash missingAccountFunds with
    | .error reason => .revert reason
    | .ok (_, w) => .done w
  | .execute sender call => execute cfg block.timestamp w sender call
  | .executeBatch sender calls => executeBatch cfg block.timestamp w sender calls
  | .payForGasInUsdc sender gasLeft amount =>
    payForGasInUsdc cfg block.timestamp w sender gasLeft amount
  -- the value comes with the call and goes on to the EntryPoint
  | .addDeposit _ => .done w
  | .requestEmergencyWithdraw sender => requestEmergencyWithdraw cfg block.timestamp w sender
  | .emergencyWithdraw sender recipient =>
    emergencyWithdraw env cfg block.timestamp w sender recipient
  | .receiveUsdc amount => .done { w with usdcBalance := w.usdcBalance + amount }
  | .foreign => .suspend w .foreign

/-- Every function passes a failed call on as a revert of its own. -/
def resume (env : Env) (block : Block) (w : World) : Pending → Bool → Result
  | _, false => .revert .callFailed
  | .calls call rest, true =>
    if call.target = usdc then
      match transferUsdc env block.timestamp w (transferAmount call.data) with
      | none => .revert .callFailed
      | some w => doCalls block.timestamp w rest
    else doCalls block.timestamp w rest
  | .gasPayment amount, true =>
    match transferUsdc env block.timestamp w amount with
    | none => .revert .callFailed
    | some w => .done w
  | .withdrawEth recipient ethAmount, true =>
    withdrawUsdcPart env block.timestamp w recipient ethAmount
  | .withdrawUsdc recipient ethAmount usdcAmount, true =>
    if usdcAmount ≤ w.usdcBalance then
      .done (finishWithdraw block.timestamp { w with usdcBalance := w.usdcBalance - usdcAmount }
        recipient ethAmount usdcAmount)
    else .revert .callFailed
  | .foreign, true => .done w

def account (env : Env) (cfg : Config) : Code Block Input Revert World Pending where
  later block block' := decide (block.timestamp ≤ block'.timestamp)
  enter := enter env cfg
  resume := resume env

def launched (block : Block) (balance usdcBalance : ℕ) : Machine Block World Pending where
  clock := block
  world := ⟨deployed block.timestamp, balance, usdcBalance, []⟩
  stack := []

/-- A run of the account: any callers, any order, any nesting. -/
def Run (env : Env) (cfg : Config) (block : Block) (labels : List (Label Block Input))
    (m : Machine Block World Pending) : Prop :=
  ∃ balance usdcBalance, run (account env cfg) (launched block balance usdcBalance) labels = some m

theorem Run.of_map {α : Type} {env : Env} {cfg : Config} {block : Block}
    {labels : List (Label Block Input)} {balance usdcBalance : ℕ}
    {f : Machine Block World Pending → α} {v : α}
    (h : (run (account env cfg) (launched block balance usdcBalance) labels).map f = some v) :
    ∃ m, Run env cfg block labels m ∧ f m = v := by
  obtain ⟨m, hm, hv⟩ := Option.map_eq_some_iff.mp h
  exact ⟨m, ⟨balance, usdcBalance, hm⟩, hv⟩

def ownerEnv : Env := ⟨fun _ _ => some 0x202, true⟩

def fundedMachine : Machine Block World Pending := launched (blockAt 1000 testTime_lt) ether 0

theorem testDay_lt : 87400 < wordSize := by decide

theorem dueTime_lt : 173800 < wordSize := by decide

/-- The account spends 0.4 ether and pays 5 USDC for gas; then a day passes. -/
def dayAfter : List (Label Block Input) :=
  [.call (.execute 0x101 ⟨0x909, 4 * ether / 10, []⟩), .answer true,
    .call (.payForGasInUsdc 0x303 60000 (5 * 10 ^ 6)), .answer true,
    .advance (blockAt 87400 testDay_lt)]

def dayAfterStorage : Storage :=
  { deployed 1000 with
    dailyEthSpent := 4 * ether / 10
    monthlyEthSpent := 4 * ether / 10
    dailyUsdcSpent := 5 * 10 ^ 6
    monthlyUsdcSpent := 5 * 10 ^ 6
    lastLargeSpendTime := 1000 }

theorem dayAfter_reached : ∃ m, Run ownerEnv testConfig (blockAt 1000 testTime_lt) dayAfter m ∧
    m.clock.timestamp = 87400 ∧ m.world.storage = dayAfterStorage := by
  have hrun : (run (account ownerEnv testConfig)
      (launched (blockAt 1000 testTime_lt) ether (10 * 10 ^ 6)) dayAfter).map
        (fun m => (m.clock.timestamp, m.world.storage)) = some (87400, dayAfterStorage) := by
    decide +kernel
  obtain ⟨m, hm, hstate⟩ := Run.of_map hrun
  exact ⟨m, hm, Prod.mk.inj hstate⟩

end BoundedSpending.AccountMachine
