import BoundedSpending.AccountJournal
import BoundedSpending.AccountLedger
import BoundedSpending.EntryPointGas
import BoundedSpending.SpendingPaymaster

set_option autoImplicit false

/-!
# Bundles of sponsored operations

`handleOps` validates every operation, account and paymaster, before it executes the
first. Each operation is then executed in a frame of its own that also calls `postOp`,
and that is rolled back if `postOp` reverts.
-/
namespace BoundedSpending.SponsoredBundles

open CheckedArithmetic LimitPolicy SpendRecorders CallDataDecoder UserOperations Preflight
open NestedCalls AccountMachine AccountRules AccountJournal AccountLedger EntryPointGas
open SpendingPaymaster

/-- The paymaster, and the immutables of the SpendingAccount at each sender. -/
structure Deployment where
  address : Address
  terms : Paymaster
  config : Address → Config

/-- The operation names the paymaster, and its account is set up for it at the same rate. -/
structure Sponsored (d : Deployment) (op : PackedUserOperation) : Prop where
  data : paymasterDataOffset ≤ op.paymasterAndData.length
  names : paymasterOf op = d.address
  payer : (d.config op.sender).paymasterAddress = d.address
  rate : (d.config op.sender).usdcPerEth = d.terms.usdcPerEth
  entryPoint : (d.config op.sender).entryPointContract = d.terms.entryPoint

structure Chain where
  account : Address → World
  deposit : ℕ
  nonce : Address → ℕ → ℕ

def checkPaymasterData (op : PackedUserOperation) : Except Revert Unit := do
  require (paymasterDataOffset ≤ op.paymasterAndData.length)
    (.errorString "AA93 invalid paymasterAndData")
  require (paymasterOf op ≠ 0) (.errorString "AA98 invalid paymaster")

/-- `_validateAndUpdateNonce`: the high bits are the key, the low 64 bits the sequence. -/
def useNonce (opIndex : ℕ) (nonce : Address → ℕ → ℕ) (op : PackedUserOperation) :
    Except Revert (Address → ℕ → ℕ) := do
  require (nonce op.sender (op.nonce / 2 ^ 64) = op.nonce % 2 ^ 64)
    (.failedOp opIndex "AA25 invalid account nonce")
  return Function.update nonce op.sender (Function.update (nonce op.sender) (op.nonce / 2 ^ 64)
    (op.nonce % 2 ^ 64 + 1))

/-- `_validatePrepayment` of an operation that names the paymaster, with the check of both
    validation results. The account exists, and gas is no concern. -/
def validatePrepayment (env : Env) (d : Deployment) (block : Block) (opIndex : ℕ) (c : Chain)
    (op : PackedUserOperation) (userOpHash : ℕ) : Except Revert Chain := do
  checkPaymasterData op
  checkGasValues opIndex op
  let (validationData, w) ← validateUserOp env (d.config op.sender) block (c.account op.sender)
    d.terms.entryPoint op userOpHash 0
  let nonce ← useNonce opIndex c.nonce op
  require (requiredPrefund op ≤ c.deposit) (.failedOp opIndex "AA31 paymaster deposit too low")
  let (_, paymasterValidationData) ← validatePaymasterUserOp d.terms d.terms.entryPoint op
    (requiredPrefund op) w.usdcBalance
  require (validationData = 0) (.failedOp opIndex "AA24 signature error")
  require (paymasterValidationData = 0) (.failedOp opIndex "AA34 signature error")
  return ⟨Function.update c.account op.sender w, c.deposit - requiredPrefund op, nonce⟩

/-- What is fixed about one sponsored operation from its validation to its `postOp`:
    the ETH cost reported to `postOp`, the gas `payForGasInUsdc` finds, and the USDC that
    each account receives from elsewhere while the callData runs. -/
structure Sponsorship where
  op : PackedUserOperation
  userOpHash : ℕ
  actualGasCost : ℕ
  gasLeft : ℕ
  received : Address → ℕ

def validateAll (env : Env) (d : Deployment) (block : Block) :
    ℕ → Chain → List Sponsorship → Except Revert Chain
  | _, c, [] => .ok c
  | opIndex, c, item :: items => do
    let c ← validatePrepayment env d block opIndex c item.op item.userOpHash
    validateAll env d block (opIndex + 1) c items

/-- A function whose one external call is to a token that answers without calling back. -/
def withToken (env : Env) (block : Block) : Result → Except Revert World
  | .revert reason => .error reason
  | .done w => .ok w
  | .suspend w pending =>
    match resume env block w pending true with
    | .done w => .ok w
    | .revert reason => .error reason
    | .suspend _ _ => .error .callFailed

def spent (now amount : ℕ) (w : World) : World :=
  logged { w with storage := recorded w.storage now 0 amount } now [.usdcSpent amount]

def paid (now amount : ℕ) (w : World) : World :=
  logged { spent now amount w with usdcBalance := w.usdcBalance - amount } now
    [.usdcTransferred amount]

/-- `postOp` and the account's `payForGasInUsdc` that it calls. -/
def collect (env : Env) (d : Deployment) (block : Block) (accounts : Address → World)
    (item : Sponsorship) : Except Revert (Address → World) := do
  let (account, cost) ← postOp d.terms d.terms.entryPoint (encodeAccount item.op.sender)
    item.actualGasCost
  let w ← withToken env block (payForGasInUsdc (d.config account) block.timestamp
    (accounts account) d.address item.gasLeft cost)
  return Function.update accounts account w

/-- Calls that may reach an account while callData of the bundle runs: all but an emergency
    withdrawal, and `payForGasInUsdc` by the paymaster, which makes it in `postOp` only. -/
def InBundle (cfg : Config) (_ : Block) (_ : World) : Input → Prop
  | .emergencyWithdraw _ _ => False
  | .payForGasInUsdc sender _ _ => sender ≠ cfg.paymasterAddress
  | _ => True

/-- Any behaviour of the callData and of all it calls, as the accounts see it. -/
structure CallDataRun (env : Env) (d : Deployment) (block : Block) (received : Address → ℕ)
    (accounts accounts' : Address → World) : Prop where
  runs : ∀ a, ∃ labels,
    run (account env (d.config a)) ⟨block, accounts a, []⟩ labels = some ⟨block, accounts' a, []⟩ ∧
      Admits (account env (d.config a)) (InBundle (d.config a)) ⟨block, accounts a, []⟩ labels
  received : ∀ a, (accounts' a).usdcBalance = (accounts a).usdcBalance + received a

/-- The execution loop of `handleOps`, with one flag for each operation: whether its `postOp`
    succeeded. -/
inductive ExecutionPhase (env : Env) (d : Deployment) (block : Block) :
    (Address → World) → List Sponsorship → List Bool → (Address → World) → Prop where
  | nil (accounts : Address → World) : ExecutionPhase env d block accounts [] [] accounts
  | collected {accounts accounts₁ accounts₂ accounts' : Address → World} {item : Sponsorship}
      {items : List Sponsorship} {flags : List Bool}
      (hcall : CallDataRun env d block item.received accounts accounts₁)
      (hpay : collect env d block accounts₁ item = .ok accounts₂)
      (hrest : ExecutionPhase env d block accounts₂ items flags accounts') :
      ExecutionPhase env d block accounts (item :: items) (true :: flags) accounts'
  | uncollected {accounts accounts₁ accounts' : Address → World} {item : Sponsorship}
      {items : List Sponsorship} {flags : List Bool} {reason : Revert}
      (hcall : CallDataRun env d block item.received accounts accounts₁)
      (hpay : collect env d block accounts₁ item = .error reason)
      (hrest : ExecutionPhase env d block accounts items flags accounts') :
      ExecutionPhase env d block accounts (item :: items) (false :: flags) accounts'

variable {env : Env} {cfg : Config} {block : Block} {w w' : World} {ks : List Pending}

theorem transferUsdc_eq_some {now amount : ℕ} (htoken : env.usdcHasCode = true) :
    transferUsdc env now w amount = some w' ↔ amount ≤ w.usdcBalance ∧
      w' = logged { w with usdcBalance := w.usdcBalance - amount } now
        [.usdcTransferred amount] := by
  rw [transferUsdc, if_pos htoken, Option.ite_none_right_eq_some, Option.some.injEq]
  exact and_congr_right fun _ => eq_comm

theorem withToken_gasPayment {amount : ℕ} :
    withToken env block (.suspend w (.gasPayment amount)) = .ok w' ↔
      transferUsdc env block.timestamp w amount = some w' := by
  simp only [withToken, resume]
  cases transferUsdc env block.timestamp w amount with
  | none =>
    constructor
    · intro h
      cases h
    · intro h
      cases h
  | some v =>
    constructor
    · intro h
      rw [Except.ok.inj h]
    · intro h
      rw [Option.some.inj h]

theorem payForGasInUsdc_withToken {sender : Address} {gasLeft amount : ℕ}
    (htoken : env.usdcHasCode = true) :
    withToken env block (payForGasInUsdc cfg block.timestamp w sender gasLeft amount) = .ok w' ↔
      sender = cfg.paymasterAddress ∧ minGasForUsdcTransfer ≤ gasLeft ∧
        ClockFits w.storage block.timestamp ∧ UsdcRoom cfg w.storage amount ∧
        amount ≤ w.usdcBalance ∧ w' = paid block.timestamp amount w := by
  unfold payForGasInUsdc
  split_ifs with hsender hgas
  · exact ⟨fun h => (nomatch h), fun h => absurd h.1 hsender⟩
  · exact ⟨fun h => (nomatch h), fun h => absurd h.2.1 (by omega)⟩
  cases hok : applyUsdcSpend cfg w.storage block.timestamp amount with
  | error reason =>
    constructor
    · intro h
      exact nomatch h
    · intro h
      have happly := applyUsdcSpend_eq_ok.mpr ⟨h.2.2.1, h.2.2.2.1, rfl, rfl⟩
      rw [hok] at happly
      exact nomatch happly
  | ok result =>
    obtain ⟨s, events⟩ := result
    obtain ⟨hclock, hroom, rfl, rfl⟩ := applyUsdcSpend_eq_ok.mp hok
    change withToken env block (.suspend (spent block.timestamp amount w) (.gasPayment amount)) =
      .ok w' ↔ _
    rw [withToken_gasPayment, transferUsdc_eq_some htoken]
    exact ⟨fun h => ⟨not_not.mp hsender, not_lt.mp hgas, hclock, hroom, h⟩, fun h => h.2.2.2.2⟩

structure SameUsdc (now : ℕ) (w w' : World) : Prop where
  daily : w'.storage.dailyUsdcSpent = w.storage.dailyUsdcSpent
  monthly : w'.storage.monthlyUsdcSpent = w.storage.monthlyUsdcSpent
  clock : ClockFits w'.storage now ↔ ClockFits w.storage now

theorem SameUsdc.refl (now : ℕ) (w : World) : SameUsdc now w w := ⟨rfl, rfl, Iff.rfl⟩

theorem SameUsdc.trans {now : ℕ} {w v u : World} (h : SameUsdc now w v)
    (h' : SameUsdc now v u) : SameUsdc now w u :=
  ⟨h'.daily.trans h.daily, h'.monthly.trans h.monthly, h'.clock.trans h.clock⟩

theorem SameUsdc.of_counters {now : ℕ} {w w' : World}
    (h : SameCounters w.storage w'.storage) : SameUsdc now w w' := by
  refine ⟨h.dailyUsdc, h.monthlyUsdc, ?_⟩
  rw [ClockFits, ClockFits, h.dailyReset, h.monthlyReset]

def Frame (now : ℕ) (w w' : World) : Prop := SameUsdc now w w' ∧ w.usdcBalance ≤ w'.usdcBalance

theorem Frame.refl (now : ℕ) (w : World) : Frame now w w := ⟨SameUsdc.refl now w, Nat.le_refl _⟩

theorem Frame.trans {now : ℕ} {w v u : World} (h : Frame now w v) (h' : Frame now v u) :
    Frame now w u := ⟨h.1.trans h'.1, h.2.trans h'.2⟩

def Harmless : Pending → Prop
  | .calls call rest => Payments (call :: rest)
  | .foreign => True
  | _ => False

def AllHarmless (ks : List Pending) : Prop := ∀ k ∈ ks, Harmless k

theorem AllHarmless.push {k : Pending} {ks : List Pending} (h : AllHarmless ks) (hk : Harmless k) :
    AllHarmless (k :: ks) := by
  intro k' hmem
  rcases List.mem_cons.mp hmem with rfl | hmem
  · exact hk
  · exact h k' hmem

def Safe (now : ℕ) (w : World) (w' : World) (ks : List Pending) : Prop :=
  Frame now w w' ∧ AllHarmless ks

theorem doCalls_safe {now : ℕ} {calls : List Call} (hpay : Payments calls)
    (hks : AllHarmless ks) : (doCalls now w calls).Keeps (Safe now w) ks := by
  apply keeps_doCalls
  · intro _
    exact ⟨Frame.refl now w, hks⟩
  · intro call rest hcalls _
    subst hcalls
    exact ⟨⟨⟨rfl, rfl, Iff.rfl⟩, Nat.le_refl _⟩, hks.push hpay⟩

theorem spendAndCall_safe (sender : Address) (call : SpendCall) (hks : AllHarmless ks) :
    (spendAndCall cfg block.timestamp w sender call).Keeps (Safe block.timestamp w) ks := by
  apply keeps_spendAndCall
  intro s events _ hok
  obtain ⟨eth, hspend, _, _, _, _, hs, _⟩ := validateAndRecordSpend_eq_ok.mp hok
  have hnoted := noted_sameCounters cfg w.storage block.timestamp eth 0
  have hrecorded : Frame block.timestamp w
      (logged { w with storage := s } block.timestamp events) := by
    rw [hs]
    refine ⟨⟨hnoted.dailyUsdc, hnoted.monthlyUsdc, ?_⟩, Nat.le_refl _⟩
    change ClockFits (recorded _ _ _ _) _ ↔ _
    rw [clockFits_recorded, clockFits_noted]
  exact Keeps.imp (doCalls_safe (SpendCall.spend_eq_ok hspend).1 hks) fun _ _ h =>
    ⟨hrecorded.trans h.1, h.2⟩

theorem payPrefund_frame (now : ℕ) (w : World) (missingAccountFunds : ℕ) :
    Frame now w (payPrefund now w missingAccountFunds) := by
  unfold payPrefund
  split_ifs with hfunds
  · exact ⟨⟨rfl, rfl, Iff.rfl⟩, Nat.le_refl _⟩
  · exact Frame.refl now w

theorem enter_safe (input : Input) (hin : InBundle cfg block w input) (hks : AllHarmless ks) :
    ((account env cfg).enter block w input).Keeps (Safe block.timestamp w) ks := by
  cases input with
  | receive amount => exact ⟨⟨⟨rfl, rfl, Iff.rfl⟩, Nat.le_refl _⟩, hks⟩
  | validateUserOp sender op userOpHash missingAccountFunds =>
    apply keeps_validateUserOp
    intro validationData s _ hpre
    have hstored : Frame block.timestamp w
        (logged { w with storage := s } block.timestamp [.validated]) :=
      ⟨SameUsdc.of_counters (preflight_sameCounters hpre), Nat.le_refl _⟩
    exact ⟨hstored.trans (payPrefund_frame block.timestamp _ missingAccountFunds), hks⟩
  | execute sender call => exact spendAndCall_safe sender (.execute call) hks
  | executeBatch sender calls => exact spendAndCall_safe sender (.executeBatch calls) hks
  | payForGasInUsdc sender gasLeft amount =>
    apply keeps_payForGasInUsdc
    intro _ _ hsender _
    exact absurd hsender hin
  | addDeposit amount => exact ⟨Frame.refl _ w, hks⟩
  | requestEmergencyWithdraw sender =>
    apply keeps_requestEmergencyWithdraw
    intro _
    exact ⟨⟨⟨rfl, rfl, Iff.rfl⟩, Nat.le_refl _⟩, hks⟩
  | emergencyWithdraw sender recipient => exact hin.elim
  | receiveUsdc amount => exact ⟨⟨⟨rfl, rfl, Iff.rfl⟩, Nat.le_add_right _ _⟩, hks⟩
  | «foreign» => exact ⟨Frame.refl _ w, hks.push trivial⟩

theorem resume_safe (k : Pending) (ok : Bool) (hks : AllHarmless (k :: ks)) :
    ((account env cfg).resume block w k ok).Keeps (Safe block.timestamp w) ks := by
  have hk := hks k List.mem_cons_self
  have hbelow : AllHarmless ks := fun k' hmem => hks k' (List.mem_cons_of_mem k hmem)
  apply keeps_resume
  cases k with
  | calls call rest =>
    have htarget : call.target ≠ usdc := (hk call List.mem_cons_self).1
    simp only [account, AccountMachine.resume]
    rw [if_neg htarget]
    exact doCalls_safe (fun c hc => hk c (List.mem_cons_of_mem call hc)) hbelow
  | gasPayment amount => exact hk.elim
  | withdrawEth recipient ethAmount => exact hk.elim
  | withdrawUsdc recipient ethAmount usdcAmount => exact hk.elim
  | «foreign» => exact ⟨Frame.refl _ w, hbelow⟩

def Kept (now : ℕ) (w₀ : World) (block : Block) (w : World) (ks : List Pending) : Prop :=
  now ≤ block.timestamp ∧ (block.timestamp = now → Frame now w₀ w) ∧ AllHarmless ks

theorem Keeps.kept {now : ℕ} {w₀ : World} {outcome : Result} {ks' : List Pending}
    (h : Kept now w₀ block w ks') (hsafe : outcome.Keeps (Safe block.timestamp w) ks) :
    outcome.Keeps (Kept now w₀ block) ks := by
  refine Keeps.imp hsafe fun w' ks' hs => ⟨h.1, fun hnow => ?_, hs.2⟩
  exact (h.2.1 hnow).trans (hnow ▸ hs.1)

theorem account_kept (env : Env) (cfg : Config) (now : ℕ) (w₀ : World) :
    Invariant (account env cfg) (InBundle cfg) (Kept now w₀) where
  advance := by
    intro block block' w hlater h
    have hle : block.timestamp ≤ block'.timestamp := of_decide_eq_true hlater
    refine ⟨h.1.trans hle, fun hnow => h.2.1 ?_, h.2.2⟩
    have hge := h.1
    omega
  enter := by
    intro block w ks input hin h
    exact Keeps.kept h (enter_safe input hin h.2.2)
  resume := by
    intro block w k ks ok h
    exact Keeps.kept h (resume_safe k ok h.2.2)

/-- Whatever callData does, every account keeps its USDC counters and loses no USDC. -/
theorem run_frame {labels : List (Label Block Input)}
    (hrun : run (account env cfg) ⟨block, w, []⟩ labels = some ⟨block, w', []⟩)
    (hin : Admits (account env cfg) (InBundle cfg) ⟨block, w, []⟩ labels) :
    Frame block.timestamp w w' := by
  have hstart : Holds (Kept block.timestamp w) (⟨block, w, []⟩ : Machine Block World Pending) :=
    ⟨⟨Nat.le_refl _, fun _ => Frame.refl _ w, fun _ hmem => nomatch hmem⟩, trivial⟩
  have hend := (account_kept env cfg block.timestamp w).run hstart hin hrun
  exact hend.1.2.1 rfl

/-- So the amounts received are no assumption about what the callData does. -/
theorem CallDataRun.of_runs {d : Deployment} {accounts accounts' : Address → World}
    (hruns : ∀ a, ∃ labels,
      run (account env (d.config a)) ⟨block, accounts a, []⟩ labels =
        some ⟨block, accounts' a, []⟩ ∧
      Admits (account env (d.config a)) (InBundle (d.config a)) ⟨block, accounts a, []⟩ labels) :
    ∃ received, CallDataRun env d block received accounts accounts' := by
  refine ⟨fun a => (accounts' a).usdcBalance - (accounts a).usdcBalance, hruns, ?_⟩
  intro a
  obtain ⟨labels, hrun, hin⟩ := hruns a
  have hle := (run_frame hrun hin).2
  omega

end BoundedSpending.SponsoredBundles
