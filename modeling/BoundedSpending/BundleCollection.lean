import BoundedSpending.SponsoredBundles
import BoundedSpending.SponsorshipCoverage

set_option autoImplicit false

namespace BoundedSpending.BundleCollection

open CheckedArithmetic LimitPolicy SpendRecorders UserOperations Preflight NestedCalls
open AccountMachine AccountRules AccountJournal AccountLedger EntryPointGas SpendingPaymaster
open SponsoredBundles

def charge (d : Deployment) (item : Sponsorship) : ℕ :=
  withPremium item.actualGasCost * d.terms.usdcPerEth / ether

def charged (d : Deployment) (a : Address) (items : List Sponsorship) : ℕ :=
  (items.map fun item => if item.op.sender = a then charge d item else 0).sum

def received (a : Address) (items : List Sponsorship) : ℕ :=
  (items.map fun item => item.received a).sum

/-- The charge of `item` and those of the operations before it fit into the limits and the
    funds that its account had at the start, with what it has received since. -/
structure Room (d : Deployment) (block : Block) (start : Address → World)
    (before : List Sponsorship) (item : Sponsorship) : Prop where
  clock : ClockFits (start item.op.sender).storage block.timestamp
  daily : (start item.op.sender).storage.dailyUsdcSpent +
    charged d item.op.sender (before ++ [item]) ≤ (d.config item.op.sender).dailyUsdcLimit
  monthly : (start item.op.sender).storage.monthlyUsdcSpent +
    charged d item.op.sender (before ++ [item]) ≤ (d.config item.op.sender).monthlyUsdcLimit
  funds : charged d item.op.sender (before ++ [item]) ≤
    (start item.op.sender).usdcBalance + received item.op.sender (before ++ [item])

def Collectable (d : Deployment) (block : Block) (start : Address → World) :
    List Sponsorship → List Sponsorship → Prop
  | _, [] => True
  | before, item :: items => Room d block start before item ∧
      Collectable d block start (before ++ [item]) items

variable {env : Env} {d : Deployment} {block : Block}

theorem charged_append (a : Address) (xs ys : List Sponsorship) :
    charged d a (xs ++ ys) = charged d a xs + charged d a ys := by
  rw [charged, List.map_append, List.sum_append]
  rfl

theorem received_append (a : Address) (xs ys : List Sponsorship) :
    received a (xs ++ ys) = received a xs + received a ys := by
  rw [received, List.map_append, List.sum_append]
  rfl

theorem charged_singleton (a : Address) (item : Sponsorship) :
    charged d a [item] = if item.op.sender = a then charge d item else 0 := by
  simp [charged]

theorem charged_own (before : List Sponsorship) (item : Sponsorship) :
    charged d item.op.sender (before ++ [item]) =
      charged d item.op.sender before + charge d item := by
  rw [charged_append, charged_singleton, if_pos rfl]

theorem charged_other {a : Address} (before : List Sponsorship) {item : Sponsorship}
    (h : a ≠ item.op.sender) : charged d a (before ++ [item]) = charged d a before := by
  rw [charged_append, charged_singleton, if_neg h.symm, Nat.add_zero]

theorem received_singleton (a : Address) (item : Sponsorship) :
    received a [item] = item.received a := by
  simp [received]

theorem collect_eq_ok {accounts accounts' : Address → World} {item : Sponsorship}
    (htoken : env.usdcHasCode = true) (hsponsored : Sponsored d item.op)
    (hfits : CostFits d.terms.usdcPerEth item.actualGasCost)
    (hgas : minGasForUsdcTransfer ≤ item.gasLeft) :
    collect env d block accounts item = .ok accounts' ↔
      ClockFits (accounts item.op.sender).storage block.timestamp ∧
        UsdcRoom (d.config item.op.sender) (accounts item.op.sender).storage (charge d item) ∧
        charge d item ≤ (accounts item.op.sender).usdcBalance ∧
        accounts' = Function.update accounts item.op.sender
          (paid block.timestamp (charge d item) (accounts item.op.sender)) := by
  have hpostOp : postOp d.terms d.terms.entryPoint (encodeAccount item.op.sender)
      item.actualGasCost = .ok (item.op.sender, charge d item) :=
    postOp_eq_ok.mpr ⟨decodeAccount_encodeAccount item.op.sender_lt, hfits, rfl⟩
  simp only [collect, bind_returns, Prod.exists, pure_returns, hpostOp, Except.ok.injEq,
    Prod.mk.injEq, ← hsponsored.payer]
  constructor
  · intro h
    obtain ⟨_, _, ⟨rfl, rfl⟩, w, hpay, rfl⟩ := h
    obtain ⟨_, _, hclock, hroom, hfunds, rfl⟩ := (payForGasInUsdc_withToken htoken).mp hpay
    exact ⟨hclock, hroom, hfunds, rfl⟩
  · intro h
    obtain ⟨hclock, hroom, hfunds, rfl⟩ := h
    exact ⟨_, _, ⟨rfl, rfl⟩, _,
      (payForGasInUsdc_withToken htoken).mpr ⟨rfl, hgas, hclock, hroom, hfunds, rfl⟩, rfl⟩

/-- Where every account stands after the operations `before`, all of them collected. -/
structure Budget (d : Deployment) (block : Block) (start accounts : Address → World)
    (before : List Sponsorship) (a : Address) : Prop where
  daily : (accounts a).storage.dailyUsdcSpent =
    (start a).storage.dailyUsdcSpent + charged d a before
  monthly : (accounts a).storage.monthlyUsdcSpent =
    (start a).storage.monthlyUsdcSpent + charged d a before
  clock : ClockFits (accounts a).storage block.timestamp ↔
    ClockFits (start a).storage block.timestamp
  funds : (accounts a).usdcBalance + charged d a before =
    (start a).usdcBalance + received a before

variable {start accounts accounts₁ accounts₂ : Address → World} {before : List Sponsorship}
  {item : Sponsorship}

theorem Budget.callData (h : ∀ a, Budget d block start accounts before a)
    (hcall : CallDataRun env d block item.received accounts accounts₁) (a : Address) :
    SameUsdc block.timestamp (accounts a) (accounts₁ a) ∧
      (accounts₁ a).usdcBalance + charged d a before =
        (start a).usdcBalance + received a (before ++ [item]) := by
  obtain ⟨labels, hrun, hin⟩ := hcall.runs a
  refine ⟨(run_frame hrun hin).1, ?_⟩
  have hfunds := (h a).funds
  have hreceived := hcall.received a
  rw [received_append, received_singleton]
  omega

theorem Budget.collect_iff (h : ∀ a, Budget d block start accounts before a)
    (hcall : CallDataRun env d block item.received accounts accounts₁)
    (htoken : env.usdcHasCode = true) (hsponsored : Sponsored d item.op)
    (hfits : CostFits d.terms.usdcPerEth item.actualGasCost)
    (hgas : minGasForUsdcTransfer ≤ item.gasLeft) :
    (∃ accounts₂, collect env d block accounts₁ item = .ok accounts₂) ↔
      Room d block start before item := by
  obtain ⟨hsame, hfunds⟩ := Budget.callData h hcall item.op.sender
  obtain ⟨hdaily, hmonthly, hclock, _⟩ := h item.op.sender
  have hcharged := charged_own (d := d) before item
  have hsd := hsame.daily
  have hsm := hsame.monthly
  constructor
  · intro hex
    obtain ⟨accounts₂, hpay⟩ := hex
    obtain ⟨hc, hr, hf, _⟩ := (collect_eq_ok htoken hsponsored hfits hgas).mp hpay
    obtain ⟨hrd, hrm⟩ := hr
    refine ⟨hclock.mp (hsame.clock.mp hc), ?_, ?_, ?_⟩
    · omega
    · omega
    · omega
  · intro hroom
    obtain ⟨hc, hd, hm, hf⟩ := hroom
    refine ⟨_, (collect_eq_ok htoken hsponsored hfits hgas).mpr
      ⟨hsame.clock.mpr (hclock.mpr hc), ⟨?_, ?_⟩, ?_, rfl⟩⟩
    · omega
    · omega
    · omega

theorem Budget.collected (h : ∀ a, Budget d block start accounts before a)
    (hcall : CallDataRun env d block item.received accounts accounts₁)
    (htoken : env.usdcHasCode = true) (hsponsored : Sponsored d item.op)
    (hfits : CostFits d.terms.usdcPerEth item.actualGasCost)
    (hgas : minGasForUsdcTransfer ≤ item.gasLeft)
    (hpay : collect env d block accounts₁ item = .ok accounts₂) (a : Address) :
    Budget d block start accounts₂ (before ++ [item]) a := by
  obtain ⟨_, _, hf, rfl⟩ := (collect_eq_ok htoken hsponsored hfits hgas).mp hpay
  obtain ⟨hsame, hfunds⟩ := Budget.callData h hcall a
  obtain ⟨hdaily, hmonthly, hclock, _⟩ := h a
  have hsd := hsame.daily
  have hsm := hsame.monthly
  by_cases ha : a = item.op.sender
  · subst ha
    have hcharged := charged_own (d := d) before item
    refine ⟨?_, ?_, ?_, ?_⟩
    · rw [Function.update_self]
      change (accounts₁ item.op.sender).storage.dailyUsdcSpent + charge d item = _
      omega
    · rw [Function.update_self]
      change (accounts₁ item.op.sender).storage.monthlyUsdcSpent + charge d item = _
      omega
    · rw [Function.update_self]
      exact ((clockFits_recorded _ _ 0 (charge d item)).trans hsame.clock).trans hclock
    · rw [Function.update_self]
      change (accounts₁ item.op.sender).usdcBalance - charge d item + _ = _
      omega
  · have hcharged := charged_other (d := d) before ha
    have hother : Function.update accounts₁ item.op.sender
        (paid block.timestamp (charge d item) (accounts₁ item.op.sender)) a = accounts₁ a :=
      Function.update_of_ne ha _ _
    refine ⟨?_, ?_, ?_, ?_⟩
    · rw [hother]
      omega
    · rw [hother]
      omega
    · rw [hother]
      exact hsame.clock.trans hclock
    · rw [hother]
      omega

/-- The run of the executions: all flags are set exactly when every charge has room. -/
theorem ExecutionPhase.all_collected_iff {items : List Sponsorship} {flags : List Bool}
    {accounts' : Address → World} (hrun : ExecutionPhase env d block accounts items flags accounts')
    (htoken : env.usdcHasCode = true) (hsponsored : ∀ item ∈ items, Sponsored d item.op)
    (hfits : ∀ item ∈ items, CostFits d.terms.usdcPerEth item.actualGasCost)
    (hgas : ∀ item ∈ items, minGasForUsdcTransfer ≤ item.gasLeft)
    (h : ∀ a, Budget d block start accounts before a) :
    (∀ flag ∈ flags, flag = true) ↔ Collectable d block start before items := by
  induction hrun generalizing before with
  | nil accounts => exact ⟨fun _ => trivial, fun _ _ hmem => nomatch hmem⟩
  | @collected accounts accounts₁ accounts₂ accounts' item items flags hcall hpay hrest ih =>
    have hs := hsponsored item List.mem_cons_self
    have hf := hfits item List.mem_cons_self
    have hg := hgas item List.mem_cons_self
    have hroom := (Budget.collect_iff h hcall htoken hs hf hg).mp ⟨accounts₂, hpay⟩
    have htail := ih (fun i hi => hsponsored i (List.mem_cons_of_mem _ hi))
      (fun i hi => hfits i (List.mem_cons_of_mem _ hi))
      (fun i hi => hgas i (List.mem_cons_of_mem _ hi))
      (Budget.collected h hcall htoken hs hf hg hpay)
    constructor
    · intro hall
      exact ⟨hroom, htail.mp fun flag hmem => hall flag (List.mem_cons_of_mem _ hmem)⟩
    · intro hcollectable flag hmem
      rcases List.mem_cons.mp hmem with rfl | hmem
      · rfl
      · exact htail.mpr hcollectable.2 flag hmem
  | @uncollected accounts accounts₁ accounts' item items flags reason hcall hpay hrest ih =>
    have hnot : ¬ Room d block start before item := by
      intro hroom
      obtain ⟨accounts₂, hok⟩ := (Budget.collect_iff h hcall htoken
        (hsponsored item List.mem_cons_self) (hfits item List.mem_cons_self)
        (hgas item List.mem_cons_self)).mpr hroom
      rw [hpay] at hok
      exact nomatch hok
    constructor
    · intro hall
      exact nomatch hall false List.mem_cons_self
    · intro hcollectable
      exact absurd hcollectable.1 hnot

theorem validatePrepayment_keeps {opIndex userOpHash : ℕ} {c c' : Chain}
    {op : PackedUserOperation} (hsponsored : Sponsored d op)
    (h : validatePrepayment env d block opIndex c op userOpHash = .ok c') :
    (∀ a, SameUsdc block.timestamp (c.account a) (c'.account a) ∧
      (c'.account a).usdcBalance = (c.account a).usdcBalance) ∧
    CostFits d.terms.usdcPerEth (gasLimits op * gasPrice block op) := by
  simp only [validatePrepayment, bind_returns, Prod.exists, pure_returns] at h
  obtain ⟨_, _, _, _, data, w, hvalid, nonce, _, _, _, _, _, _, _, _, _, _, rfl⟩ := h
  obtain ⟨_, s, hpre, hw⟩ := validateUserOp_eq_ok.mp hvalid
  have hpaid : payPrefund block.timestamp (logged { c.account op.sender with storage := s }
      block.timestamp [.validated]) 0 =
        logged { c.account op.sender with storage := s } block.timestamp [.validated] :=
    if_neg fun hfunds => hfunds.1 rfl
  obtain ⟨eth, usdc, gasCost, _, _, hcost, _⟩ := preflight_eq_ok.mp hpre
  have hfits := (getUsdcGasCostIfPaymaster_eq_ok hsponsored.data
    (hsponsored.names.trans hsponsored.payer.symm) hcost).2.1
  rw [hsponsored.rate] at hfits
  refine ⟨?_, hfits⟩
  intro a
  by_cases ha : a = op.sender
  · subst ha
    simp only [Function.update_self]
    rw [hw, hpaid]
    exact ⟨SameUsdc.of_counters (preflight_sameCounters hpre), rfl⟩
  · simp only [Function.update_of_ne ha]
    exact ⟨SameUsdc.refl _ _, trivial⟩

theorem validateAll_keeps {opIndex : ℕ} {c c' : Chain} {items : List Sponsorship}
    (hsponsored : ∀ item ∈ items, Sponsored d item.op)
    (h : validateAll env d block opIndex c items = .ok c') :
    (∀ a, SameUsdc block.timestamp (c.account a) (c'.account a) ∧
      (c'.account a).usdcBalance = (c.account a).usdcBalance) ∧
    ∀ item ∈ items, CostFits d.terms.usdcPerEth (gasLimits item.op * gasPrice block item.op) := by
  induction items generalizing opIndex c with
  | nil =>
    obtain rfl := Except.ok.inj h
    exact ⟨fun a => ⟨SameUsdc.refl _ _, rfl⟩, fun _ hmem => nomatch hmem⟩
  | cons item items ih =>
    simp only [validateAll, bind_returns] at h
    obtain ⟨v, hv, hrest⟩ := h
    obtain ⟨hsame, hfits⟩ := validatePrepayment_keeps (hsponsored item List.mem_cons_self) hv
    obtain ⟨hsame', hfits'⟩ := ih (fun i hi => hsponsored i (List.mem_cons_of_mem _ hi)) hrest
    refine ⟨fun a => ?_, fun i hi => ?_⟩
    · exact ⟨(hsame a).1.trans (hsame' a).1, (hsame' a).2.trans (hsame a).2⟩
    · rcases List.mem_cons.mp hi with rfl | hi
      · exact hfits
      · exact hfits' i hi

/-- A validated bundle has every `postOp` succeed, whatever its callData does, exactly when
    the charges of each account, added up in order, have room in its limits and its funds. -/
theorem bundle_collected_iff (env : Env) (d : Deployment) (block : Block) (c c' : Chain)
    (items : List Sponsorship) (flags : List Bool) (accounts' : Address → World)
    (htoken : env.usdcHasCode = true)
    (hsponsored : ∀ item ∈ items, Sponsored d item.op)
    (hcost : ∀ item ∈ items, item.actualGasCost ≤ gasLimits item.op * gasPrice block item.op)
    (hgas : ∀ item ∈ items, minGasForUsdcTransfer ≤ item.gasLeft)
    (hvalid : validateAll env d block 0 c items = .ok c')
    (hrun : ExecutionPhase env d block c'.account items flags accounts') :
    (∀ flag ∈ flags, flag = true) ↔ Collectable d block c.account [] items := by
  obtain ⟨hsame, hfits⟩ := validateAll_keeps hsponsored hvalid
  have hbudget : ∀ a, Budget d block c.account c'.account [] a := by
    intro a
    obtain ⟨⟨hdaily, hmonthly, hclock⟩, hfunds⟩ := hsame a
    exact ⟨hdaily, hmonthly, hclock, hfunds⟩
  exact ExecutionPhase.all_collected_iff hrun htoken hsponsored
    (fun item hmem => (hfits item hmem).mono (hcost item hmem)) hgas hbudget

/-- The tests' paymaster at address 0x303, and an account of the tests at every sender. -/
def testDeployment : Deployment := ⟨0x303, testPaymaster, fun _ => testConfig⟩

def testChain (usdcBalance : ℕ) : Chain :=
  ⟨fun _ => ⟨deployed 1000, 0, usdcBalance, []⟩, ether, fun _ _ => 0⟩

/-- An operation without callData. `actualGas` is what the EntryPoint had counted when it
    called `postOp`, at 1 gwei. -/
def idleSponsorship (nonce actualGas : ℕ) : Sponsorship where
  op :=
    { testOp 0x707 nonce [] (encodePaymasterData 0x303 60000 100000) testSender_lt with
      preVerificationGas := 400000 }
  userOpHash := nonce
  actualGasCost := actualGas * 10 ^ 9
  gasLeft := 90000
  received := fun _ => 0

/-- The first operation finds the account's storage cold. -/
def idleBundle : List Sponsorship := [idleSponsorship 0 479934, idleSponsorship 1 427173]

def idleUse (verificationGas : ℕ) (h : verificationGas < 2 ^ 64) : GasUse :=
  { SponsorshipCoverage.ordinaryUse with
    verificationGas := verificationGas
    verificationGas_lt := h }

structure Regular (d : Deployment) (block : Block) (item : Sponsorship) : Prop where
  sponsored : Sponsored d item.op
  cost : ∃ use, item.actualGasCost = earlyGas item.op use * gasPrice block item.op
  cost_le : item.actualGasCost ≤ gasLimits item.op * gasPrice block item.op
  gas : minGasForUsdcTransfer ≤ item.gasLeft

theorem idle_sponsored (nonce actualGas : ℕ) :
    Sponsored testDeployment (idleSponsorship nonce actualGas).op := by
  refine ⟨?_, ?_, rfl, rfl, rfl⟩
  · change paymasterDataOffset ≤ (encodePaymasterData 0x303 60000 100000).length
    decide +kernel
  · change BigEndianWords.value
      (BigEndianWords.window (encodePaymasterData 0x303 60000 100000) 0 20) = 0x303
    decide +kernel

theorem idleBundle_regular :
    ∀ item ∈ idleBundle, Regular testDeployment (blockAt 1000 testTime_lt) item := by
  intro item hmem
  rcases List.mem_cons.mp hmem with rfl | hmem
  · exact ⟨idle_sponsored _ _, ⟨idleUse 68534 (by decide), by decide +kernel⟩,
      by decide +kernel, by decide⟩
  · rw [List.mem_singleton.mp hmem]
    exact ⟨idle_sponsored _ _, ⟨idleUse 15773 (by decide), by decide +kernel⟩,
      by decide +kernel, by decide⟩

theorem idle_callDataRun {env : Env} {d : Deployment} {block : Block}
    (accounts : Address → World) : CallDataRun env d block (fun _ => 0) accounts accounts :=
  ⟨fun _ => ⟨[], rfl, trivial⟩, fun _ => rfl⟩

theorem collect_idle {nonce actualGas amount : ℕ} {accounts accounts' : Address → World} {w : World}
    (hcharge : charge testDeployment (idleSponsorship nonce actualGas) = amount)
    (hfits : CostFits testDeployment.terms.usdcPerEth (actualGas * 10 ^ 9))
    (hworld : accounts 0x707 = w) :
    collect ownerEnv testDeployment (blockAt 1000 testTime_lt) accounts
        (idleSponsorship nonce actualGas) = .ok accounts' ↔
      ClockFits w.storage 1000 ∧ UsdcRoom testConfig w.storage amount ∧
        amount ≤ w.usdcBalance ∧
        accounts' = Function.update accounts 0x707 (paid 1000 amount w) := by
  have hgas : minGasForUsdcTransfer ≤ (idleSponsorship nonce actualGas).gasLeft := by
    change minGasForUsdcTransfer ≤ 90000
    decide
  have htoken : ownerEnv.usdcHasCode = true := rfl
  rw [← hworld, ← hcharge]
  exact collect_eq_ok htoken (idle_sponsored nonce actualGas) hfits hgas

theorem idleCharges : charge testDeployment (idleSponsorship 0 479934) = 1007861 ∧
    charge testDeployment (idleSponsorship 1 427173) = 897063 := by decide +kernel

theorem idleCosts_fit : CostFits testDeployment.terms.usdcPerEth (479934 * 10 ^ 9) ∧
    CostFits testDeployment.terms.usdcPerEth (427173 * 10 ^ 9) := by
  unfold CostFits
  decide +kernel

def idleWorld (usdcBalance : ℕ) : World :=
  ⟨deployed 1000, 0, usdcBalance, [(1000, .validated), (1000, .validated)]⟩

theorem collect_first {usdcBalance : ℕ} {accounts : Address → World}
    (haccount : accounts 0x707 = idleWorld usdcBalance) (hfunds : 1007861 ≤ usdcBalance) :
    collect ownerEnv testDeployment (blockAt 1000 testTime_lt) accounts
        (idleSponsorship 0 479934) =
      .ok (Function.update accounts 0x707 (paid 1000 1007861 (idleWorld usdcBalance))) := by
  have hclock : ClockFits (deployed 1000) 1000 := by decide +kernel
  have hroom : UsdcRoom testConfig (deployed 1000) 1007861 := by decide +kernel
  exact (collect_idle idleCharges.1 idleCosts_fit.1 haccount).mpr ⟨hclock, hroom, hfunds, rfl⟩

theorem collect_second_iff {usdcBalance : ℕ} {accounts : Address → World}
    (haccount : accounts 0x707 = paid 1000 1007861 (idleWorld usdcBalance)) :
    (∃ accounts', collect ownerEnv testDeployment (blockAt 1000 testTime_lt) accounts
        (idleSponsorship 1 427173) = .ok accounts') ↔ 897063 ≤ usdcBalance - 1007861 := by
  have hclock : ClockFits (paid 1000 1007861 (idleWorld usdcBalance)).storage 1000 := by
    change ClockFits (recorded (deployed 1000) 1000 0 1007861) 1000
    decide +kernel
  have hroom : UsdcRoom testConfig (paid 1000 1007861 (idleWorld usdcBalance)).storage 897063 := by
    change UsdcRoom testConfig (recorded (deployed 1000) 1000 0 1007861) 897063
    decide +kernel
  have hcollect := fun accounts' =>
    @collect_idle _ _ _ _ accounts' _ idleCharges.2 idleCosts_fit.2 haccount
  constructor
  · rintro ⟨accounts', hok⟩
    exact ((hcollect accounts').mp hok).2.2.1
  · intro hfunds
    exact ⟨_, (hcollect _).mpr ⟨hclock, hroom, hfunds, rfl⟩⟩

theorem bundle_collected_iff_twice :
    ∃ c' accounts', validateAll ownerEnv testDeployment (blockAt 1000 testTime_lt) 0
        (testChain (2 * 10 ^ 6)) idleBundle = .ok c' ∧
      ExecutionPhase ownerEnv testDeployment (blockAt 1000 testTime_lt) c'.account idleBundle
        [true, true] accounts' ∧
      ((∀ flag ∈ [true, true], flag = true) ↔ Collectable testDeployment
        (blockAt 1000 testTime_lt) (testChain (2 * 10 ^ 6)).account [] idleBundle) := by
  have hvalid : (validateAll ownerEnv testDeployment (blockAt 1000 testTime_lt) 0
      (testChain (2 * 10 ^ 6)) idleBundle).toOption.map (fun c => c.account 0x707) =
        some (idleWorld (2 * 10 ^ 6)) := by
    decide +kernel
  obtain ⟨c', hc', haccount⟩ := toOption_map_eq_some.mp hvalid
  have hfirst := collect_first haccount (by decide)
  have hleft := Function.update_self 0x707 (paid 1000 1007861 (idleWorld (2 * 10 ^ 6))) c'.account
  obtain ⟨accounts', hsecond⟩ := (collect_second_iff hleft).mpr (by decide)
  have hrun : ExecutionPhase ownerEnv testDeployment (blockAt 1000 testTime_lt) c'.account
      idleBundle [true, true] accounts' :=
    .collected (idle_callDataRun _) hfirst (.collected (idle_callDataRun _) hsecond (.nil _))
  exact ⟨c', accounts', hc', hrun, bundle_collected_iff ownerEnv testDeployment _ _ c' _ _ _ rfl
    (fun item hmem => (idleBundle_regular item hmem).sponsored)
    (fun item hmem => (idleBundle_regular item hmem).cost_le)
    (fun item hmem => (idleBundle_regular item hmem).gas) hc' hrun⟩

/-- The account holds the 1.512 USDC that either operation may cost at most. Either is
    validated against them, and the first leaves too little for the second. -/
theorem idle_twice_uncollected :
    (∀ item ∈ idleBundle, Regular testDeployment (blockAt 1000 testTime_lt) item) ∧
    ∃ c' accounts', validateAll ownerEnv testDeployment (blockAt 1000 testTime_lt) 0
        (testChain 1512000) idleBundle = .ok c' ∧
      ExecutionPhase ownerEnv testDeployment (blockAt 1000 testTime_lt) c'.account idleBundle
        [true, false] accounts' ∧
      (accounts' 0x707).usdcBalance = 504139 ∧
      charge testDeployment (idleSponsorship 1 427173) = 897063 := by
  have hvalid : (validateAll ownerEnv testDeployment (blockAt 1000 testTime_lt) 0
      (testChain 1512000) idleBundle).toOption.map (fun c => c.account 0x707) =
        some (idleWorld 1512000) := by
    decide +kernel
  obtain ⟨c', hc', haccount⟩ := toOption_map_eq_some.mp hvalid
  have hfirst := collect_first haccount (by decide)
  have hleft := Function.update_self 0x707 (paid 1000 1007861 (idleWorld 1512000)) c'.account
  have hunpaid : ∃ reason, collect ownerEnv testDeployment (blockAt 1000 testTime_lt)
      (Function.update c'.account 0x707 (paid 1000 1007861 (idleWorld 1512000)))
      (idleSponsorship 1 427173) = .error reason := by
    cases hsecond : collect ownerEnv testDeployment (blockAt 1000 testTime_lt)
        (Function.update c'.account 0x707 (paid 1000 1007861 (idleWorld 1512000)))
        (idleSponsorship 1 427173) with
    | error reason => exact ⟨reason, rfl⟩
    | ok accounts' =>
      have hfunds := (collect_second_iff hleft).mp ⟨accounts', hsecond⟩
      exact absurd hfunds (by decide)
  obtain ⟨reason, hsecond⟩ := hunpaid
  have hrun : ExecutionPhase ownerEnv testDeployment (blockAt 1000 testTime_lt) c'.account
      idleBundle [true, false]
      (Function.update c'.account 0x707 (paid 1000 1007861 (idleWorld 1512000))) :=
    .collected (idle_callDataRun _) hfirst
      (.uncollected (idle_callDataRun _) hsecond (.nil _))
  refine ⟨idleBundle_regular, c', _, hc', hrun, ?_, idleCharges.2⟩
  rw [hleft]
  rfl

end BoundedSpending.BundleCollection
