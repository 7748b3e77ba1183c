import BoundedSpending.AccountRules
import BoundedSpending.SponsorshipCoverage

set_option autoImplicit false

namespace BoundedSpending.GasCostOrder

open CheckedArithmetic BigEndianWords UserOperations EntryPointGas SpendingPaymaster
open Preflight AccountMachine AccountRules SponsorshipCoverage

structure MemoryUserOp where
  sender : Address
  nonce : ℕ
  verificationGasLimit : ℕ
  callGasLimit : ℕ
  paymasterVerificationGasLimit : ℕ
  paymasterPostOpGasLimit : ℕ
  preVerificationGas : ℕ
  paymaster : Address
  maxFeePerGas : ℕ
  maxPriorityFeePerGas : ℕ
  deriving DecidableEq, Repr

/-- `data[start : stop]`. Out of range it reverts without data, like a failed decoding. -/
def calldataSlice (data : Bytes) (start stop : ℕ) : Except Revert Bytes := do
  require (start ≤ stop ∧ stop ≤ data.length) .abiDecoding
  return (data.drop start).take (stop - start)

def unpackUints (packed : ℕ) : ℕ × ℕ := (unpackHigh128 packed, unpackLow128 packed)

def unpackPaymasterStaticFields (paymasterAndData : Bytes) : Except Revert (Address × ℕ × ℕ) := do
  let paymaster ← calldataSlice paymasterAndData 0 20
  let validationGasLimit ← calldataSlice paymasterAndData 20 36
  let postOpGasLimit ← calldataSlice paymasterAndData 36 52
  return (value paymaster, value validationGasLimit, value postOpGasLimit)

def copyUserOpToMemory (op : PackedUserOperation) : Except Revert MemoryUserOp := do
  let (verificationGasLimit, callGasLimit) := unpackUints op.accountGasLimits
  let (maxPriorityFeePerGas, maxFeePerGas) := unpackUints op.gasFees
  let mUserOp : MemoryUserOp :=
    ⟨op.sender, op.nonce, verificationGasLimit, callGasLimit, 0, 0, op.preVerificationGas, 0,
      maxFeePerGas, maxPriorityFeePerGas⟩
  if 0 < op.paymasterAndData.length then do
    require (paymasterDataOffset ≤ op.paymasterAndData.length)
      (.errorString "AA93 invalid paymasterAndData")
    let (paymaster, validationGasLimit, postOpGasLimit) ←
      unpackPaymasterStaticFields op.paymasterAndData
    require (paymaster ≠ 0) (.errorString "AA98 invalid paymaster")
    return { mUserOp with
      paymaster := paymaster
      paymasterVerificationGasLimit := validationGasLimit
      paymasterPostOpGasLimit := postOpGasLimit }
  else return mUserOp

/-- The check in `_validatePrepayment` that every value fits in 120 bits. -/
def checkMemoryGasValues (opIndex : ℕ) (mUserOp : MemoryUserOp) : Except Revert Unit :=
  require (mUserOp.preVerificationGas ||| mUserOp.verificationGasLimit ||| mUserOp.callGasLimit |||
      mUserOp.paymasterVerificationGasLimit ||| mUserOp.paymasterPostOpGasLimit |||
      mUserOp.maxFeePerGas ||| mUserOp.maxPriorityFeePerGas ≤ maxGasValue)
    (.failedOp opIndex "AA94 gas values overflow")

def getRequiredPrefund (mUserOp : MemoryUserOp) : ℕ :=
  let requiredGas := uncheckedAdd (uncheckedAdd (uncheckedAdd (uncheckedAdd
    mUserOp.verificationGasLimit mUserOp.callGasLimit) mUserOp.paymasterVerificationGasLimit)
    mUserOp.paymasterPostOpGasLimit) mUserOp.preVerificationGas
  uncheckedMul requiredGas mUserOp.maxFeePerGas

def getUserOpGasPrice (block : Block) (mUserOp : MemoryUserOp) : ℕ :=
  min mUserOp.maxFeePerGas (uncheckedAdd mUserOp.maxPriorityFeePerGas block.basefee)

/-- The copy that the EntryPoint makes of a sponsored operation, in the account's own words. -/
def memoryOf (op : PackedUserOperation) : MemoryUserOp where
  sender := op.sender
  nonce := op.nonce
  verificationGasLimit := unpackVerificationGasLimit op
  callGasLimit := unpackCallGasLimit op
  paymasterVerificationGasLimit := unpackPaymasterVerificationGasLimit op
  paymasterPostOpGasLimit := unpackPostOpGasLimit op
  preVerificationGas := op.preVerificationGas
  paymaster := paymasterOf op
  maxFeePerGas := unpackMaxFeePerGas op
  maxPriorityFeePerGas := unpackMaxPriorityFeePerGas op

variable {op : PackedUserOperation} {mUserOp : MemoryUserOp}

theorem calldataSlice_eq_ok {data bytes : Bytes} {start stop : ℕ} :
    calldataSlice data start stop = .ok bytes ↔
      (start ≤ stop ∧ stop ≤ data.length) ∧ bytes = window data start (stop - start) := by
  simp only [calldataSlice, bind_returns, require_eq_ok, pure_returns]
  constructor
  · rintro ⟨_, hrange, rfl⟩
    exact ⟨hrange, (window_eq_slice (by omega)).symm⟩
  · rintro ⟨hrange, rfl⟩
    exact ⟨(), hrange, window_eq_slice (by omega)⟩

theorem copyUserOpToMemory_eq_ok (hlength : paymasterDataOffset ≤ op.paymasterAndData.length) :
    copyUserOpToMemory op = .ok mUserOp ↔ paymasterOf op ≠ 0 ∧ mUserOp = memoryOf op := by
  have hoffset : paymasterDataOffset = 52 := rfl
  have hpos : 0 < op.paymasterAndData.length := by omega
  simp only [copyUserOpToMemory, unpackUints, if_pos hpos, unpackPaymasterStaticFields,
    bind_returns, require_eq_ok, calldataSlice_eq_ok, pure_returns, Prod.exists, Prod.mk.injEq]
  constructor
  · rintro ⟨_, _, _, _, _, ⟨_, ⟨_, rfl⟩, _, ⟨_, rfl⟩, _, ⟨_, rfl⟩, rfl, rfl, rfl⟩, _, hne, rfl⟩
    exact ⟨hne, rfl⟩
  · rintro ⟨hne, rfl⟩
    exact ⟨(), hlength, _, _, _, ⟨_, ⟨by omega, rfl⟩, _, ⟨by omega, rfl⟩, _, ⟨by omega, rfl⟩,
      rfl, rfl, rfl⟩, (), hne, rfl⟩

theorem checkMemoryGasValues_memoryOf (opIndex : ℕ) (op : PackedUserOperation) :
    checkMemoryGasValues opIndex (memoryOf op) = checkGasValues opIndex op := rfl

theorem getRequiredPrefund_memoryOf (op : PackedUserOperation) :
    getRequiredPrefund (memoryOf op) = requiredPrefund op := rfl

theorem getUserOpGasPrice_memoryOf (block : Block) (op : PackedUserOperation) :
    getUserOpGasPrice block (memoryOf op) = gasPrice block op := rfl

def memoryGasLimits (mUserOp : MemoryUserOp) : ℕ :=
  mUserOp.preVerificationGas + mUserOp.verificationGasLimit + mUserOp.callGasLimit +
    mUserOp.paymasterVerificationGasLimit + mUserOp.paymasterPostOpGasLimit

theorem charge_mono {rate a b : ℕ} (h : a ≤ b) :
    withPremium a * rate / ether ≤ withPremium b * rate / ether :=
  Nat.div_le_div_right (Nat.mul_le_mul_right rate (withPremium_mono h))

variable {paymaster : Paymaster} {block : Block} {opIndex : ℕ}

/-- Gas within the limits, at the price of the operation, never costs more than the prefund. -/
theorem billed_le_prefund (hgas : checkGasValues opIndex op = .ok ()) {gas : ℕ}
    (hlimit : gas ≤ gasLimits op) : gas * gasPrice block op ≤ requiredPrefund op := by
  rw [requiredPrefund_eq hgas]
  exact Nat.mul_le_mul hlimit (gasPrice_le block op)

theorem requiredPrefund_lt (op : PackedUserOperation) : requiredPrefund op < wordSize :=
  Nat.mod_lt _ (by decide)

theorem billed_eq (hgas : checkGasValues opIndex op = .ok ()) {gas : ℕ}
    (hlimit : gas ≤ gasLimits op) :
    uncheckedMul gas (gasPrice block op) = gas * gasPrice block op :=
  uncheckedMul_of_lt ((billed_le_prefund hgas hlimit).trans_lt (requiredPrefund_lt op))

theorem accepted_iff_balance {sender : Address} {maxCost balance required : ℕ} {result : Bytes × ℕ}
    (haccepted : validatePaymasterUserOp paymaster sender op maxCost balance = .ok result)
    (hrequired : costInUsdc paymaster.usdcPerEth maxCost = .ok required) (balance' : ℕ) :
    (∃ result, validatePaymasterUserOp paymaster sender op maxCost balance' = .ok result) ↔
      required ≤ balance' := by
  simp only [validatePaymasterUserOp, bind_returns, require_eq_ok, hrequired, Except.ok.injEq]
    at haccepted ⊢
  obtain ⟨_, hsender, _, hpostOp, _, hcap, _, _⟩ := haccepted
  constructor
  · intro h
    obtain ⟨_, _, _, _, _, _, _, _, rfl, _, hbalance, _⟩ := h
    exact hbalance
  · intro h
    exact ⟨_, (), hsender, (), hpostOp, (), hcap, required, rfl, (), h, rfl⟩

/-- For a sponsored operation that both sides accept in one block, what `postOp` charges for
    gas within the limits is at most the account's projection, that is at most the balance
    the paymaster asks for, and that is at most the charge for its cost cap; and both
    contracts read the same five gas limits. -/
theorem gas_costs_ordered (env : Env) (cfg : Config) (paymaster : Paymaster) (block : Block)
    (w : World) (op : PackedUserOperation) (mUserOp : MemoryUserOp)
    (opIndex userOpHash missingAccountFunds balance validationData : ℕ) (result : ℕ × World)
    (context : Bytes) (hrate : paymaster.usdcPerEth = cfg.usdcPerEth)
    (hlength : paymasterDataOffset ≤ op.paymasterAndData.length)
    (hpaymaster : paymasterOf op = cfg.paymasterAddress)
    (hcopy : copyUserOpToMemory op = .ok mUserOp)
    (hgas : checkMemoryGasValues opIndex mUserOp = .ok ())
    (haccount : validateUserOp env cfg block w cfg.entryPointContract op userOpHash
      missingAccountFunds = .ok result)
    (haccepted : validatePaymasterUserOp paymaster paymaster.entryPoint op
      (getRequiredPrefund mUserOp) balance = .ok (context, validationData)) :
    (∃ projected required, getUsdcGasCostIfPaymaster cfg block op = .ok projected ∧
      (∀ balance', (∃ result, validatePaymasterUserOp paymaster paymaster.entryPoint op
        (getRequiredPrefund mUserOp) balance' = .ok result) ↔ required ≤ balance') ∧
      (∀ gas, gas ≤ memoryGasLimits mUserOp → ∃ charge,
        postOp paymaster paymaster.entryPoint context
          (uncheckedMul gas (getUserOpGasPrice block mUserOp)) = .ok (op.sender, charge) ∧
        charge ≤ projected) ∧
      projected ≤ required ∧
      required ≤ withPremium maxCostCap * paymaster.usdcPerEth / ether) ∧
    requiredGas op = .ok (memoryGasLimits mUserOp) ∧
    [op.preVerificationGas, unpackVerificationGasLimit op, unpackCallGasLimit op,
        unpackPaymasterVerificationGasLimit op, unpackPostOpGasLimit op] =
      [mUserOp.preVerificationGas, mUserOp.verificationGasLimit, mUserOp.callGasLimit,
        mUserOp.paymasterVerificationGasLimit, mUserOp.paymasterPostOpGasLimit] := by
  obtain ⟨_, rfl⟩ := (copyUserOpToMemory_eq_ok hlength).mp hcopy
  rw [checkMemoryGasValues_memoryOf] at hgas
  rw [getRequiredPrefund_memoryOf] at haccepted ⊢
  rw [getUserOpGasPrice_memoryOf]
  obtain ⟨hcontext, _, hcap, hfits, _⟩ := validatePaymasterUserOp_eq_ok haccepted
  obtain ⟨_, s, hpre, _⟩ := validateUserOp_eq_ok.mp haccount
  obtain ⟨_, _, projected, _, _, hprojected, _⟩ := preflight_eq_ok.mp hpre
  obtain ⟨hrequiredGas, _, hvalue⟩ := getUsdcGasCostIfPaymaster_eq_ok hlength hpaymaster hprojected
  rw [← hrate] at hvalue
  have hrequired : costInUsdc paymaster.usdcPerEth (requiredPrefund op) =
      .ok (withPremium (requiredPrefund op) * paymaster.usdcPerEth / ether) :=
    costInUsdc_eq_ok.mpr ⟨hfits, rfl⟩
  refine ⟨⟨projected, _, hprojected, accepted_iff_balance haccepted hrequired, ?_, ?_,
    charge_mono hcap⟩, hrequiredGas, rfl⟩
  · intro gas hlimit
    have hlimit : gas ≤ gasLimits op := hlimit
    have hbilled : gas * gasPrice block op ≤ requiredPrefund op := billed_le_prefund hgas hlimit
    rw [billed_eq hgas hlimit]
    refine ⟨_, postOp_eq_ok.mpr ⟨?_, hfits.mono hbilled, rfl⟩, ?_⟩
    · rw [hcontext]
      exact decodeAccount_encodeAccount op.sender_lt
    · rw [hvalue]
      exact charge_mono (Nat.mul_le_mul_right _ hlimit)
  · rw [hvalue]
    exact charge_mono (billed_le_prefund hgas le_rfl)

theorem gas_costs_ordered_sponsored :
    copyUserOpToMemory sponsoredOp = .ok (memoryOf sponsoredOp) ∧
      ∃ required, 777000 ≤ required ∧
        ∀ gas, gas ≤ memoryGasLimits (memoryOf sponsoredOp) → ∃ charge,
          postOp testPaymaster testPaymaster.entryPoint (encodeAccount 0x707)
            (uncheckedMul gas (getUserOpGasPrice fundedMachine.clock (memoryOf sponsoredOp))) =
              .ok (0x707, charge) ∧ charge ≤ 777000 := by
  have hcopy : copyUserOpToMemory sponsoredOp = .ok (memoryOf sponsoredOp) := by
    decide +kernel
  have haccount : validateUserOp ownerEnv testConfig fundedMachine.clock fundedMachine.world
      testConfig.entryPointContract sponsoredOp 0 0 =
        .ok (0, logged fundedMachine.world 1000 [.validated]) := by
    decide +kernel
  have haccepted : validatePaymasterUserOp testPaymaster testPaymaster.entryPoint sponsoredOp
      (getRequiredPrefund (memoryOf sponsoredOp)) (10 * 10 ^ 6) = .ok (encodeAccount 0x707, 0) := by
    decide +kernel
  have hprojected : getUsdcGasCostIfPaymaster testConfig fundedMachine.clock sponsoredOp =
      .ok 777000 := by
    decide +kernel
  obtain ⟨⟨projected, required, hcost, _, hcharges, hle, _⟩, _⟩ := gas_costs_ordered ownerEnv
    testConfig testPaymaster fundedMachine.clock fundedMachine.world sponsoredOp
    (memoryOf sponsoredOp) 0 0 0 _ _ _ _ rfl (by decide +kernel) (by decide +kernel) hcopy
    (by decide +kernel) haccount haccepted
  obtain rfl := Except.ok.inj (hcost.symm.trans hprojected)
  exact ⟨hcopy, required, hle, hcharges⟩

end BoundedSpending.GasCostOrder
