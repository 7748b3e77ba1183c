import BoundedSpending.AccountState

set_option autoImplicit false

namespace BoundedSpending.UserOperations

open CheckedArithmetic BigEndianWords

structure PackedUserOperation where
  sender : Address
  nonce : ℕ
  initCode : Bytes
  callData : Bytes
  accountGasLimits : ℕ
  preVerificationGas : ℕ
  gasFees : ℕ
  paymasterAndData : Bytes
  signature : Bytes
  sender_lt : sender < 2 ^ 160
  deriving DecidableEq, Repr

def unpackHigh128 (packed : ℕ) : ℕ := packed / 2 ^ 128
def unpackLow128 (packed : ℕ) : ℕ := packed % 2 ^ 128

def unpackMaxPriorityFeePerGas (op : PackedUserOperation) : ℕ := unpackHigh128 op.gasFees
def unpackMaxFeePerGas (op : PackedUserOperation) : ℕ := unpackLow128 op.gasFees
def unpackVerificationGasLimit (op : PackedUserOperation) : ℕ := unpackHigh128 op.accountGasLimits
def unpackCallGasLimit (op : PackedUserOperation) : ℕ := unpackLow128 op.accountGasLimits

/-- `address(bytes20(paymasterAndData[:20]))` -/
def paymasterOf (op : PackedUserOperation) : Address := value (window op.paymasterAndData 0 20)

def unpackPaymasterVerificationGasLimit (op : PackedUserOperation) : ℕ :=
  value (window op.paymasterAndData 20 16)

def unpackPostOpGasLimit (op : PackedUserOperation) : ℕ :=
  value (window op.paymasterAndData 36 16)

/-- `min(maxFeePerGas, maxPriorityFeePerGas + block.basefee)`, the sum unchecked. -/
def gasPrice (block : Block) (op : PackedUserOperation) : ℕ :=
  min (unpackMaxFeePerGas op) ((unpackMaxPriorityFeePerGas op + block.basefee) % wordSize)

/-- An ETH cost with the premium on it, in USDC. The account's projection and
    both functions of the paymaster compute it by the same two lines. -/
def costInUsdc (usdcPerEth costEth : ℕ) : Except Revert ℕ := do
  let premium ← mul costEth premiumBps
  let costWithPremium ← add costEth (premium / 10000)
  let scaled ← mul costWithPremium usdcPerEth
  return scaled / ether

def requiredGas (op : PackedUserOperation) : Except Revert ℕ := do
  let gas ← add op.preVerificationGas (unpackVerificationGasLimit op)
  let gas ← add gas (unpackCallGasLimit op)
  let gas ← add gas (unpackPaymasterVerificationGasLimit op)
  add gas (unpackPostOpGasLimit op)

def getUsdcGasCostIfPaymaster (cfg : Config) (block : Block) (op : PackedUserOperation) :
    Except Revert ℕ :=
  if op.paymasterAndData.length < paymasterDataOffset then .ok 0
  else if paymasterOf op ≠ cfg.paymasterAddress then .ok 0
  else do
    let gas ← requiredGas op
    let maxCostEth ← mul gas (gasPrice block op)
    costInUsdc cfg.usdcPerEth maxCostEth

def gasLimits (op : PackedUserOperation) : ℕ :=
  op.preVerificationGas + unpackVerificationGasLimit op + unpackCallGasLimit op +
    unpackPaymasterVerificationGasLimit op + unpackPostOpGasLimit op

def withPremium (costEth : ℕ) : ℕ := costEth + costEth * premiumBps / 10000

def CostFits (usdcPerEth costEth : ℕ) : Prop :=
  costEth * premiumBps < wordSize ∧ withPremium costEth < wordSize ∧
    withPremium costEth * usdcPerEth < wordSize

theorem costInUsdc_eq_ok {usdcPerEth costEth cost : ℕ} :
    costInUsdc usdcPerEth costEth = .ok cost ↔
      CostFits usdcPerEth costEth ∧ cost = withPremium costEth * usdcPerEth / ether := by
  simp only [costInUsdc, bind_returns, mul_eq_ok, add_eq_ok, pure_returns, CostFits, withPremium]
  constructor
  · rintro ⟨_, ⟨h₁, rfl⟩, _, ⟨h₂, rfl⟩, _, ⟨h₃, rfl⟩, rfl⟩
    exact ⟨⟨h₁, h₂, h₃⟩, rfl⟩
  · rintro ⟨⟨h₁, h₂, h₃⟩, rfl⟩
    exact ⟨_, ⟨h₁, rfl⟩, _, ⟨h₂, rfl⟩, _, ⟨h₃, rfl⟩, rfl⟩

theorem withPremium_mono {a b : ℕ} (h : a ≤ b) : withPremium a ≤ withPremium b :=
  Nat.add_le_add h (Nat.div_le_div_right (Nat.mul_le_mul_right _ h))

theorem CostFits.mono {usdcPerEth a b : ℕ} (h : a ≤ b) (hb : CostFits usdcPerEth b) :
    CostFits usdcPerEth a := by
  have hp := withPremium_mono h
  exact ⟨(Nat.mul_le_mul_right _ h).trans_lt hb.1, hp.trans_lt hb.2.1,
    (Nat.mul_le_mul_right _ hp).trans_lt hb.2.2⟩

theorem requiredGas_eq_ok {op : PackedUserOperation} {gas : ℕ} (h : requiredGas op = .ok gas) :
    gas = gasLimits op := by
  simp only [requiredGas, bind_returns, add_eq_ok] at h
  obtain ⟨_, ⟨_, rfl⟩, _, ⟨_, rfl⟩, _, ⟨_, rfl⟩, _, rfl⟩ := h
  rfl

theorem getUsdcGasCostIfPaymaster_eq_ok {cfg : Config} {block : Block}
    {op : PackedUserOperation} {cost : ℕ}
    (hlength : paymasterDataOffset ≤ op.paymasterAndData.length)
    (hpaymaster : paymasterOf op = cfg.paymasterAddress)
    (h : getUsdcGasCostIfPaymaster cfg block op = .ok cost) :
    requiredGas op = .ok (gasLimits op) ∧
      CostFits cfg.usdcPerEth (gasLimits op * gasPrice block op) ∧
      cost = withPremium (gasLimits op * gasPrice block op) * cfg.usdcPerEth / ether := by
  have hlt : ¬ op.paymasterAndData.length < paymasterDataOffset := by omega
  simp only [getUsdcGasCostIfPaymaster, hlt, hpaymaster, ne_eq, not_true_eq_false, if_false,
    bind_returns, mul_eq_ok, costInUsdc_eq_ok] at h
  obtain ⟨gas, hgas, _, ⟨_, rfl⟩, hfits, hcost⟩ := h
  have hlimits := requiredGas_eq_ok hgas
  rw [hlimits] at hgas hfits hcost
  exact ⟨hgas, hfits, hcost⟩

theorem getUsdcGasCostIfPaymaster_unsponsored {cfg : Config} {block : Block}
    {op : PackedUserOperation} (h : op.paymasterAndData = []) :
    getUsdcGasCostIfPaymaster cfg block op = .ok 0 := by
  rw [getUsdcGasCostIfPaymaster, if_pos]
  rw [h]
  decide

def encodePaymasterData (paymaster : Address) (verificationGasLimit postOpGasLimit : ℕ) : Bytes :=
  encode 20 paymaster ++ encode 16 verificationGasLimit ++ encode 16 postOpGasLimit

theorem testSender_lt : 0x707 < 2 ^ 160 := by decide

def testOp (sender nonce : ℕ) (callData paymasterAndData : Bytes) (h : sender < 2 ^ 160) :
    PackedUserOperation where
  sender := sender
  nonce := nonce
  initCode := []
  callData := callData
  accountGasLimits := 100000 * 2 ^ 128 + 60000
  preVerificationGas := 50000
  gasFees := 10 ^ 9 * 2 ^ 128 + 10 ^ 9
  paymasterAndData := paymasterAndData
  signature := []
  sender_lt := h

end BoundedSpending.UserOperations
