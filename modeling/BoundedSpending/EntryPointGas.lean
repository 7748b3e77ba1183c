import BoundedSpending.UserOperations

set_option autoImplicit false

/-!
# Gas accounting of EntryPoint.sol

Its arithmetic is unchecked. The values of an operation are below 2^120 and what a
`gasleft()` difference measures is below 2^64, so that nothing wraps.
-/
namespace BoundedSpending.EntryPointGas

open CheckedArithmetic UserOperations

def penaltyGasThreshold : ℕ := 40000
def unusedGasPenaltyPercent : ℕ := 10

def maxGasValue : ℕ := 2 ^ 120 - 1

def unusedGasPenalty (gasUsed gasLimit : ℕ) : ℕ :=
  if gasLimit ≤ uncheckedAdd gasUsed penaltyGasThreshold then 0
  else uncheckedMul (uncheckedSub gasLimit gasUsed) unusedGasPenaltyPercent / 100

def checkGasValues (opIndex : ℕ) (op : PackedUserOperation) : Except Revert Unit :=
  require (op.preVerificationGas ||| unpackVerificationGasLimit op ||| unpackCallGasLimit op |||
      unpackPaymasterVerificationGasLimit op ||| unpackPostOpGasLimit op |||
      unpackMaxFeePerGas op ||| unpackMaxPriorityFeePerGas op ≤ maxGasValue)
    (.failedOp opIndex "AA94 gas values overflow")

def requiredPrefund (op : PackedUserOperation) : ℕ :=
  uncheckedMul (uncheckedAdd (uncheckedAdd (uncheckedAdd (uncheckedAdd
    (unpackVerificationGasLimit op) (unpackCallGasLimit op))
    (unpackPaymasterVerificationGasLimit op)) (unpackPostOpGasLimit op)) op.preVerificationGas)
    (unpackMaxFeePerGas op)

/-- What the gas meter showed while one operation was processed: for its validation, for
    its callData, for the call of `postOp`, and for all of `_postExecution`. -/
structure GasUse where
  verificationGas : ℕ
  executionGas : ℕ
  postOpGas : ℕ
  postExecutionGas : ℕ
  verificationGas_lt : verificationGas < 2 ^ 64
  executionGas_lt : executionGas < 2 ^ 64
  postExecutionGas_lt : postExecutionGas < 2 ^ 64
  postOpGas_le : postOpGas ≤ postExecutionGas

def preOpGas (op : PackedUserOperation) (use : GasUse) : ℕ :=
  uncheckedAdd use.verificationGas op.preVerificationGas

def gasBeforePostOp (op : PackedUserOperation) (use : GasUse) : ℕ :=
  let actualGas := uncheckedAdd use.executionGas (preOpGas op use)
  uncheckedAdd actualGas
    (unusedGasPenalty (uncheckedSub actualGas (preOpGas op use)) (unpackCallGasLimit op))

/-- `_postExecution` of a sponsored operation, its call of `postOp` being a parameter.
    The second result is the cost that stays debited from the paymaster's deposit. -/
def postExecution {α : Type} (block : Block) (op : PackedUserOperation) (use : GasUse)
    (postOp : ℕ → Except Revert α) : Except Revert (α × ℕ) := do
  let actualGas := gasBeforePostOp op use
  let result ← postOp (uncheckedMul actualGas (gasPrice block op))
  let postOpUnusedGasPenalty := unusedGasPenalty use.postOpGas (unpackPostOpGasLimit op)
  let actualGas := uncheckedAdd actualGas
    (uncheckedAdd use.postExecutionGas postOpUnusedGasPenalty)
  let actualGasCost := uncheckedMul actualGas (gasPrice block op)
  require (actualGasCost ≤ requiredPrefund op) .innerRevertLowPrefund
  return (result, actualGasCost)

theorem unusedGasPenalty_eq {gasUsed gasLimit : ℕ} (hused : gasUsed < 2 ^ 64)
    (hlimit : gasLimit < 2 ^ 120) :
    unusedGasPenalty gasUsed gasLimit =
      if gasLimit ≤ gasUsed + penaltyGasThreshold then 0
      else (gasLimit - gasUsed) * unusedGasPenaltyPercent / 100 := by
  have hsum : uncheckedAdd gasUsed penaltyGasThreshold = gasUsed + penaltyGasThreshold :=
    uncheckedAdd_of_lt (by unfold penaltyGasThreshold wordSize; omega)
  rw [unusedGasPenalty, hsum]
  split_ifs with h
  · rfl
  · rw [uncheckedSub_of_le (by omega) (by unfold wordSize; omega)]
    have hmul : (gasLimit - gasUsed) * unusedGasPenaltyPercent < wordSize := by
      unfold unusedGasPenaltyPercent wordSize
      omega
    rw [uncheckedMul_of_lt hmul]

theorem unusedGasPenalty_lt {gasUsed gasLimit : ℕ} (hused : gasUsed < 2 ^ 64)
    (hlimit : gasLimit < 2 ^ 120) : unusedGasPenalty gasUsed gasLimit < 2 ^ 120 := by
  rw [unusedGasPenalty_eq hused hlimit]
  unfold unusedGasPenaltyPercent
  split_ifs <;> omega

theorem checkGasValues_eq_ok {opIndex : ℕ} {op : PackedUserOperation}
    (h : checkGasValues opIndex op = .ok ()) :
    op.preVerificationGas < 2 ^ 120 ∧ unpackVerificationGasLimit op < 2 ^ 120 ∧
      unpackCallGasLimit op < 2 ^ 120 ∧ unpackPaymasterVerificationGasLimit op < 2 ^ 120 ∧
      unpackPostOpGasLimit op < 2 ^ 120 ∧ unpackMaxFeePerGas op < 2 ^ 120 := by
  rw [checkGasValues, require_eq_ok] at h
  have hmax : maxGasValue < 2 ^ 120 := by decide
  have hall := h.trans_lt hmax
  have hfee := Nat.left_le_or.trans_lt hall
  have hpostOp := Nat.left_le_or.trans_lt hfee
  have hpaymaster := Nat.left_le_or.trans_lt hpostOp
  have hcall := Nat.left_le_or.trans_lt hpaymaster
  have hverification := Nat.left_le_or.trans_lt hcall
  exact ⟨Nat.left_le_or.trans_lt hverification, Nat.right_le_or.trans_lt hverification,
    Nat.right_le_or.trans_lt hcall, Nat.right_le_or.trans_lt hpaymaster,
    Nat.right_le_or.trans_lt hpostOp, Nat.right_le_or.trans_lt hfee⟩

theorem gasPrice_le (block : Block) (op : PackedUserOperation) :
    gasPrice block op ≤ unpackMaxFeePerGas op := Nat.min_le_left _ _

theorem requiredPrefund_eq {opIndex : ℕ} {op : PackedUserOperation}
    (h : checkGasValues opIndex op = .ok ()) :
    requiredPrefund op = gasLimits op * unpackMaxFeePerGas op := by
  obtain ⟨hpre, hver, hcall, hpm, hpost, hfee⟩ := checkGasValues_eq_ok h
  have hword : wordSize = 2 ^ 256 := rfl
  have hsum : gasLimits op < 2 ^ 123 := by
    unfold gasLimits
    omega
  have hmul : gasLimits op * unpackMaxFeePerGas op < wordSize := by
    calc
      _ < 2 ^ 123 * 2 ^ 120 := Nat.mul_lt_mul'' hsum hfee
      _ ≤ wordSize := by decide
  have hfirst : uncheckedAdd (unpackVerificationGasLimit op) (unpackCallGasLimit op) =
      unpackVerificationGasLimit op + unpackCallGasLimit op := uncheckedAdd_of_lt (by omega)
  have hgas : unpackVerificationGasLimit op + unpackCallGasLimit op +
      unpackPaymasterVerificationGasLimit op + unpackPostOpGasLimit op + op.preVerificationGas =
        gasLimits op := by
    unfold gasLimits
    omega
  rw [requiredPrefund, hfirst]
  simp (disch := omega) only [uncheckedAdd_of_lt]
  rw [hgas, uncheckedMul_of_lt hmul]

/-- Gas priced for `postOp`: all that was used before it, and the penalty on unused call gas. -/
def earlyGas (op : PackedUserOperation) (use : GasUse) : ℕ :=
  use.verificationGas + op.preVerificationGas + use.executionGas +
    unusedGasPenalty use.executionGas (unpackCallGasLimit op)

/-- Gas debited on top of that: `_postExecution` with `postOp` in it, and the penalty on
    unused postOp gas. -/
def lateGas (op : PackedUserOperation) (use : GasUse) : ℕ :=
  use.postExecutionGas + unusedGasPenalty use.postOpGas (unpackPostOpGasLimit op)

variable {opIndex : ℕ} {op : PackedUserOperation}

theorem gas_lt (h : checkGasValues opIndex op = .ok ()) (use : GasUse) :
    earlyGas op use < 2 ^ 122 ∧ lateGas op use < 2 ^ 121 := by
  obtain ⟨hpre, _, hcall, _, hpost, _⟩ := checkGasValues_eq_ok h
  have hver := use.verificationGas_lt
  have hexec := use.executionGas_lt
  have hafter := use.postExecutionGas_lt
  have hcallPenalty := unusedGasPenalty_lt hexec hcall
  have hpostPenalty := unusedGasPenalty_lt (use.postOpGas_le.trans_lt hafter) hpost
  unfold earlyGas lateGas
  omega

theorem gasBeforePostOp_eq (h : checkGasValues opIndex op = .ok ()) (use : GasUse) :
    gasBeforePostOp op use = earlyGas op use := by
  obtain ⟨hpre, _, hcall, _, _, _⟩ := checkGasValues_eq_ok h
  have hver := use.verificationGas_lt
  have hexec := use.executionGas_lt
  have hpenalty := unusedGasPenalty_lt hexec hcall
  have hword : wordSize = 2 ^ 256 := rfl
  have hpreOp : preOpGas op use = use.verificationGas + op.preVerificationGas :=
    uncheckedAdd_of_lt (by omega)
  have hactual : uncheckedAdd use.executionGas (preOpGas op use) =
      use.executionGas + preOpGas op use := uncheckedAdd_of_lt (by omega)
  have hused : uncheckedSub (use.executionGas + preOpGas op use) (preOpGas op use) =
      use.executionGas := by
    rw [uncheckedSub_of_le (by omega) (by omega), Nat.add_sub_cancel]
  simp only [gasBeforePostOp, hactual, hused]
  rw [uncheckedAdd_of_lt (by omega), hpreOp, earlyGas]
  omega

theorem postExecution_eq_ok {α : Type} (h : checkGasValues opIndex op = .ok ()) {block : Block}
    {use : GasUse} {postOp : ℕ → Except Revert α} {result : α} {debit : ℕ} :
    postExecution block op use postOp = .ok (result, debit) ↔
      postOp (earlyGas op use * gasPrice block op) = .ok result ∧
        debit = (earlyGas op use + lateGas op use) * gasPrice block op ∧
        debit ≤ requiredPrefund op := by
  obtain ⟨hearly, hlate⟩ := gas_lt h use
  have hprice : gasPrice block op < 2 ^ 120 :=
    (gasPrice_le block op).trans_lt (checkGasValues_eq_ok h).2.2.2.2.2
  have hword : wordSize = 2 ^ 256 := rfl
  have hpriced : ∀ gas, gas < 2 ^ 123 → uncheckedMul gas (gasPrice block op) =
      gas * gasPrice block op := by
    intro gas hgas
    apply uncheckedMul_of_lt
    calc
      _ < 2 ^ 123 * 2 ^ 120 := Nat.mul_lt_mul'' hgas hprice
      _ ≤ wordSize := by decide
  have hafter : uncheckedAdd use.postExecutionGas
      (unusedGasPenalty use.postOpGas (unpackPostOpGasLimit op)) = lateGas op use :=
    uncheckedAdd_of_lt (by unfold lateGas at hlate; omega)
  have htotal : uncheckedAdd (earlyGas op use) (lateGas op use) =
      earlyGas op use + lateGas op use := uncheckedAdd_of_lt (by omega)
  simp only [postExecution, bind_returns, require_eq_ok, pure_returns, Prod.mk.injEq,
    gasBeforePostOp_eq h, hafter, htotal, hpriced (earlyGas op use) (by omega),
    hpriced (earlyGas op use + lateGas op use) (by omega)]
  constructor
  · intro hrun
    obtain ⟨r, hr, _, hfunds, rfl, rfl⟩ := hrun
    exact ⟨hr, rfl, hfunds⟩
  · intro hrun
    obtain ⟨hr, hdebit, hfunds⟩ := hrun
    exact ⟨result, hr, (), hdebit ▸ hfunds, rfl, hdebit⟩

end BoundedSpending.EntryPointGas
