import BoundedSpending.AccountState

set_option autoImplicit false

/-!
# `_parseSpendAmounts` and `_slice`

A `bytes4` sits left-aligned in its word: the high four bytes are the value and
the rest is zero.
-/
namespace BoundedSpending.SpendParser

open CheckedArithmetic BigEndianWords

def transferSelector : ℕ := 0xa9059cbb

def bytes4 (selector : ℕ) : ℕ := selector * 2 ^ 224

def sameBytes4 (a b : ℕ) : Bool := a / 2 ^ 224 == b / 2 ^ 224

/-- A `bytes memory` value from its pointer on: the length word, the contents
    and whatever memory holds behind them. -/
def bytesInMemory (data beyond : Bytes) : Bytes := encode 32 data.length ++ data ++ beyond

/-- `shr(224, mload(add(data, 0x24)))` -/
def assemblySelector (data beyond : Bytes) : ℕ :=
  loadWord (bytesInMemory data beyond) 0x24 / 2 ^ 224

def slice (data : Bytes) (start : ℕ) : Bytes :=
  (List.range (data.length - start)).map fun i => data.getD (start + i) 0

def decodeAddressUint (data : Bytes) : Except Revert (Address × ℕ) := do
  require (64 ≤ data.length) .abiDecoding
  require (loadWord data 0 < 2 ^ 160) .abiDecoding
  return (loadWord data 0, loadWord data 32)

def parseUsdcCall (beyond data : Bytes) : Except Revert (ℕ × ℕ) := do
  require (4 ≤ data.length) .invalidSelector
  require (sameBytes4 (assemblySelector data beyond) (bytes4 transferSelector)) .invalidSelector
  require (68 ≤ data.length) .invalidSelector
  let (_, amount) ← decodeAddressUint (slice data 4)
  return (0, amount)

def parseSpendAmountsIn (beyond : Bytes) (target : Address) (value : ℕ) (data : Bytes) :
    Except Revert (ℕ × ℕ) :=
  if target = usdc then
    if 0 < value then .error .invalidTargetOrSelector else parseUsdcCall beyond data
  else if value = 0 then .error .invalidTargetOrSelector else .ok (value, 0)

def parseSpendAmounts (target : Address) (value : ℕ) (data : Bytes) : Except Revert (ℕ × ℕ) :=
  parseSpendAmountsIn [] target value data

theorem assemblySelector_lt (data beyond : Bytes) : assemblySelector data beyond < 2 ^ 32 := by
  have h := loadWord_lt (bytesInMemory data beyond) 0x24
  unfold assemblySelector
  omega

/-- The assembly leaves its four bytes right-aligned, where no selector constant
    has any, so the comparison fails on every input. -/
theorem assemblySelector_misaligned (data beyond : Bytes) :
    sameBytes4 (assemblySelector data beyond) (bytes4 transferSelector) = false := by
  have h := assemblySelector_lt data beyond
  have hz : assemblySelector data beyond / 2 ^ 224 = 0 := Nat.div_eq_of_lt (by omega)
  have hs : bytes4 transferSelector / 2 ^ 224 = transferSelector :=
    Nat.mul_div_cancel _ (by norm_num)
  rw [sameBytes4, hz, hs]
  rfl

theorem parseUsdcCall_eq (beyond data : Bytes) :
    parseUsdcCall beyond data = .error .invalidSelector := by
  by_cases h : 4 ≤ data.length
  · simp [parseUsdcCall, require, h, assemblySelector_misaligned, bind, Except.bind]
  · simp [parseUsdcCall, require, h, bind, Except.bind]

theorem parseSpendAmountsIn_eq_ok {beyond : Bytes} {target : Address} {value : ℕ} {data : Bytes}
    {eth usdcAmount : ℕ} :
    parseSpendAmountsIn beyond target value data = .ok (eth, usdcAmount) ↔
      target ≠ usdc ∧ 0 < value ∧ eth = value ∧ usdcAmount = 0 := by
  unfold parseSpendAmountsIn
  split_ifs with htarget hpos hzero
  · simp [htarget]
  · simp [htarget, parseUsdcCall_eq]
  · simp [hzero]
  · simp only [Except.ok.injEq, Prod.mk.injEq]
    have hpos : 0 < value := Nat.pos_of_ne_zero hzero
    constructor
    · intro h
      exact ⟨htarget, hpos, h.1.symm, h.2.symm⟩
    · intro h
      exact ⟨h.2.2.1.symm, h.2.2.2.symm⟩

theorem parseSpendAmounts_eq_ok {target : Address} {value : ℕ} {data : Bytes}
    {eth usdcAmount : ℕ} :
    parseSpendAmounts target value data = .ok (eth, usdcAmount) ↔
      target ≠ usdc ∧ 0 < value ∧ eth = value ∧ usdcAmount = 0 :=
  parseSpendAmountsIn_eq_ok

theorem slice_eq_drop (data : Bytes) (start : ℕ) : slice data start = data.drop start := by
  apply List.ext_getElem
  · simp [slice]
  · intro i hi _
    have hb : start + i < data.length := by simp [slice] at hi; omega
    simp [slice, List.getD_eq_getElem?_getD, List.getElem?_eq_getElem hb]

end BoundedSpending.SpendParser
