import BoundedSpending.SpendParser

set_option autoImplicit false

namespace BoundedSpending.CallDataDecoder

open CheckedArithmetic BigEndianWords SpendParser

def executeSelector : ℕ := 0xb61d27f6
def executeBatchSelector : ℕ := 0x34fcd5be

/-- The bound that solc puts on every offset and length it reads. -/
def maxOffset : ℕ := 2 ^ 64 - 1

def decodeBytes (data : Bytes) (offset : ℕ) : Except Revert Bytes := do
  require (offset + 32 ≤ data.length) .abiDecoding
  require (loadWord data offset ≤ maxOffset) .abiDecoding
  require (offset + 32 + loadWord data offset ≤ data.length) .abiDecoding
  return (data.drop (offset + 32)).take (loadWord data offset)

/-- A tuple `(address, uint256, bytes)` whose head starts at `head`. -/
def decodeCall (data : Bytes) (head : ℕ) : Except Revert Call := do
  require (head + 96 ≤ data.length) .abiDecoding
  require (loadWord data head < 2 ^ 160) .abiDecoding
  require (loadWord data (head + 64) ≤ maxOffset) .abiDecoding
  let payload ← decodeBytes data (head + loadWord data (head + 64))
  return ⟨loadWord data head, loadWord data (head + 32), payload⟩

/-- Element `i` of a `Call[]` whose elements start at `base`. -/
def decodeElement (data : Bytes) (base i : ℕ) : Except Revert Call := do
  require (loadWord data (base + 32 * i) ≤ maxOffset) .abiDecoding
  decodeCall data (base + loadWord data (base + 32 * i))

/-- `abi.decode(data, (Call[]))` -/
def decodeCalls (data : Bytes) : Except Revert (List Call) := do
  require (32 ≤ data.length) .abiDecoding
  let offset := loadWord data 0
  require (offset ≤ maxOffset) .abiDecoding
  require (offset + 32 ≤ data.length) .abiDecoding
  let length := loadWord data offset
  require (length ≤ maxOffset) .abiDecoding
  require (offset + 32 + 32 * length ≤ data.length) .abiDecoding
  (List.range length).mapM (decodeElement data (offset + 32))

inductive SpendCall where
  | execute (call : Call)
  | executeBatch (calls : List Call)
  deriving DecidableEq, Repr

def SpendCall.calls : SpendCall → List Call
  | .execute call => [call]
  | .executeBatch calls => calls

def selectorOf (callData : Bytes) : ℕ := value (callData.take 4)

/-- Calls to any other function are refused by the preflight. -/
def decodeSpendCall (callData : Bytes) : Except Revert SpendCall :=
  if selectorOf callData = executeSelector then do
    return .execute (← decodeCall (callData.drop 4) 0)
  else if selectorOf callData = executeBatchSelector then do
    return .executeBatch (← decodeCalls (callData.drop 4))
  else .error .invalidTargetOrSelector

/-- The loop that `_parseSpendAmountsFromCallData` and `executeBatch` both run. -/
def totalSpend : List Call → ℕ → ℕ → Except Revert (ℕ × ℕ)
  | [], eth, usdc => .ok (eth, usdc)
  | call :: calls, eth, usdc => do
    let (ethAmount, usdcAmount) ← parseSpendAmounts call.target call.value call.data
    let eth ← add eth ethAmount
    let usdc ← add usdc usdcAmount
    totalSpend calls eth usdc

def SpendCall.spend : SpendCall → Except Revert (ℕ × ℕ)
  | .execute call => parseSpendAmounts call.target call.value call.data
  | .executeBatch calls => totalSpend calls 0 0

def parseSpendAmountsFromCallData (callData : Bytes) : Except Revert (ℕ × ℕ) :=
  if callData.length < 4 then .ok (0, 0)
  else do
    let call ← decodeSpendCall callData
    call.spend

def ethSum (calls : List Call) : ℕ := (calls.map Call.value).sum

def Payments (calls : List Call) : Prop := ∀ call ∈ calls, call.target ≠ usdc ∧ 0 < call.value

theorem totalSpend_eq_ok {calls : List Call} {eth usdc ethTotal usdcTotal : ℕ}
    (h : totalSpend calls eth usdc = .ok (ethTotal, usdcTotal)) :
    Payments calls ∧ ethTotal = eth + ethSum calls ∧ usdcTotal = usdc := by
  induction calls generalizing eth usdc with
  | nil =>
    simp only [totalSpend, Except.ok.injEq, Prod.mk.injEq] at h
    refine ⟨fun _ hmem => (nomatch hmem), ?_, h.2.symm⟩
    simp only [ethSum, List.map_nil, List.sum_nil]
    exact h.1.symm
  | cons call calls ih =>
    simp only [totalSpend, bind_returns, Prod.exists, parseSpendAmounts_eq_ok, add_eq_ok] at h
    obtain ⟨e, u, ⟨htarget, hpos, rfl, rfl⟩, _, ⟨_, rfl⟩, _, ⟨_, rfl⟩, hrest⟩ := h
    obtain ⟨hpay, heth, husdc⟩ := ih hrest
    refine ⟨?_, ?_, husdc⟩
    · intro c hc
      rcases List.mem_cons.mp hc with rfl | hc
      · exact ⟨htarget, hpos⟩
      · exact hpay c hc
    · simp only [ethSum, List.map_cons, List.sum_cons] at heth ⊢
      omega

theorem SpendCall.spend_eq_ok {call : SpendCall} {eth usdcAmount : ℕ}
    (h : call.spend = .ok (eth, usdcAmount)) :
    Payments call.calls ∧ eth = ethSum call.calls ∧ usdcAmount = 0 := by
  cases call with
  | execute call =>
    obtain ⟨htarget, hpos, rfl, rfl⟩ := parseSpendAmounts_eq_ok.mp h
    refine ⟨?_, ?_, rfl⟩
    · intro c hc
      rw [List.mem_singleton.mp hc]
      exact ⟨htarget, hpos⟩
    · simp [SpendCall.calls, ethSum]
  | executeBatch calls =>
    obtain ⟨hpay, heth, husdc⟩ := totalSpend_eq_ok h
    exact ⟨hpay, by rw [heth, Nat.zero_add]; rfl, husdc⟩

def padding (data : Bytes) : Bytes := List.replicate ((32 - data.length % 32) % 32) 0

/-- `abi.encode(target, value, data)` -/
def encodeCall (call : Call) : Bytes :=
  encode 32 call.target ++ encode 32 call.value ++ encode 32 96 ++ encode 32 call.data.length ++
    (call.data ++ padding call.data)

def encodeExecute (call : Call) : Bytes := encode 4 executeSelector ++ encodeCall call

theorem encodeCall_words {call : Call} (ht : call.target < 2 ^ 160) (hv : call.value < 2 ^ 256)
    (hl : call.data.length ≤ maxOffset) :
    loadWord (encodeCall call) 0 = call.target ∧ loadWord (encodeCall call) 32 = call.value ∧
      loadWord (encodeCall call) 64 = 96 ∧ loadWord (encodeCall call) 96 = call.data.length := by
  have hword : ∀ before after n offset, n < 2 ^ 256 → offset = before.length →
      encodeCall call = before ++ encode 32 n ++ after → loadWord (encodeCall call) offset = n := by
    intro before after n offset hn hoffset hsplit
    rw [hsplit, hoffset]
    exact loadWord_encode before after hn
  have hlength : call.data.length < 2 ^ 256 := by
    unfold maxOffset at hl
    omega
  refine ⟨?_, ?_, ?_, ?_⟩
  · exact hword [] (encode 32 call.value ++ encode 32 96 ++ encode 32 call.data.length ++
      (call.data ++ padding call.data))
      call.target 0 (ht.trans (by decide)) List.length_nil.symm
      (by simp only [encodeCall, List.nil_append, List.append_assoc])
  · exact hword (encode 32 call.target) (encode 32 96 ++ encode 32 call.data.length ++
      (call.data ++ padding call.data))
      call.value 32 hv (encode_length 32 _).symm (by simp only [encodeCall, List.append_assoc])
  · exact hword (encode 32 call.target ++ encode 32 call.value)
      (encode 32 call.data.length ++
      (call.data ++ padding call.data)) 96 64 (by decide) (by simp)
      (by simp only [encodeCall, List.append_assoc])
  · exact hword (encode 32 call.target ++ encode 32 call.value ++ encode 32 96)
      (call.data ++ padding call.data)
      call.data.length 96 hlength (by simp) rfl

theorem decodeCall_encodeCall {call : Call} (ht : call.target < 2 ^ 160)
    (hv : call.value < 2 ^ 256) (hl : call.data.length ≤ maxOffset) :
    decodeCall (encodeCall call) 0 = .ok call := by
  obtain ⟨htarget, hvalue, hoffset, hlength⟩ := encodeCall_words ht hv hl
  have hsize : (encodeCall call).length = 128 + call.data.length + (padding call.data).length := by
    simp only [encodeCall, List.length_append, encode_length]
    omega
  have hpayload : ((encodeCall call).drop 128).take call.data.length = call.data := by
    have hhead : (encode 32 call.target ++ encode 32 call.value ++ encode 32 96 ++
        encode 32 call.data.length).length = 128 := by simp
    rw [encodeCall, List.drop_append_of_le_length (by omega), List.drop_eq_nil_of_le (by omega),
      List.nil_append, List.take_left]
  have hbytes : decodeBytes (encodeCall call) 96 = .ok call.data := by
    simp only [decodeBytes, bind_returns, require_eq_ok, pure_returns, hlength, hsize]
    exact ⟨(), by omega, (), hl, (), by omega, hpayload.symm⟩
  simp only [decodeCall, bind_returns, require_eq_ok, pure_returns, Nat.zero_add, htarget, hvalue,
    hoffset, hsize]
  exact ⟨(), by omega, (), ht, (), by decide, call.data, hbytes, rfl⟩

theorem decodeSpendCall_encodeExecute {call : Call} (ht : call.target < 2 ^ 160)
    (hv : call.value < 2 ^ 256) (hl : call.data.length ≤ maxOffset) :
    decodeSpendCall (encodeExecute call) = .ok (.execute call) := by
  have hselector : selectorOf (encodeExecute call) = executeSelector := by
    rw [selectorOf, encodeExecute, List.take_left' (encode_length 4 _)]
    exact value_encode_of_lt (by decide)
  have hargs : (encodeExecute call).drop 4 = encodeCall call := by
    rw [encodeExecute, List.drop_left' (encode_length 4 _)]
  rw [decodeSpendCall, if_pos hselector, hargs, decodeCall_encodeCall ht hv hl]
  rfl

end BoundedSpending.CallDataDecoder
