import BoundedSpending.EntryPointState

set_option autoImplicit false

/-!
# What the owner signs

UserOperationLib.encode, the EIP-7702 override of the init code's hash, and the typed
data hash on top. The hash function is a parameter: the chain's keccak-256.
-/
namespace BoundedSpending.UserOpHash

open CheckedArithmetic BigEndianWords UserOperations EntryPointState OpenZeppelin

def packedUserOpType : String :=
  "PackedUserOperation(address sender,uint256 nonce,bytes initCode,bytes callData," ++
  "bytes32 accountGasLimits,uint256 preVerificationGas,bytes32 gasFees,bytes paymasterAndData)"

def asciiBytes (s : String) : Bytes := s.toList.map fun c => UInt8.ofNat c.toNat

def packedUserOpTypehash (keccak : Bytes → ℕ) : ℕ := keccak (asciiBytes packedUserOpType)

/-- The words of `encode`, the override taking the place of a hash unless it is 0. -/
def userOpWords (keccak : Bytes → ℕ) (op : PackedUserOperation) (overrideInitCodeHash : ℕ) :
    List ℕ :=
  let hashInitCode :=
    if overrideInitCodeHash ≠ 0 then overrideInitCodeHash else keccak op.initCode
  [packedUserOpTypehash keccak, op.sender, op.nonce, hashInitCode, keccak op.callData,
    op.accountGasLimits, op.preVerificationGas, op.gasFees, keccak op.paymasterAndData]

def encodeUserOp (keccak : Bytes → ℕ) (op : PackedUserOperation) (overrideInitCodeHash : ℕ) :
    Bytes :=
  encodeWords (userOpWords keccak op overrideInitCodeHash)

def initCodeEip7702Marker : ℕ := 0x7702

def isEip7702InitCode (initCode : Bytes) : Bool :=
  -- what lies behind a short init code reads as the zeros that pad it
  decide (2 ≤ initCode.length ∧ value (window initCode 0 20) = initCodeEip7702Marker * 256 ^ 18)

def getEip7702Delegate (code : Address → Code) (sender : Address) : Except Failure Address :=
  match code sender with
  | .delegation delegate => .ok delegate
  | .contract => .error (.reverted (.errorString "not an EIP-7702 delegate"))
  | .empty => .error (.reverted (.errorString "sender has no code"))

def getEip7702InitCodeHashOverride (keccak : Bytes → ℕ) (code : Address → Code)
    (op : PackedUserOperation) : Except Failure ℕ :=
  if isEip7702InitCode op.initCode then do
    let delegate ← getEip7702Delegate code op.sender
    return keccak (encode 20 delegate ++ op.initCode.drop 20)
  else .ok 0

def hashWith {keccak : Bytes → ℕ} (utils : MessageHashUtils keccak) (domainSeparator : ℕ)
    (op : PackedUserOperation) (overrideInitCodeHash : ℕ) : ℕ :=
  utils.toTypedDataHash domainSeparator (keccak (encodeUserOp keccak op overrideInitCodeHash))

def getUserOpHash {keccak : Bytes → ℕ} (utils : MessageHashUtils keccak) (domainSeparator : ℕ)
    (code : Address → Code) (op : PackedUserOperation) : Except Failure ℕ := do
  let overrideInitCodeHash ← getEip7702InitCodeHashOverride keccak code op
  return hashWith utils domainSeparator op overrideInitCodeHash

/-- The hash of an operation whose init code has no EIP-7702 marker. -/
def userOpHash {keccak : Bytes → ℕ} (utils : MessageHashUtils keccak) (domainSeparator : ℕ)
    (op : PackedUserOperation) : ℕ :=
  hashWith utils domainSeparator op 0

theorem lookup_lt {table : List (Bytes × ℕ)} (hall : ∀ e ∈ table, e.2 < wordSize)
    (message : Bytes) : (table.lookup message).getD 0 < wordSize := by
  cases hlookup : table.lookup message with
  | none => exact Nat.two_pow_pos 256
  | some hash =>
    obtain ⟨before, after, hsplit, _⟩ := List.lookup_eq_some_iff.mp hlookup
    apply hall (message, hash)
    rw [hsplit]
    exact List.mem_append_right _ List.mem_cons_self

def initCodeMessage (keccak : Bytes → ℕ) (code : Address → Code) (op : PackedUserOperation) :
    Except Failure Bytes :=
  if isEip7702InitCode op.initCode then do
    let delegate ← getEip7702Delegate code op.sender
    let message := encode 20 delegate ++ op.initCode.drop 20
    -- an override of 0 counts as none
    return if keccak message ≠ 0 then message else op.initCode
  else .ok op.initCode

def structMessage (keccak : Bytes → ℕ) (op : PackedUserOperation) (message : Bytes) : Bytes :=
  encodeWords [packedUserOpTypehash keccak, op.sender, op.nonce, keccak message,
    keccak op.callData, op.accountGasLimits, op.preVerificationGas, op.gasFees,
    keccak op.paymasterAndData]

def topMessage (keccak : Bytes → ℕ) (domainSeparator : ℕ) (op : PackedUserOperation)
    (message : Bytes) : Bytes :=
  typedDataMessage domainSeparator (keccak (structMessage keccak op message))

def hashedMessages (keccak : Bytes → ℕ) (domainSeparator : ℕ) (op : PackedUserOperation)
    (message : Bytes) : List Bytes :=
  [message, op.callData, op.paymasterAndData, structMessage keccak op message,
    topMessage keccak domainSeparator op message]

structure SameContent (op op' : PackedUserOperation) : Prop where
  sender : op.sender = op'.sender
  nonce : op.nonce ≡ op'.nonce [MOD wordSize]
  callData : op.callData = op'.callData
  accountGasLimits : op.accountGasLimits ≡ op'.accountGasLimits [MOD wordSize]
  preVerificationGas : op.preVerificationGas ≡ op'.preVerificationGas [MOD wordSize]
  gasFees : op.gasFees ≡ op'.gasFees [MOD wordSize]
  paymasterAndData : op.paymasterAndData = op'.paymasterAndData

section Binding

variable {keccak : Bytes → ℕ} {utils : MessageHashUtils keccak}
  {domainSeparator domainSeparator' hash : ℕ}
  {code : Address → Code} {op op' : PackedUserOperation} {message message' : Bytes}
  {messages : List Bytes}

theorem hashWith_eq {overrideInitCodeHash : ℕ}
    (h : (if overrideInitCodeHash ≠ 0 then overrideInitCodeHash else keccak op.initCode) =
      keccak message) :
    hashWith utils domainSeparator op overrideInitCodeHash =
      keccak (topMessage keccak domainSeparator op message) := by
  simp only [hashWith, utils.toTypedDataHash_eq, encodeUserOp, userOpWords, h, topMessage,
    structMessage]

theorem getUserOpHash_eq (h : initCodeMessage keccak code op = .ok message) :
    getUserOpHash utils domainSeparator code op =
      .ok (keccak (topMessage keccak domainSeparator op message)) := by
  have hoverride : ∃ overrideInitCodeHash,
      getEip7702InitCodeHashOverride keccak code op = .ok overrideInitCodeHash ∧
      (if overrideInitCodeHash ≠ 0 then overrideInitCodeHash else keccak op.initCode) =
        keccak message := by
    unfold initCodeMessage at h
    unfold getEip7702InitCodeHashOverride
    split_ifs at h ⊢ with hmarked
    · obtain ⟨delegate, hdelegate, hmessage⟩ := bind_returns.mp h
      refine ⟨_, bind_returns.mpr ⟨delegate, hdelegate, rfl⟩, ?_⟩
      rw [pure_returns.mp hmessage]
      exact (apply_ite keccak _ _ _).symm
    · obtain rfl := Except.ok.inj h
      exact ⟨0, rfl, rfl⟩
  obtain ⟨overrideInitCodeHash, hok, hmessage⟩ := hoverride
  rw [getUserOpHash, hok]
  exact congrArg Except.ok (hashWith_eq hmessage)

theorem userOpHash_eq : userOpHash utils domainSeparator op =
    keccak (topMessage keccak domainSeparator op op.initCode) := hashWith_eq rfl

theorem words_eq {n m : ℕ} (hn : n < wordSize) (hm : m < wordSize) (h : n ≡ m [MOD wordSize]) :
    n = m := h.eq_of_lt_of_lt hn hm

theorem structMessage_binds (hword : ∀ message, keccak message < wordSize)
    (hmem : hashedMessages keccak domainSeparator op message ⊆ messages)
    (hmem' : hashedMessages keccak domainSeparator' op' message' ⊆ messages)
    (hfree : Set.InjOn keccak {message | message ∈ messages})
    (h : structMessage keccak op message = structMessage keccak op' message') :
    SameContent op op' ∧ message = message' := by
  have hwords := encodeWords_modEq h (by simp only [List.length_cons])
  simp only [List.forall₂_cons] at hwords
  obtain ⟨_, hsender, hnonce, hmessage, hcallData, haccountGasLimits, hpreVerificationGas, hgasFees,
    hpaymasterAndData, _⟩ := hwords
  have heq : ∀ {bytes bytes' : Bytes},
      bytes ∈ hashedMessages keccak domainSeparator op message →
      bytes' ∈ hashedMessages keccak domainSeparator' op' message' →
      keccak bytes ≡ keccak bytes' [MOD wordSize] → bytes = bytes' := by
    intro bytes bytes' hbytes hbytes' hhash
    exact hfree (hmem hbytes) (hmem' hbytes') (words_eq (hword bytes) (hword bytes') hhash)
  refine ⟨⟨?_, hnonce, ?_, haccountGasLimits, hpreVerificationGas, hgasFees, ?_⟩, ?_⟩
  · exact words_eq (op.sender_lt.trans (by decide))
      (op'.sender_lt.trans (by decide)) hsender
  · exact heq (by simp [hashedMessages]) (by simp [hashedMessages]) hcallData
  · exact heq (by simp [hashedMessages]) (by simp [hashedMessages]) hpaymasterAndData
  · exact heq (by simp [hashedMessages]) (by simp [hashedMessages]) hmessage

theorem topMessage_binds (hword : ∀ message, keccak message < wordSize)
    (hmem : hashedMessages keccak domainSeparator op message ⊆ messages)
    (hmem' : hashedMessages keccak domainSeparator' op' message' ⊆ messages)
    (hfree : Set.InjOn keccak {message | message ∈ messages})
    (h : keccak (topMessage keccak domainSeparator op message) =
      keccak (topMessage keccak domainSeparator' op' message')) :
    SameContent op op' ∧ message = message' ∧
      domainSeparator ≡ domainSeparator' [MOD wordSize] := by
  have htop := hfree (hmem (by simp [hashedMessages])) (hmem' (by simp [hashedMessages])) h
  have htail : encodeWords [domainSeparator, keccak (structMessage keccak op message)] =
      encodeWords [domainSeparator', keccak (structMessage keccak op' message')] :=
    List.append_cancel_left htop
  have hwords := encodeWords_modEq htail (by simp only [List.length_cons])
  simp only [List.forall₂_cons] at hwords
  obtain ⟨hdomain, hstruct, _⟩ := hwords
  have hmessages := hfree (hmem (by simp [hashedMessages])) (hmem' (by simp [hashedMessages]))
    (words_eq (hword _) (hword _) hstruct)
  obtain ⟨hsame, hmessage⟩ := structMessage_binds hword hmem hmem' hfree hmessages
  exact ⟨hsame, hmessage, hdomain⟩

end Binding

end BoundedSpending.UserOpHash
