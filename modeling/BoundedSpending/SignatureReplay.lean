import BoundedSpending.AuthorisedOperations

set_option autoImplicit false

namespace BoundedSpending.SignatureReplay

open CheckedArithmetic BigEndianWords UserOperations NestedCalls OrderedLogs
open EntryPointState StakeManager UserOpHash BundleHandler EntryPointMachine EntryPointEffects
open EntryPointRules EntryPointSolvency SettledOperations NonceOrder SealedEvents
open AuthorisedOperations OpenZeppelin

section Binding

variable {keccak : Bytes → ℕ} {utils utils' : MessageHashUtils keccak}
  {domainSeparator domainSeparator' : ℕ} {code code' : Address → Code}
  {op op' : PackedUserOperation} {message message' : Bytes}

/-- What is hashed for two operations, of one chain or of two, being free of collisions, the
    same hash means the same operation under the same domain, up to the signature. -/
theorem getUserOpHash_binds (hword : ∀ message, keccak message < wordSize)
    (hmessage : initCodeMessage keccak code op = .ok message)
    (hmessage' : initCodeMessage keccak code' op' = .ok message')
    (hfree : Set.InjOn keccak {bytes | bytes ∈ hashedMessages keccak domainSeparator op message ++
      hashedMessages keccak domainSeparator' op' message'})
    (h : getUserOpHash utils domainSeparator code op =
      getUserOpHash utils' domainSeparator' code' op') :
    SameContent op op' ∧ message = message' ∧
      domainSeparator ≡ domainSeparator' [MOD wordSize] := by
  rw [getUserOpHash_eq hmessage, getUserOpHash_eq hmessage'] at h
  exact topMessage_binds hword (List.subset_append_left _ _) (List.subset_append_right _ _) hfree
    (Except.ok.inj h)

end Binding

theorem testKeccak_lt (message : Bytes) : testKeccak message < wordSize := by
  apply lookup_lt
  decide +kernel

theorem getUserOpHash_binds_resigned : ∃ op op' : PackedUserOperation, op ≠ op' ∧
    getUserOpHash testDeployment.messageHashUtils testDomainSeparator (fun _ => .empty) op =
      getUserOpHash testDeployment.messageHashUtils testDomainSeparator (fun _ => .contract) op' ∧
    SameContent op op' := by
  have hfree : ∀ bytes ∈ hashedMessages testKeccak testDomainSeparator (payment 0) [],
      ∀ bytes' ∈ hashedMessages testKeccak testDomainSeparator (payment 0) [],
        testKeccak bytes = testKeccak bytes' → bytes = bytes' := by
    decide +kernel
  have hmessage : initCodeMessage testKeccak (fun _ => .empty) (payment 0) = .ok [] := rfl
  have hmessage' : initCodeMessage testKeccak (fun _ => .contract)
      { payment 0 with signature := [1] } = .ok [] := rfl
  have hhash : getUserOpHash testDeployment.messageHashUtils testDomainSeparator
      (fun _ => .empty) (payment 0) =
      getUserOpHash testDeployment.messageHashUtils testDomainSeparator (fun _ => .contract)
        { payment 0 with signature := [1] } := rfl
  refine ⟨payment 0, { payment 0 with signature := [1] }, by decide, hhash, ?_⟩
  exact (getUserOpHash_binds testKeccak_lt hmessage hmessage' (fun bytes hmem bytes' hmem' =>
    hfree bytes ((List.mem_append.mp hmem).elim id id) bytes'
      ((List.mem_append.mp hmem').elim id id)) hhash).1

def ownOps (d : Deployment) (s : System) : List PackedUserOperation :=
  ((prepayments s).map Prepayment.op).filter fun op => decide (op.sender = d.account)

def ownEvents (d : Deployment) (s : System) : List Settlement :=
  (settlements s).filter fun e => decide (e.sender = d.account)

def signedMessages (d : Deployment) (s : System) : List Bytes :=
  (ownOps d s).flatMap fun op => hashedMessages d.keccak d.domainSeparator op op.initCode

theorem numberOf_eq {op op' : PackedUserOperation} (h : SameContent op op') :
    numberOf (op.sender, op.nonce) = numberOf (op'.sender, op'.nonce) := by
  have hnonce := h.nonce
  have hkey : nonceKey op.nonce = nonceKey op'.nonce := by
    unfold Nat.ModEq wordSize at hnonce
    unfold nonceKey
    omega
  have hsequence : nonceSequence op.nonce = nonceSequence op'.nonce := by
    unfold Nat.ModEq wordSize at hnonce
    unfold nonceSequence
    omega
  rw [numberOf, numberOf, h.sender, hkey, hsequence]

variable {d : Deployment} {block : Block} {labels : List (Label Block (Input d))}
  {m : Machine Block System Pending}

theorem hashOf_binds {s : System} (hword : ∀ message, d.keccak message < wordSize)
    (hfree : Set.InjOn d.keccak {message | message ∈ signedMessages d s})
    {op op' : PackedUserOperation} (hop : op ∈ ownOps d s) (hop' : op' ∈ ownOps d s)
    (h : hashOf d op = hashOf d op') : SameContent op op' := by
  rw [hashOf, hashOf, userOpHash_eq, userOpHash_eq] at h
  have hsubset : ∀ {op}, op ∈ ownOps d s →
      hashedMessages d.keccak d.domainSeparator op op.initCode ⊆ signedMessages d s := by
    intro op hop message hmem
    exact List.mem_flatMap_of_mem hop hmem
  exact (topMessage_binds hword (hsubset hop) (hsubset hop') hfree h).1

theorem hashes_nodup (hrun : Run d block labels m) (hword : ∀ message, d.keccak message < wordSize)
    (hfree : Set.InjOn d.keccak {message | message ∈ signedMessages d m.world}) :
    ((ownOps d m.world).map (hashOf d)).Nodup := by
  have hnumbers : ((ownOps d m.world).map fun op => numberOf (op.sender, op.nonce)).Nodup := by
    have hused := (run_counted hrun).numbered.nodup
    have hall : usedNumbers m.world =
        ((prepayments m.world).map Prepayment.op).map fun op => numberOf (op.sender, op.nonce) := by
      rw [usedNumbers, senderNonces, List.map_map, List.map_map]
      rfl
    rw [hall] at hused
    exact hused.sublist (List.filter_sublist.map _)
  apply List.Nodup.map_on _ (hnumbers.of_map _)
  intro op hop op' hop' heq
  apply List.inj_on_of_nodup_map hnumbers hop hop'
  exact numberOf_eq (hashOf_binds hword hfree hop hop' heq)

theorem settles_hashes {older : List Prepayment} {events : List Settlement}
    (h : List.Forall₂ (Settles d) older events) :
    ((events.filter fun e => decide (e.sender = d.account)).map Settlement.userOpHash) =
      ((older.map Prepayment.op).filter
        fun op => decide (op.sender = d.account)).map (hashOf d) := by
  induction h with
  | nil => rfl
  | @cons p e _ _ hsettles _ ih =>
    rw [List.map_cons, List.filter_cons, List.filter_cons, hsettles.sender]
    by_cases hown : p.op.sender = d.account
    · rw [if_pos (decide_eq_true hown), if_pos (decide_eq_true hown), List.map_cons, List.map_cons,
        ih, getUserOpHash_own hown hsettles.hash]
      rfl
    · rw [if_neg (by simpa using hown), if_neg (by simpa using hown)]
      exact ih

/-- In every state of every run: as far as keccak-256 keeps apart what was hashed for the
    account's operations, each of its `UserOperationEvent`s and each spend it has accounted
    for belongs to a hash of its own, and the vault owner signed it. -/
theorem signatures_used_once (hrun : Run d block labels m)
    (hword : ∀ message, d.keccak message < wordSize)
    (hfree : Set.InjOn d.keccak {message | message ∈ signedMessages d m.world}) :
    ((ownEvents d m.world).map Settlement.userOpHash).Nodup ∧
      ∃ ops, List.Forall₂ AsksFor ops (accountedSpends m.world.account) ∧
        (∀ op ∈ ops, OwnerSigned d op) ∧ (ops.map (hashOf d)).Nodup := by
  have hnodup := hashes_nodup hrun hword hfree
  have h := run_authorised hrun
  refine ⟨?_, ranOps m.world, h.spends, ?_, ?_⟩
  · obtain ⟨_, older, hprepayments, hsettles⟩ := run_settled hrun
    rw [ownEvents, settles_hashes hsettles]
    rw [ownOps, hprepayments] at hnodup
    apply List.Nodup.sublist _ hnodup
    exact (((List.sublist_append_right _ older).map _).filter _).map _
  · intro op hmem
    obtain ⟨p, hp, rfl⟩ := List.mem_map.mp (h.inOrder.mem hmem)
    exact h.signed_of_run hp (h.own _ hmem)
  · apply List.Nodup.sublist _ hnodup
    have hran : (ranOps m.world).filter (fun op => decide (op.sender = d.account)) =
        ranOps m.world := by
      apply List.filter_eq_self.mpr
      intro op hmem
      exact decide_eq_true (h.own op hmem)
    rw [← hran]
    exact ((h.inOrder.trans ((List.drop_sublist _ _).map _)).filter _).map _

theorem signatures_used_once_twice : ∃ m, Run testDeployment (blockAt 1000 testTime_lt)
    (paymentBundle 0 ++ paymentBundle 1) m ∧
      accountedSpends m.world.account = [(ether / 10, 0), (ether / 10, 0)] ∧
      (ownOps testDeployment m.world).length = 2 ∧
      ((ownEvents testDeployment m.world).map Settlement.userOpHash).Nodup := by
  have hrun : (run (entryPoint testDeployment) testStart (paymentBundle 0 ++ paymentBundle 1)).map
      (fun m => (accountedSpends m.world.account, (ownOps testDeployment m.world).length,
        decide (∀ message ∈ signedMessages testDeployment m.world,
          ∀ message' ∈ signedMessages testDeployment m.world,
            testKeccak message = testKeccak message' → message = message'))) =
        some ([(ether / 10, 0), (ether / 10, 0)], 2, true) := by
    decide +kernel
  obtain ⟨m, hm, hfound⟩ := Run.of_map (by decide +kernel) hrun
  obtain ⟨hspends, hfound⟩ := Prod.mk.inj hfound
  obtain ⟨hops, hfree⟩ := Prod.mk.inj hfound
  have hfree' := of_decide_eq_true hfree
  refine ⟨m, hm, hspends, hops, ?_⟩
  exact (signatures_used_once hm testKeccak_lt
    fun message hmem message' hmem' => hfree' message hmem message' hmem').1

end BoundedSpending.SignatureReplay
