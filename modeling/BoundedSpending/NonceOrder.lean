import BoundedSpending.SettledOperations

set_option autoImplicit false

namespace BoundedSpending.NonceOrder

open UserOperations NestedCalls OrderedLogs
open EntryPointState StakeManager BundleHandler EntryPointMachine EntryPointEffects EntryPointRules
open EntryPointSolvency SettledOperations

def counter (s : System) (key : Address × ℕ) : ℕ := s.nonceSequenceNumber key.1 key.2

def numberOf (senderNonce : Address × ℕ) : (Address × ℕ) × ℕ :=
  ((senderNonce.1, nonceKey senderNonce.2), nonceSequence senderNonce.2)

def senderNonces (s : System) : List (Address × ℕ) :=
  (prepayments s).map fun p => (p.op.sender, p.op.nonce)

def usedNumbers (s : System) : List ((Address × ℕ) × ℕ) := (senderNonces s).map numberOf

structure Counted (d : Deployment) (s : System) : Prop where
  numbered : Numbered (counter s) (usedNumbers s)
  gapless : ∀ key, Gapless (counter s) (d.account, key) (usedNumbers s)

variable {d : Deployment} {block : Block} {s s' : System} {o : Option Obligations}

theorem counter_setNonce (s : System) (sender : Address) (key n : ℕ) :
    counter (setNonce s sender key n) = Function.update (counter s) (sender, key) n := by
  funext ⟨a, k⟩
  by_cases ha : a = sender
  · subst ha
    by_cases hk : k = key
    · subst hk
      simp [counter, setNonce]
    · simp [counter, setNonce, hk]
  · simp [counter, setNonce, ha]

theorem Counted.same (h : Counted d s) (hprepayments : prepayments s' = prepayments s)
    (hcounter : s'.nonceSequenceNumber = s.nonceSequenceNumber) : Counted d s' := by
  have hsame : counter s' = counter s := by
    funext key
    rw [counter, counter, hcounter]
  refine ⟨?_, ?_⟩
  · rw [hsame, usedNumbers, senderNonces, hprepayments]
    exact h.numbered
  · intro key
    rw [hsame, usedNumbers, senderNonces, hprepayments]
    exact h.gapless key

theorem withPaid_nonces (now : ℕ) (s : System) (account : World) :
    (withPaid d now s account).nonceSequenceNumber = s.nonceSequenceNumber := by
  simp only [withPaid]
  split_ifs <;> rfl

theorem Counted.accepted {v : Validation} {validationData : ℕ} (h : Counted d s)
    (haccepted : Accepted d block s v validationData s') : Counted d s' := by
  cases haccepted with
  | account hsender hok =>
    obtain ⟨account, _, rfl⟩ := validateByAccount_eq_ok.mp hok
    exact h.same (prepayments_withPaid block.timestamp s account)
      (withPaid_nonces block.timestamp s account)
  | other hsender validationData => exact h

theorem counted_closed : Closed d fun _ s _ _ => Counted d s where
  advance := fun _ _ _ _ h => h
  effect := by
    intro block s o calls s' o' calls' h heffect
    cases heffect with
    | stakeAdded sender unstakeDelaySec amount hfits hok =>
      obtain ⟨_, _, _, _, _, rfl⟩ := addStake_eq_ok.mp hok
      exact h.same rfl rfl
    | stakeUnlocked sender hok =>
      obtain ⟨_, _, _, rfl⟩ := unlockStake_eq_ok.mp hok
      exact h.same rfl rfl
    | stakeWithdrawn sender withdrawAddress hok =>
      obtain ⟨_, _, _, _, rfl⟩ := withdrawStake_eq_ok.mp hok
      exact h.same rfl rfl
    | withdrawn sender withdrawAddress amount hsender hok =>
      obtain ⟨_, _, rfl⟩ := withdrawTo_eq_ok.mp hok
      exact h.same rfl rfl
    | nonceSkipped sender key hsender hok =>
      obtain ⟨_, rfl⟩ := incrementNonce_eq_ok.mp hok
      refine ⟨?_, ?_⟩
      · rw [counter_setNonce]
        exact h.numbered.skip (Nat.le_succ _)
      · intro key'
        rw [counter_setNonce]
        apply (h.gapless key').skip
        intro heq
        exact hsender (Prod.mk.inj heq).1.symm
    | remarked e hremark =>
      cases e <;> first | exact hremark.elim | exact h.same rfl rfl
    | prepaid v hprepared haccepted hcharge =>
      obtain ⟨_, hnext, _, rfl⟩ := charge_eq_ok.mp hcharge
      obtain ⟨hsender, hnonce⟩ := copyUserOpToMemory_copies hprepared.copied
      obtain ⟨hnumbered, hgapless⟩ := h.accepted haccepted
      rw [hsender, hnonce] at hnext
      -- the next number is the one that the operation carries
      have hcounter : ∀ s, counter (charged block.timestamp s v) = Function.update (counter s)
          (v.item.op.sender, nonceKey v.item.op.nonce)
          (counter s (v.item.op.sender, nonceKey v.item.op.nonce) + 1) := by
        intro s
        rw [← hsender, ← hnonce]
        exact counter_setNonce _ _ _ _
      have hused : ∀ s, usedNumbers (charged block.timestamp s v) =
          ((v.item.op.sender, nonceKey v.item.op.nonce), nonceSequence v.item.op.nonce) ::
            usedNumbers s := fun _ => rfl
      refine ⟨?_, ?_⟩
      · rw [hcounter, hused, ← hnext]
        exact hnumbered.issue _
      · intro key
        rw [hcounter, hused, ← hnext]
        exact (hgapless key).issue _
    | _ => exact h.same rfl rfl

theorem run_counted {labels : List (Label Block (Input d))} {m : Machine Block System Pending}
    (hrun : Run d block labels m) : Counted d m.world :=
  (run_agrees counted_closed (fun _ _ _ _ _ =>
    ⟨numbered_nil _, fun _ => gapless_nil rfl⟩) hrun).holds.2

theorem settles_senderNonces {older : List Prepayment} {events : List Settlement}
    (h : List.Forall₂ (Settles d) older events) :
    events.map (fun e => (e.sender, e.nonce)) = older.map fun p => (p.op.sender, p.op.nonce) := by
  induction h with
  | nil => rfl
  | cons hsettles _ ih =>
    rw [List.map_cons, List.map_cons, ih, hsettles.sender, hsettles.nonce]

/-- In every state of every run no two operations have been validated, and no two
    `UserOperationEvent`s emitted, for one sender and nonce; under each key the nonces of
    a sender rise, below its counter; and those of the account leave nothing out, since it
    cannot call `incrementNonce` (`SignedCalls.calls_funded`). -/
theorem nonces_used_once {labels : List (Label Block (Input d))} {m : Machine Block System Pending}
    (hrun : Run d block labels m) :
    (senderNonces m.world).Nodup ∧
      ((settlements m.world).map fun e => (e.sender, e.nonce)).Nodup ∧
      (∀ sender key, (numbersOf (sender, key) (usedNumbers m.world)).Pairwise (· > ·) ∧
        ∀ n ∈ numbersOf (sender, key) (usedNumbers m.world),
          n < m.world.nonceSequenceNumber sender key) ∧
      ∀ key, numbersOf (d.account, key) (usedNumbers m.world) =
        (List.range (m.world.nonceSequenceNumber d.account key)).reverse := by
  obtain ⟨hnumbered, hgapless⟩ := run_counted hrun
  have hnodup : (senderNonces m.world).Nodup := hnumbered.nodup.of_map numberOf
  refine ⟨hnodup, ?_, fun sender key => hnumbered (sender, key), hgapless⟩
  obtain ⟨_, older, hprepayments, hsettles⟩ := run_settled hrun
  rw [settles_senderNonces hsettles]
  rw [senderNonces, hprepayments, List.map_append] at hnodup
  exact hnodup.of_append_right

theorem nonces_used_once_twice : ∃ m, Run testDeployment (blockAt 1000 testTime_lt)
    (paymentBundle 0 ++ paymentBundle 1) m ∧ m.world.nonceSequenceNumber 0x707 0 = 2 ∧
      numbersOf (0x707, 0) (usedNumbers m.world) = [1, 0] := by
  have hrun : (run (entryPoint testDeployment) testStart (paymentBundle 0 ++ paymentBundle 1)).map
      (fun m => m.world.nonceSequenceNumber 0x707 0) = some 2 := by
    decide +kernel
  obtain ⟨m, hm, hcounter⟩ := Run.of_map (by decide +kernel) hrun
  refine ⟨m, hm, hcounter, ?_⟩
  have hall := (nonces_used_once hm).2.2.2 0
  change numbersOf (0x707, 0) (usedNumbers m.world) =
    (List.range (m.world.nonceSequenceNumber 0x707 0)).reverse at hall
  rw [hall, hcounter]
  rfl

end BoundedSpending.NonceOrder
