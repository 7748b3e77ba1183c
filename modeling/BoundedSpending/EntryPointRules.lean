import BoundedSpending.EntryPointEffects
import BoundedSpending.CallOrigins

set_option autoImplicit false

namespace BoundedSpending.EntryPointRules

open CheckedArithmetic UserOperations CallDataDecoder Preflight NestedCalls GasCostOrder
open EntryPointState StakeManager UserOpHash ValidationWindows BundleHandler EntryPointMachine
open EntryPointEffects CallOrigins

def accountCalls (ks : List Pending) : List AccountMachine.Pending := ks.filterMap accountCall

/-- The property holds of the state and of what is open, given the bundle in progress. -/
def Held (d : Deployment) (I : Property) (block : Block) (s : System) (o : Option Obligations)
    (ks : List Pending) : Prop :=
  Consistent d s o ∧ I block s o (accountCalls ks)

/-- Only groups that are still to be checked may carry the mark of a failed signature. -/
def Unmarked (groups : List Group) (todo : List Todo) : Prop :=
  ∀ item, .validate 1 item ∈ todo → ∃ group ∈ groups, group.aggregator = 1

structure Ready (d : Deployment) (v : Validation) : Prop where
  aggregator : v.aggregator ≠ 1
  rest : Unmarked [] v.rest
  prepared : Prepared d v.item.op v.info

def Formed (d : Deployment) : Pending → Prop
  | .validateSignatures _ _ groups todo => Unmarked groups todo
  -- the account itself is never asked by a call that is left open
  | .validation v .validateUserOp => Ready d v ∧ v.info.mUserOp.sender ≠ d.account
  | .validation v _ => Ready d v
  -- and it runs its callData itself
  | .execution x (.callData _) => x.prepaid.info.mUserOp.sender ≠ d.account
  | .execution x (.accountCallData _ pending) =>
    x.prepaid.info.mUserOp.sender = d.account ∧ NamedBy x.prepaid.item.op.callData pending
  -- which nobody else can make it do
  | .account (.calls _ _) => False
  | _ => True

/-- The state that a call of `innerHandleOp` falls back on, and whose operation it is. -/
def fallback : Pending → Option (System × Execution)
  | .execution x (.callData s) => some (s, x)
  | .execution x (.accountCallData s _) => some (s, x)
  | .execution x (.postOp s _) => some (s, x)
  | _ => none

/-- What an open call may fall back on is in order, over the calls below it. -/
def Saved (d : Deployment) (I : Property) (block : Block) : List Pending → Prop
  | [] => True
  | k :: ks => (∀ s x, fallback k = some (s, x) →
      Held d I block s (some (Execution.obligations x false)) ks) ∧ Saved d I block ks

structure Background (d : Deployment) (I : Property) (block : Block) (ks : List Pending) :
    Prop where
  formed : ∀ k ∈ ks, Formed d k
  saved : Saved d I block ks

/-- At most one of the open calls belongs to a bundle, and the property holds with its
    obligations. -/
structure Agrees (d : Deployment) (I : Property) (block : Block) (s : System)
    (ks : List Pending) : Prop where
  single : (ks.filterMap obligations).length ≤ 1
  holds : Held d I block s (ks.filterMap obligations).head? ks
  background : Background d I block ks

structure Alone (d : Deployment) (I : Property) (block : Block) (ks : List Pending) : Prop where
  free : ks.filterMap obligations = []
  background : Background d I block ks

variable {d : Deployment} {I : Property} {block : Block} {s s' : System}
  {o o' : Option Obligations} {ks ks' : List Pending} {k : Pending}
  {calls calls' : List AccountMachine.Pending}

theorem consistent_effect (h : Consistent d s o) (heffect : Effect d block s o calls s' o' calls') :
    Consistent d s' o' := by
  cases heffect with
  | recoded account code hne =>
    refine ⟨h.entered, ?_⟩
    change Function.update s.code account code d.account = .contract
    rw [Function.update_of_ne hne.symm]
    exact h.code
  | stakeAdded sender unstakeDelaySec amount hfits hok =>
    obtain ⟨_, _, _, _, _, rfl⟩ := addStake_eq_ok.mp hok
    exact ⟨h.entered, h.code⟩
  | stakeUnlocked sender hok =>
    obtain ⟨_, _, _, rfl⟩ := unlockStake_eq_ok.mp hok
    exact ⟨h.entered, h.code⟩
  | stakeWithdrawn sender withdrawAddress hok =>
    obtain ⟨_, _, _, _, rfl⟩ := withdrawStake_eq_ok.mp hok
    exact ⟨h.entered, h.code⟩
  | withdrawn sender withdrawAddress amount hsender hok =>
    obtain ⟨_, _, rfl⟩ := withdrawTo_eq_ok.mp hok
    exact ⟨h.entered, h.code⟩
  | nonceSkipped sender key hsender hok =>
    obtain ⟨_, rfl⟩ := incrementNonce_eq_ok.mp hok
    exact ⟨h.entered, h.code⟩
  | prepaid v hprepared haccepted hcharge =>
    obtain ⟨_, _, _, rfl⟩ := charge_eq_ok.mp hcharge
    cases haccepted with
    | account hsender hok =>
      obtain ⟨account, _, rfl⟩ := validateByAccount_eq_ok.mp hok
      exact ⟨(withPaid_entered d block.timestamp s account).trans h.entered,
        (congrFun (withPaid_code d block.timestamp s account) _).trans h.code⟩
    | other hsender validationData => exact ⟨h.entered, h.code⟩
  | opened => exact ⟨rfl, h.code⟩
  | closed => exact ⟨rfl, h.code⟩
  | _ => exact ⟨h.entered, h.code⟩

theorem Held.effect (hclosed : Closed d I) (h : Held d I block s o ks)
    (heffect : Effect d block s o (accountCalls ks) s' o' (accountCalls ks')) :
    Held d I block s' o' ks' :=
  ⟨consistent_effect h.1 heffect, hclosed.effect block s o _ s' o' _ h.2 heffect⟩

theorem Background.push (h : Background d I block ks) (hformed : Formed d k)
    (hsaved : ∀ s x, fallback k = some (s, x) →
      Held d I block s (some (Execution.obligations x false)) ks) :
    Background d I block (k :: ks) := by
  refine ⟨?_, hsaved, h.saved⟩
  intro k' hmem
  rcases List.mem_cons.mp hmem with rfl | hmem
  · exact hformed
  · exact h.formed k' hmem

theorem Background.tail (h : Background d I block (k :: ks)) : Background d I block ks :=
  ⟨fun k' hmem => h.formed k' (List.mem_cons_of_mem k hmem), h.saved.2⟩

theorem Alone.suspend (h : Alone d I block ks) {o : Obligations} (hk : obligations k = some o)
    (hformed : Formed d k) (hheld : Held d I block s (some o) (k :: ks))
    (hsaved : ∀ s x, fallback k = some (s, x) →
      Held d I block s (some (Execution.obligations x false)) ks) :
    Agrees d I block s (k :: ks) := by
  have hmap : (k :: ks).filterMap obligations = [o] := by
    rw [List.filterMap_cons_some hk, h.free]
  refine ⟨?_, ?_, h.background.push hformed hsaved⟩
  · rw [hmap, List.length_singleton]
  · rw [hmap]
    exact hheld

theorem Alone.done (h : Alone d I block ks) (hheld : Held d I block s none ks) :
    Agrees d I block s ks := by
  refine ⟨?_, ?_, h.background⟩
  · rw [h.free]
    exact Nat.zero_le 1
  · rw [h.free]
    exact hheld

theorem Agrees.resumed {o : Obligations} (h : Agrees d I block s (k :: ks))
    (hk : obligations k = some o) :
    Alone d I block ks ∧ Held d I block s (some o) (k :: ks) := by
  have hmap := List.filterMap_cons_some (l := ks) hk
  have hsingle := h.single
  have hholds := h.holds
  rw [hmap] at hsingle hholds
  have hnone : ks.filterMap obligations = [] := by
    rw [List.length_cons] at hsingle
    exact List.length_eq_zero_iff.mp (by omega)
  exact ⟨⟨hnone, h.background.tail⟩, hholds⟩

theorem Agrees.effect (hclosed : Closed d I) (h : Agrees d I block s ks)
    (heffect : Effect d block s (ks.filterMap obligations).head? (accountCalls ks) s'
      (ks.filterMap obligations).head? (accountCalls ks)) : Agrees d I block s' ks :=
  ⟨h.single, h.holds.effect hclosed heffect, h.background⟩

theorem Agrees.push (h : Agrees d I block s ks) (hk : obligations k = none)
    (hcall : accountCall k = none) (hformed : Formed d k) (hsaved : fallback k = none) :
    Agrees d I block s (k :: ks) := by
  have hmap := List.filterMap_cons_none (l := ks) hk
  refine ⟨?_, ?_, h.background.push hformed ?_⟩
  · rw [hmap]
    exact h.single
  · rw [hmap, Held, accountCalls, List.filterMap_cons_none hcall]
    exact h.holds
  · intro s₀ x hs
    rw [hsaved] at hs
    cases hs

structure Popped (d : Deployment) (I : Property) (block : Block) (s : System)
    (calls : List AccountMachine.Pending) (ks : List Pending) : Prop where
  single : (ks.filterMap obligations).length ≤ 1
  consistent : Consistent d s (ks.filterMap obligations).head?
  holds : I block s (ks.filterMap obligations).head? calls
  background : Background d I block ks

theorem Agrees.pop (h : Agrees d I block s (k :: ks)) (hk : obligations k = none) :
    Popped d I block s (accountCalls (k :: ks)) ks := by
  have hmap := List.filterMap_cons_none (l := ks) hk
  have hsingle := h.single
  have hholds := h.holds
  rw [hmap] at hsingle hholds
  exact ⟨hsingle, hholds.1, hholds.2, h.background.tail⟩

theorem Popped.agrees (h : Popped d I block s (accountCalls ks) ks) : Agrees d I block s ks :=
  ⟨h.single, ⟨h.consistent, h.holds⟩, h.background⟩

theorem Agrees.popped (h : Agrees d I block s ks) : Popped d I block s (accountCalls ks) ks :=
  ⟨h.single, h.holds.1, h.holds.2, h.background⟩

theorem prepaidOf_push (tasks : List Task) (prepaid : Prepaid) :
    prepaidOf (tasks ++ [.execute prepaid]) = prepaidOf tasks ++ [prepaid] := by
  induction tasks with
  | nil => rfl
  | cons task tasks ih =>
    cases task with
    | announce aggregator => exact ih
    | execute p => exact congrArg (p :: ·) ih

theorem prepaidOf_announce (tasks : List Task) (aggregator : Address) :
    prepaidOf (tasks ++ [.announce aggregator]) = prepaidOf tasks := by
  induction tasks with
  | nil => rfl
  | cons task tasks ih =>
    cases task with
    | announce a => exact ih
    | execute p => exact congrArg (p :: ·) ih

def atValidation (v : Validation) : Obligations := Bundle.obligations v.bundle v.bundle.tasks

def GoesOn (d : Deployment) (I : Property) (block : Block) (ks : List Pending) (v : Validation)
    (next : System → Prepaid → Result) : Prop :=
  ∀ s prepaid, Held d I block s (some { atValidation v with
      waiting := prepaidOf v.bundle.tasks ++ [prepaid] }) ks →
    (next s prepaid).Keeps (Agrees d I block) ks

variable {v : Validation} {next : System → Prepaid → Result} {validationData : ℕ}

theorem keeps_validated (hclosed : Closed d I) (hready : Ready d v)
    (hheld : Held d I block s (some { atValidation v with
      unchecked := some (⟨v.item, v.info⟩, validationData) }) ks)
    (hnext : GoesOn d I block ks v next) (paymasterValidationData contextLength : ℕ) :
    (validated block s v validationData paymasterValidationData contextLength next).Keeps
      (Agrees d I block) ks := by
  unfold validated
  cases hok : finishValidation block v validationData paymasterValidationData contextLength with
  | error reason => trivial
  | ok prepaid => exact hnext s prepaid (hheld.effect hclosed (.checked v hready.aggregator hok))

theorem keeps_afterValidateUserOp (hclosed : Closed d I) (halone : Alone d I block ks)
    (hready : Ready d v)
    (hheld : Held d I block s (some (atValidation v)) ks)
    (haccepted : Accepted d block s v validationData s') (hnext : GoesOn d I block ks v next) :
    (afterValidateUserOp d block s' v validationData next).Keeps (Agrees d I block) ks := by
  unfold afterValidateUserOp
  cases hcharge : charge block.timestamp s' v with
  | error reason => trivial
  | ok s₂ =>
    have hcharged := hheld.effect hclosed (.prepaid v hready.prepared haccepted hcharge)
    dsimp only
    split_ifs
    · exact keeps_validated hclosed hready hcharged hnext 0 0
    · trivial
    · exact halone.suspend rfl hready hcharged fun _ _ h => nomatch h

theorem keeps_callValidateUserOp (hclosed : Closed d I) (halone : Alone d I block ks)
    (hready : Ready d v)
    (hheld : Held d I block s (some (atValidation v)) ks) (hnext : GoesOn d I block ks v next) :
    (callValidateUserOp d block s v next).Keeps (Agrees d I block) ks := by
  simp only [callValidateUserOp]
  split_ifs with hsender
  · cases hok : validateByAccount d block s v.item.op v.info with
    | error reason => trivial
    | ok result =>
      exact keeps_afterValidateUserOp hclosed halone hready hheld (.account hsender hok) hnext
  · trivial
  · exact halone.suspend rfl ⟨hready, hsender⟩ hheld fun _ _ h => nomatch h

theorem keeps_createSenderIfNeeded (hclosed : Closed d I) (halone : Alone d I block ks)
    (hready : Ready d v)
    (hheld : Held d I block s (some (atValidation v)) ks) (hnext : GoesOn d I block ks v next) :
    (createSenderIfNeeded d block s v next).Keeps (Agrees d I block) ks := by
  have hcall := keeps_callValidateUserOp hclosed halone hready hheld hnext
  simp only [createSenderIfNeeded]
  split_ifs
  · exact hcall
  · exact halone.suspend rfl hready hheld fun _ _ h => nomatch h
  · exact hcall
  · trivial
  · trivial
  · exact halone.suspend rfl hready hheld fun _ _ h => nomatch h

theorem keeps_senderCreated (hclosed : Closed d I) (halone : Alone d I block ks)
    (hready : Ready d v)
    (hheld : Held d I block s (some (atValidation v)) ks) (hnext : GoesOn d I block ks v next) :
    (senderCreated d block s v next).Keeps (Agrees d I block) ks := by
  simp only [senderCreated]
  split_ifs
  · trivial
  · trivial
  · trivial
  · exact keeps_callValidateUserOp hclosed halone hready
      (hheld.effect hclosed (.remarked _ trivial)) hnext

theorem keeps_resumeValidation (hclosed : Closed d I) {call : ValidationCall} {ok : Bool}
    (h : Agrees d I block s (.validation v call :: ks)) (hnext : GoesOn d I block ks v next) :
    (resumeValidation d block s v call ok next).Keeps (Agrees d I block) ks := by
  have hformed := h.background.formed _ List.mem_cons_self
  cases call with
  | initEip7702Sender =>
    obtain ⟨halone, hheld⟩ := h.resumed rfl
    cases ok with
    | false => trivial
    | true => exact keeps_callValidateUserOp hclosed halone hformed hheld hnext
  | createSender =>
    obtain ⟨halone, hheld⟩ := h.resumed rfl
    cases ok with
    | false => trivial
    | true => exact keeps_senderCreated hclosed halone hformed hheld hnext
  | validateUserOp =>
    obtain ⟨halone, hheld⟩ := h.resumed rfl
    cases ok with
    | false =>
      simp only [resumeValidation]
      split_ifs <;> trivial
    | true =>
      exact keeps_afterValidateUserOp hclosed halone hformed.1 hheld (.other hformed.2 _) hnext
  | validatePaymasterUserOp validationData =>
    have hheld : Held d I block s (some { atValidation v with
        unchecked := some (⟨v.item, v.info⟩, validationData) }) ks := (h.resumed rfl).2
    simp only [resumeValidation]
    cases checkPaymasterAnswer v ok with
    | error reason => trivial
    | ok u => exact keeps_validated hclosed hformed hheld hnext _ _

def Runs (d : Deployment) (I : Property) (block : Block) (s : System) (x : Execution)
    (accepted : Bool) (ks : List Pending) : Prop :=
  Held d I block s (some (Execution.obligations x accepted)) ks

def PaysOn (d : Deployment) (I : Property) (block : Block) (ks : List Pending) (x : Execution)
    (pay : System → ℕ → Result) (G : Result → Prop) : Prop :=
  ∀ s cost, Held d I block s (some (Bundle.obligations (x.bundle.paid cost) x.rest)) ks →
    G (pay s cost)

def PostOps (d : Deployment) (I : Property) (block : Block) (ks : List Pending) (x : Execution)
    (G : Result → Prop) : Prop :=
  ∀ s₀ s mode, Runs d I block s₀ x false ks → Runs d I block s x (mode = .opSucceeded) ks →
    G (.suspend s (.execution x (.postOp s₀ mode)))

def Calls (d : Deployment) (I : Property) (block : Block) (ks : List Pending) (x : Execution)
    (s₀ s : System) (outcome : AccountMachine.Result) (G : Result → Prop) : Prop :=
  ∀ account pending, outcome = .suspend account pending →
    Held d I block { s with account := account } (some (Execution.obligations x true))
      (.execution x (.accountCallData s₀ pending) :: ks) →
    G (.suspend { s with account := account } (.execution x (.accountCallData s₀ pending)))

variable {x : Execution} {pay : System → ℕ → Result} {s₀ : System} {mode : PostOpMode}
  {G : Result → Prop}

theorem postOpReverted_leads (hclosed : Closed d I) (hsaved : Runs d I block s₀ x false ks)
    (hpay : PaysOn d I block ks x pay G) : G (postOpReverted block s₀ x pay) := by
  simp only [postOpReverted]
  split_ifs with hprefund
  · refine hpay _ _ (Held.effect hclosed (hsaved.effect hclosed (.remarked _ ?_)) (.kept _))
    trivial
  · refine hpay _ _ (Held.effect hclosed (hsaved.effect hclosed (.remarked _ ?_))
      (.refunded false _ _ (not_lt.mp hprefund)))
    trivial

theorem finishInner_leads (hclosed : Closed d I) (hsaved : Runs d I block s₀ x false ks)
    (hheld : Runs d I block s x (mode = .opSucceeded) ks) (hpay : PaysOn d I block ks x pay G) :
    G (finishInner block s₀ s x mode pay) := by
  simp only [finishInner]
  split_ifs with hgas hprefund
  · exact postOpReverted_leads hclosed hsaved hpay
  · exact hpay _ _ (hsaved.effect hclosed (.kept _))
  · exact hpay _ _ (hheld.effect hclosed (.refunded _ _ _ (not_lt.mp hprefund)))

theorem afterCallData_leads (hclosed : Closed d I) (hsaved : Runs d I block s₀ x false ks)
    (hheld : Runs d I block s x (mode = .opSucceeded) ks) (hpay : PaysOn d I block ks x pay G)
    (hpostOp : PostOps d I block ks x G) : G (afterCallData block s₀ s x mode pay) := by
  unfold afterCallData
  split_ifs
  · exact hpostOp s₀ s mode hsaved hheld
  · exact finishInner_leads hclosed hsaved hheld hpay

theorem callDataReverted_leads (hclosed : Closed d I) (hsaved : Runs d I block s₀ x false ks)
    (hpay : PaysOn d I block ks x pay G) (hpostOp : PostOps d I block ks x G) :
    G (callDataReverted block s₀ x pay) := by
  simp only [callDataReverted]
  split_ifs
  · exact afterCallData_leads hclosed hsaved (hsaved.effect hclosed (.remarked _ trivial)) hpay
      hpostOp
  · exact afterCallData_leads hclosed hsaved hsaved hpay hpostOp

theorem afterAccount_leads (hclosed : Closed d I) {outcome : AccountMachine.Result}
    (hsaved : Runs d I block s₀ x false ks)
    (hconsistent : Consistent d s (some (Execution.obligations x true)))
    (hleft : ∀ account calls', left (accountCalls ks) outcome = some (account, calls') →
      I block { s with account := account } (some (Execution.obligations x true)) calls')
    (hpay : PaysOn d I block ks x pay G) (hpostOp : PostOps d I block ks x G)
    (hcalls : Calls d I block ks x s₀ s outcome G) :
    G (afterAccount block s₀ s x pay outcome) := by
  have hstays : ∀ account, Consistent d { s with account := account }
      (some (Execution.obligations x true)) :=
    fun _ => ⟨hconsistent.entered, hconsistent.code⟩
  cases outcome with
  | revert reason => exact callDataReverted_leads hclosed hsaved hpay hpostOp
  | done account =>
    exact afterCallData_leads hclosed hsaved ⟨hstays account, hleft account _ rfl⟩ hpay hpostOp
  | suspend account pending =>
    exact hcalls account pending rfl ⟨hstays account, hleft account _ rfl⟩

theorem dispatch_left {account account' : World} {callData : BigEndianWords.Bytes}
    (h : left calls (dispatch d block account callData) = some (account', calls')) :
    ∃ call, decodeSpendCall callData = .ok call ∧
      left calls (AccountMachine.enter d.env d.config block account
        (FailedOperations.dispatched d.config call)) = some (account', calls') := by
  unfold dispatch at h
  cases hdecode : decodeSpendCall callData with
  | error reason =>
    rw [hdecode] at h
    cases h
  | ok call =>
    rw [hdecode] at h
    exact ⟨call, rfl, h⟩

theorem executeUserOp_leads (x : Execution) (hclosed : Closed d I)
    (hheld : Held d I block s
      (some ⟨none, x.prepaid :: prepaidOf x.rest, none, x.bundle.collected⟩) ks)
    (hpay : PaysOn d I block ks x pay G) (hpostOp : PostOps d I block ks x G)
    (hgas : innerGasTooLow x.prepaid = true →
      G (.revert (.reverted (.failedOp x.bundle.opIndex "AA95 out of gas"))))
    (hcallData : x.prepaid.info.mUserOp.sender ≠ d.account → Runs d I block s x false ks →
      G (.suspend s (.execution x (.callData s))))
    (hcalls : x.prepaid.info.mUserOp.sender = d.account → Runs d I block s x false ks →
      Calls d I block ks x s (emitted s block.timestamp [.accountRan x.prepaid.item.op])
        (dispatch d block s.account x.prepaid.item.op.callData) G) :
    G (executeUserOp d block s x pay) := by
  have hstarted : Runs d I block s x false ks := hheld.effect hclosed .started
  simp only [executeUserOp]
  cases hlow : innerGasTooLow x.prepaid with
  | true => exact hgas hlow
  | false =>
    rw [if_neg Bool.false_ne_true]
    split_ifs with hempty hsender
    · have hreturned : Runs d I block s x true ks :=
        hstarted.effect hclosed (.returned (.inl hempty))
      exact afterCallData_leads hclosed hstarted hreturned hpay hpostOp
    · refine afterAccount_leads hclosed hstarted ?_ ?_ hpay hpostOp
        (hcalls hsender hstarted)
      · exact ⟨hstarted.1.entered, hstarted.1.code⟩
      · intro account calls' hleft
        obtain ⟨call, hdecode, hentered⟩ := dispatch_left hleft
        exact hclosed.effect _ _ _ _ _ _ _ hstarted.2 (.ran call hsender hdecode hentered)
    · exact hcallData hsender hstarted

/-- A call of the operation is answered; `postOp` is called once at most. -/
theorem resumeExecution_leads (hclosed : Closed d I) {call : ExecutionCall} {ok : Bool}
    (h : Agrees d I block s (.execution x call :: ks)) (hpay : PaysOn d I block ks x pay G)
    (hpostOp : (∀ s₀ mode, call ≠ .postOp s₀ mode) → PostOps d I block ks x G)
    (hcalls : ∀ s₀ pending, call = .accountCallData s₀ pending → Runs d I block s₀ x false ks →
      Calls d I block ks x s₀ s (AccountMachine.resume d.env block s.account pending ok) G) :
    G (resumeExecution d block s x call ok pay) := by
  have hformed := h.background.formed _ List.mem_cons_self
  have hfallback := h.background.saved.1
  cases call with
  | callData s₀ =>
    have hheld : Runs d I block s x false ks := (h.resumed rfl).2
    have hsaved : Runs d I block s₀ x false ks := hfallback s₀ x rfl
    have hpostOp := hpostOp fun _ _ heq => nomatch heq
    cases ok with
    | false => exact callDataReverted_leads hclosed hsaved hpay hpostOp
    | true =>
      have hreturned : Runs d I block s x true ks :=
        hheld.effect hclosed (.returned (.inr hformed))
      exact afterCallData_leads hclosed hsaved hreturned hpay hpostOp
  | accountCallData s₀ pending =>
    obtain ⟨halone, hconsistent, hholds⟩ := h.resumed rfl
    have hsaved : Runs d I block s₀ x false ks := hfallback s₀ x rfl
    refine afterAccount_leads hclosed hsaved hconsistent ?_ hpay
      (hpostOp fun _ _ heq => nomatch heq) (hcalls s₀ pending rfl hsaved)
    intro account calls' hleft
    exact hclosed.effect _ _ _ _ _ _ _ hholds (.accountResumed pending ok hleft)
  | postOp s₀ mode =>
    have hheld : Runs d I block s x (mode = .opSucceeded) ks := (h.resumed rfl).2
    have hsaved : Runs d I block s₀ x false ks := hfallback s₀ x rfl
    cases ok with
    | false => exact postOpReverted_leads hclosed hsaved hpay
    | true => exact finishInner_leads hclosed hsaved hheld hpay

theorem Alone.runs (h : Alone d I block ks) {call : ExecutionCall}
    {accepted : Bool}
    (hk : obligations (.execution x call) = some (Execution.obligations x accepted))
    (hformed : Formed d (.execution x call))
    (hheld : Held d I block s (some (Execution.obligations x accepted)) (.execution x call :: ks))
    (hfallback : fallback (.execution x call) = some (s₀, x))
    (hsaved : Runs d I block s₀ x false ks) :
    Agrees d I block s (.execution x call :: ks) := by
  refine h.suspend hk hformed hheld ?_
  intro s' x' hs
  rw [hfallback] at hs
  obtain ⟨rfl, rfl⟩ := Prod.mk.inj (Option.some.inj hs)
  exact hsaved

theorem Alone.postOps (h : Alone d I block ks) :
    PostOps d I block ks x fun result => result.Keeps (Agrees d I block) ks :=
  fun _ _ _ hsaved hheld => h.runs rfl trivial hheld rfl hsaved

theorem Alone.accountCalls (h : Alone d I block ks) {outcome : AccountMachine.Result}
    (hsender : x.prepaid.info.mUserOp.sender = d.account)
    (hnamed : ∀ account pending, outcome = .suspend account pending →
      NamedBy x.prepaid.item.op.callData pending)
    (hsaved : Runs d I block s₀ x false ks) :
    Calls d I block ks x s₀ s outcome fun result => result.Keeps (Agrees d I block) ks :=
  fun account pending hsuspends hheld =>
    h.runs rfl ⟨hsender, hnamed account pending hsuspends⟩ hheld rfl hsaved

theorem keeps_compensate (hclosed : Closed d I) (halone : Alone d I block ks) {b : Bundle}
    (hheld : Held d I block s (some (Bundle.obligations b [])) ks) :
    (compensate block.timestamp s b).Keeps (Agrees d I block) ks := by
  unfold compensate
  split_ifs with hbeneficiary hfunds
  · trivial
  · exact halone.suspend rfl trivial (hheld.effect hclosed (.compensated b.beneficiary hfunds))
      fun _ _ h => nomatch h
  · trivial

theorem keeps_executeAll (hclosed : Closed d I) (halone : Alone d I block ks) (tasks : List Task)
    (s : System) (b : Bundle) (hheld : Held d I block s (some (Bundle.obligations b tasks)) ks) :
    (executeAll d block s b tasks).Keeps (Agrees d I block) ks := by
  induction tasks generalizing s b with
  | nil => exact keeps_compensate hclosed halone hheld
  | cons task rest ih =>
    cases task with
    | announce aggregator => exact ih _ b (hheld.effect hclosed (.remarked _ trivial))
    | execute prepaid =>
      rw [executeAll]
      apply executeUserOp_leads ⟨b, prepaid, rest⟩ hclosed hheld
        (fun s' cost hs => ih s' (b.paid cost) hs) halone.postOps
      · exact fun _ => trivial
      · exact fun hsender hstarted => halone.runs rfl hsender hstarted rfl hstarted
      · exact fun hsender => halone.accountCalls hsender fun _ _ => dispatch_suspends

theorem Unmarked.tail {groups : List Group} {t : Todo} {todo : List Todo}
    (h : Unmarked groups (t :: todo)) : Unmarked groups todo :=
  fun item hmem => h item (List.mem_cons_of_mem t hmem)

theorem keeps_validateAll (hclosed : Closed d I) (halone : Alone d I block ks) (todo : List Todo)
    (hmarks : Unmarked [] todo) (s : System) (b : Bundle)
    (hheld : Held d I block s (some (Bundle.obligations b b.tasks)) ks) :
    (validateAll d block s b todo).Keeps (Agrees d I block) ks := by
  induction todo generalizing s b with
  | nil =>
    exact keeps_executeAll hclosed halone b.tasks _ _ (hheld.effect hclosed (.remarked _ trivial))
  | cons t rest ih =>
    cases t with
    | group aggregator =>
      refine ih hmarks.tail s _ ?_
      simp only [Bundle.obligations, prepaidOf_announce]
      exact hheld
    | validate aggregator item =>
      simp only [validateAll]
      cases hprepare : prepare d s b.opIndex item.op with
      | error reason => trivial
      | ok info =>
        have haggregator : aggregator ≠ 1 := by
          rintro rfl
          obtain ⟨group, hmem, _⟩ := hmarks item List.mem_cons_self
          exact nomatch hmem
        have hready : Ready d ⟨b, aggregator, item, info, rest⟩ :=
          ⟨haggregator, hmarks.tail, prepare_eq_ok hheld.1.code hprepare⟩
        refine keeps_createSenderIfNeeded hclosed halone hready hheld ?_
        intro s' prepaid hs
        refine ih hmarks.tail s' (b.push prepaid) ?_
        simp only [Bundle.obligations, Bundle.push, prepaidOf_push]
        exact hs

theorem keeps_validateSignatures (hclosed : Closed d I) (halone : Alone d I block ks)
    {todo : List Todo} (groups : List Group) (hmarks : Unmarked groups todo) (b : Bundle)
    (hheld : Held d I block s (some (Bundle.obligations b b.tasks)) ks) :
    (validateSignatures d block s b todo groups).Keeps (Agrees d I block) ks := by
  induction groups with
  | nil => exact keeps_validateAll hclosed halone todo hmarks s b hheld
  | cons group groups ih =>
    simp only [validateSignatures]
    split_ifs with hfailed hzero hown
    · trivial
    all_goals
      have hrest : Unmarked groups todo := by
        intro item hmem
        obtain ⟨g, hg, hone⟩ := hmarks item hmem
        rcases List.mem_cons.mp hg with rfl | hg
        · exact absurd hone hfailed
        · exact ⟨g, hg, hone⟩
    · exact ih hrest
    · trivial
    · exact halone.suspend rfl hrest hheld fun _ _ h => nomatch h

theorem Agrees.alone (h : Agrees d I block s ks) (hguard : s.entered = false) :
    Alone d I block ks ∧ Held d I block s none ks := by
  have hhead : (ks.filterMap obligations).head? = none := by
    have hsome := h.holds.1.entered
    rw [hguard] at hsome
    exact Option.isSome_eq_false_iff.mp hsome.symm |> Option.isNone_iff_eq_none.mp
  refine ⟨⟨List.head?_eq_none_iff.mp hhead, h.background⟩, ?_⟩
  rw [← hhead]
  exact h.holds

theorem unmarked_zero (ops : List Item) : Unmarked [] (ops.map (.validate 0)) := by
  intro item hmem
  obtain ⟨other, _, heq⟩ := List.mem_map.mp hmem
  exact absurd (Todo.validate.inj heq).1 (by decide)

theorem unmarked_groups (groups : List Group) : Unmarked groups (groups.flatMap Group.todo) := by
  intro item hmem
  obtain ⟨group, hgroup, htodo⟩ := List.mem_flatMap.mp hmem
  rcases List.mem_cons.mp htodo with heq | htodo
  · exact nomatch heq
  · obtain ⟨other, _, heq⟩ := List.mem_map.mp htodo
    exact ⟨group, hgroup, (Todo.validate.inj heq).1⟩

theorem keeps_handleOps (hclosed : Closed d I) (h : Agrees d I block s ks) (ops : List Item)
    (beneficiary : Address) :
    (handleOps d block s ops beneficiary).Keeps (Agrees d I block) ks := by
  cases hguard : s.entered with
  | true =>
    rw [handleOps_entered hguard]
    trivial
  | false =>
    obtain ⟨halone, hheld⟩ := h.alone hguard
    rw [handleOps_clear hguard]
    exact keeps_validateAll hclosed halone _ (unmarked_zero ops) _ _ (hheld.effect hclosed .opened)

theorem keeps_handleAggregatedOps (hclosed : Closed d I) (h : Agrees d I block s ks)
    (groups : List Group) (beneficiary : Address) :
    (handleAggregatedOps d block s groups beneficiary).Keeps (Agrees d I block) ks := by
  cases hguard : s.entered with
  | true =>
    rw [handleAggregatedOps_entered hguard]
    trivial
  | false =>
    obtain ⟨halone, hheld⟩ := h.alone hguard
    rw [handleAggregatedOps_clear hguard]
    exact keeps_validateSignatures hclosed halone groups (unmarked_groups groups) _
      (hheld.effect hclosed .opened)

theorem keeps_ofExcept (hclosed : Closed d I) (h : Agrees d I block s ks)
    {outcome : Except Failure System}
    (heffect : ∀ s' o calls, outcome = .ok s' → Effect d block s o calls s' o calls) :
    (ofExcept outcome).Keeps (Agrees d I block) ks := by
  cases outcome with
  | error reason => trivial
  | ok s' => exact h.effect hclosed (heffect s' _ _ rfl)

theorem keeps_sending (hclosed : Closed d I) (h : Agrees d I block s ks)
    {outcome : Except Failure System}
    (heffect : ∀ s' o calls, outcome = .ok s' → Effect d block s o calls s' o calls)
    (reason : String) : (sending reason outcome).Keeps (Agrees d I block) ks := by
  cases outcome with
  | error reason => trivial
  | ok s' => exact (h.effect hclosed (heffect s' _ _ rfl)).push rfl rfl trivial rfl

theorem formed_account {pending : AccountMachine.Pending}
    (h : ∀ call rest, pending ≠ .calls call rest) : Formed d (.account pending) := by
  cases pending with
  | calls call rest => exact h call rest rfl
  | _ => trivial

theorem keeps_fromAccount (hclosed : Closed d I) (h : Popped d I block s calls ks)
    {outcome : AccountMachine.Result}
    (heffect : ∀ account o calls', left (accountCalls ks) outcome = some (account, calls') →
      Effect d block s o calls { s with account := account } o calls')
    (hformed : ∀ account pending, outcome = .suspend account pending →
      Formed d (.account pending)) :
    (fromAccount s outcome).Keeps (Agrees d I block) ks := by
  have hstays : ∀ account o, Consistent d s o → Consistent d { s with account := account } o :=
    fun _ _ hconsistent => ⟨hconsistent.entered, hconsistent.code⟩
  cases outcome with
  | revert reason => trivial
  | done account =>
    refine ⟨h.single, ⟨hstays account _ h.consistent, ?_⟩, h.background⟩
    exact hclosed.effect _ _ _ _ _ _ _ h.holds (heffect account _ _ rfl)
  | suspend account pending =>
    refine ⟨h.single, ⟨hstays account _ h.consistent, ?_⟩,
      h.background.push (hformed account pending rfl) ?_⟩
    · exact hclosed.effect _ _ _ _ _ _ _ h.holds (heffect account _ _ rfl)
    · exact fun _ _ hs => nomatch hs

theorem keeps_call (hclosed : Closed d I) (h : Agrees d I block s ks) (input : Input d) :
    (enter d block s input).Keeps (Agrees d I block) ks := by
  unfold enter
  split_ifs with hfits
  · cases input with
    | receive sender amount => exact h.effect hclosed (.deposited sender amount hfits)
    | depositTo account amount => exact h.effect hclosed (.deposited account amount hfits)
    | addStake sender unstakeDelaySec amount =>
      exact keeps_ofExcept hclosed h fun _ _ _ hok =>
        .stakeAdded sender unstakeDelaySec amount hfits hok
    | unlockStake sender hsender =>
      exact keeps_ofExcept hclosed h fun _ _ _ hok => .stakeUnlocked sender hok
    | withdrawStake sender withdrawAddress hsender =>
      exact keeps_sending hclosed h (fun _ _ _ hok => .stakeWithdrawn sender withdrawAddress hok) _
    | withdrawTo sender withdrawAddress withdrawAmount hsender =>
      exact keeps_sending hclosed h
        (fun _ _ _ hok => .withdrawn sender withdrawAddress withdrawAmount hsender hok) _
    | incrementNonce sender key hsender =>
      exact keeps_ofExcept hclosed h fun _ _ _ hok => .nonceSkipped sender key hsender hok
    | handleOps ops beneficiary => exact keeps_handleOps hclosed h ops beneficiary
    | handleAggregatedOps groups beneficiary =>
      exact keeps_handleAggregatedOps hclosed h groups beneficiary
    | innerHandleOp => trivial
    | getSenderAddress => trivial
    | delegateAndRevert => trivial
    | account input hcaller =>
      have hcalled : (∀ amount, input = .receive amount → Fits s amount) →
          (fromAccount s (AccountMachine.enter d.env d.config block s.account input)).Keeps
            (Agrees d I block) ks := fun hreceive =>
        keeps_fromAccount hclosed h.popped
          (fun _ _ _ hleft => .accountCalled input hcaller hreceive hleft)
          fun _ _ hsuspends => formed_account fun _ _ hcalls =>
            hcaller (enter_calls (hcalls ▸ hsuspends))
      cases input with
      | addDeposit amount => exact h.effect hclosed (.deposited d.account amount hfits)
      | receive amount =>
        exact hcalled fun _ heq => (AccountMachine.Input.receive.inj heq) ▸ hfits
      | _ => exact hcalled fun _ heq => nomatch heq
    | forceEther amount => exact h.effect hclosed (.forced amount hfits)
    | setCode account code hne => exact h.effect hclosed (.recoded account code hne)
    | «foreign» => exact h.push rfl rfl trivial rfl
  · trivial

theorem keeps_answer (hclosed : Closed d I) (h : Agrees d I block s (k :: ks)) (ok : Bool) :
    (resume d block s k ok).Keeps (Agrees d I block) ks := by
  cases k with
  | validateSignatures b aggregator groups todo =>
    obtain ⟨halone, hheld⟩ := h.resumed rfl
    cases ok with
    | false => trivial
    | true =>
      exact keeps_validateSignatures hclosed halone groups
        (h.background.formed _ List.mem_cons_self) b hheld
  | validation v call =>
    have hnone : ks.filterMap obligations = [] ∧ Ready d v := by
      have hformed := h.background.formed _ List.mem_cons_self
      cases call with
      | validateUserOp => exact ⟨(h.resumed rfl).1.free, hformed.1⟩
      | _ => exact ⟨(h.resumed rfl).1.free, hformed⟩
    refine keeps_resumeValidation hclosed h ?_
    intro s' prepaid hs
    refine keeps_validateAll hclosed ⟨hnone.1, h.background.tail⟩ v.rest hnone.2.rest s' _ ?_
    simp only [Bundle.obligations, Bundle.push, prepaidOf_push]
    exact hs
  | execution x call =>
    have halone : Alone d I block ks := by
      cases call <;> exact (h.resumed rfl).1
    apply resumeExecution_leads hclosed h
      (fun s' cost hs => keeps_executeAll hclosed halone x.rest s' (x.bundle.paid cost) hs)
      (fun _ => halone.postOps)
    intro s₀ pending hcall
    subst hcall
    obtain ⟨hsender, hnamed⟩ := h.background.formed _ List.mem_cons_self
    exact halone.accountCalls hsender fun _ _ hsuspends => hnamed.follows (resume_follows hsuspends)
  | compensation =>
    obtain ⟨halone, hheld⟩ := h.resumed rfl
    cases ok with
    | false => trivial
    | true =>
      rw [resume_compensation]
      exact halone.done (hheld.effect hclosed .closed)
  | withdrawal reason =>
    cases ok with
    | false => trivial
    | true => exact (h.pop rfl).agrees
  | account pending =>
    refine keeps_fromAccount hclosed (h.pop rfl)
      (fun _ _ _ hleft => .accountResumed pending ok hleft) ?_
    intro account next hsuspends
    apply formed_account
    rintro call rest rfl
    cases resume_follows hsuspends
    exact h.background.formed _ List.mem_cons_self
  | «foreign» =>
    cases ok with
    | false => trivial
    | true => exact (h.pop rfl).agrees

/-- What the abstract steps keep, the code keeps, under any environment. -/
theorem entryPoint_agrees (hclosed : Closed d I) :
    Invariant (entryPoint d) (fun _ _ _ => True) (Agrees d I) where
  advance := by
    intro block block' s hlater h
    have hholds := hclosed.advance block block' s (of_decide_eq_true hlater) h.holds.2
    exact ⟨h.single, ⟨h.holds.1, hholds⟩, ⟨fun _ hmem => (nomatch hmem), trivial⟩⟩
  enter := fun _ _ _ input _ h => keeps_call hclosed h input
  resume := fun _ _ _ _ ok h => keeps_answer hclosed h ok

/-- A closed property of the launched system holds in every state of every run, between
    transactions and under any open calls. -/
theorem run_agrees (hclosed : Closed d I) {labels : List (Label Block (Input d))}
    {m : Machine Block System Pending}
    (hstart : ∀ balance accountBalance usdcBalance code, balance + accountBalance < wordSize →
      I block (launched d block balance accountBalance usdcBalance code).world none [])
    (hrun : Run d block labels m) :
    Agrees d I m.clock m.world (m.stack.map Frame.pending) := by
  obtain ⟨balance, accountBalance, usdcBalance, code, hsupply, hrun⟩ := hrun
  have hlaunched : Holds (Agrees d I)
      (launched d block balance accountBalance usdcBalance code) := by
    refine ⟨⟨Nat.zero_le 1, ⟨⟨rfl, ?_⟩, hstart _ _ _ _ hsupply⟩, ?_⟩, trivial⟩
    · exact Function.update_self d.account Code.contract code
    · exact ⟨fun _ hmem => (nomatch hmem), trivial⟩
  exact ((entryPoint_agrees hclosed).run hlaunched (admits_true _ _ _) hrun).1

end BoundedSpending.EntryPointRules
