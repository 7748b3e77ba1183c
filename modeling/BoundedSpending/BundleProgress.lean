import BoundedSpending.SettledOperations

set_option autoImplicit false

namespace BoundedSpending.BundleProgress

open CheckedArithmetic BigEndianWords UserOperations CallDataDecoder Preflight NestedCalls
open GasCostOrder OrderedLogs EntryPointState StakeManager UserOpHash BundleHandler
open EntryPointMachine EntryPointEffects EntryPointRules EntryPointSolvency SettledOperations
open CallOrigins

section Exclusion

variable {d : Deployment} {block : Block} {labels : List (Label Block (Input d))}
  {m : Machine Block System Pending}

theorem openObligations_eq_none : openObligations m = none ↔
    ∀ frame ∈ m.stack, obligations frame.pending = none := by
  rw [openObligations, List.head?_eq_none_iff, List.filterMap_eq_nil_iff]
  exact List.forall_mem_map

/-- In every state of every run at most one of the open calls belongs to a bundle; the guard
    is set exactly while one does; and then no call can open another bundle. -/
theorem bundles_exclusive (hrun : Run d block labels m) :
    (m.stack.filter fun frame => (obligations frame.pending).isSome).length ≤ 1 ∧
      (m.world.entered = true ↔ ∃ frame ∈ m.stack, (obligations frame.pending).isSome = true) ∧
      (m.world.entered = true → ∀ input, (∃ ops beneficiary, input = .handleOps ops beneficiary) ∨
        (∃ groups beneficiary, input = .handleAggregatedOps groups beneficiary) →
        step (entryPoint d) m (.call input) = some m) := by
  have hagrees := solvent_agrees hrun
  have hentered : m.world.entered = (openObligations m).isSome := hagrees.holds.1.entered
  refine ⟨?_, ?_, ?_⟩
  · have hsingle := hagrees.single
    rwa [List.filterMap_map, List.length_filterMap_eq_countP, List.countP_eq_length_filter]
      at hsingle
  · rw [hentered]
    constructor
    · intro hsome
      by_contra hnone
      have hall : openObligations m = none := by
        apply openObligations_eq_none.mpr
        intro frame hmem
        by_contra hne
        exact hnone ⟨frame, hmem, Option.isSome_iff_ne_none.mpr hne⟩
      rw [hall] at hsome
      cases hsome
    · rintro ⟨frame, hmem, hsome⟩
      by_contra hnone
      rw [Bool.not_eq_true, Option.isSome_eq_false_iff, Option.isNone_iff_eq_none] at hnone
      rw [openObligations_eq_none.mp hnone frame hmem] at hsome
      cases hsome
  · intro hguard input hinput
    have hrevert : ∃ reason, enter d m.clock m.world input = .revert reason := by
      unfold enter
      split_ifs
      · rcases hinput with ⟨ops, beneficiary, rfl⟩ | ⟨groups, beneficiary, rfl⟩
        · exact ⟨_, handleOps_entered hguard⟩
        · exact ⟨_, handleAggregatedOps_entered hguard⟩
      · exact ⟨_, rfl⟩
    obtain ⟨reason, hreason⟩ := hrevert
    have hstep : step (entryPoint d) m (.call input) =
        some (settle m.clock m.world m.stack (enter d m.clock m.world input)) := rfl
    rw [hstep, hreason]
    rfl

theorem bundles_exclusive_midway : ∃ m, Run testDeployment (blockAt 1000 testTime_lt)
    [.call (.handleOps [paymentItem 0] 0xb11)] m ∧ m.world.entered = true ∧
      (m.stack.filter fun frame => (obligations frame.pending).isSome).length ≤ 1 ∧
      step (entryPoint testDeployment) m (.call (.handleOps [paymentItem 1] 0xb12)) = some m := by
  have hrun : (run (entryPoint testDeployment) testStart
      [.call (.handleOps [paymentItem 0] 0xb11)]).map (fun m => m.world.entered) = some true := by
    decide +kernel
  obtain ⟨m, hm, hguard⟩ := Run.of_map (by decide +kernel) hrun
  obtain ⟨hsingle, _, hreverts⟩ := bundles_exclusive hm
  exact ⟨m, hm, hguard, hsingle, hreverts hguard _ (.inl ⟨_, _, rfl⟩)⟩

end Exclusion

/-- How often the account will call out again, if every call is answered by a success. -/
def callsLeft : AccountMachine.Pending → ℕ
  | .calls _ rest => rest.length
  | .withdrawEth _ _ => 1
  | _ => 0

def callsOf (callData : Bytes) : ℕ :=
  match decodeSpendCall callData with
  | .ok call => call.calls.length
  | .error _ => 0

section Account

variable {callData : Bytes} {k k' : AccountMachine.Pending}

theorem follows_callsLeft (h : Follows k k') : callsLeft k' < callsLeft k := by
  cases h with
  | calls call next rest => exact Nat.lt_succ_self rest.length
  | withdrawal recipient ethAmount usdcAmount => exact Nat.zero_lt_one

theorem namedBy_callsLeft (h : NamedBy callData k) : callsLeft k < callsOf callData := by
  cases h with
  | @calls spend made call rest hdecode horder =>
    have hlength : spend.calls.length = made.length + (rest.length + 1) := by
      rw [horder, List.length_append, List.length_cons]
    rw [callsOf, hdecode]
    change rest.length < spend.calls.length
    omega

end Account

def callAnswers : ExecutionCall → ℕ
  | .callData _ => 2
  | .accountCallData _ pending => callsLeft pending + 2
  | .postOp _ _ => 1

/-- A bound of the answers that the operations of these tasks wait for. -/
def answersAhead (tasks : List Task) : ℕ :=
  ((prepaidOf tasks).map fun p => callsOf p.item.op.callData + 2).sum

def answersDue : Pending → ℕ
  | .execution x call => callAnswers call + answersAhead x.rest
  | _ => 0

/-- The bundler has left enough gas for the operations that are still to run. -/
def GasSuffices (tasks : List Task) : Prop := ∀ p ∈ prepaidOf tasks, innerGasTooLow p = false

def Working (beneficiary : Address) : Pending → Prop
  | .execution x _ => x.bundle.beneficiary = beneficiary ∧ GasSuffices x.rest
  | _ => False

def Compensates (beneficiary : Address) (s : System) : Pending → Prop
  | .compensation => ∃ now amount, s.journal.head? = some (now, .compensated beneficiary amount)
  | _ => False

def Advances (beneficiary : Address) (bound : ℕ) : Result → Prop :=
  Outcome.Suspends fun s k =>
    Compensates beneficiary s k ∨ Working beneficiary k ∧ answersDue k < bound

variable {d : Deployment} {block : Block} {s s₀ : System} {ks : List Pending} {x : Execution}
  {beneficiary : Address} {bound bound' : ℕ} {result : Result}

abbrev SolventAt : Property := fun block s o _ => Solvent block s o

theorem Advances.mono (h : Advances beneficiary bound result) (hle : bound ≤ bound') :
    Advances beneficiary bound' result :=
  Suspends.imp h fun _ _ hk => hk.imp_right fun hworking => ⟨hworking.1, hworking.2.trans_le hle⟩

theorem advances_call {call : ExecutionCall} (hbeneficiary : x.bundle.beneficiary = beneficiary)
    (hgas : GasSuffices x.rest) (hbound : callAnswers call + answersAhead x.rest < bound) :
    Advances beneficiary bound (.suspend s (.execution x call)) :=
  .inr ⟨⟨hbeneficiary, hgas⟩, hbound⟩

theorem advances_compensate {b : Bundle} (hbeneficiary : b.beneficiary ≠ 0)
    (hheld : Held d SolventAt block s (some (Bundle.obligations b [])) ks) :
    Advances b.beneficiary bound (compensate block.timestamp s b) := by
  have hfunds : b.collected ≤ s.balance := by
    have hcovered := hheld.2.covered ∅
    rw [Bundle.obligations, due_waiting, Finset.sum_empty, Nat.zero_add] at hcovered
    exact (Nat.le_add_left _ _).trans hcovered
  unfold compensate
  rw [if_neg hbeneficiary, if_pos hfunds]
  exact .inl ⟨block.timestamp, b.collected, rfl⟩

theorem answersAhead_execute (p : Prepaid) (rest : List Task) :
    answersAhead (.execute p :: rest) = callsOf p.item.op.callData + 2 + answersAhead rest := rfl

theorem advances_executeAll (tasks : List Task) (s : System) (b : Bundle)
    (hbeneficiary : b.beneficiary ≠ 0) (hgas : GasSuffices tasks)
    (hheld : Held d SolventAt block s (some (Bundle.obligations b tasks)) ks) :
    Advances b.beneficiary (answersAhead tasks + 1) (executeAll d block s b tasks) := by
  induction tasks generalizing s b with
  | nil => exact advances_compensate hbeneficiary hheld
  | cons task rest ih =>
    cases task with
    | announce aggregator =>
      exact ih _ b hbeneficiary hgas (hheld.effect solvent_closed (.remarked _ trivial))
    | execute prepaid =>
      have hrest : GasSuffices rest := fun p hmem => hgas p (List.mem_cons_of_mem _ hmem)
      rw [executeAll, answersAhead_execute]
      apply executeUserOp_leads ⟨b, prepaid, rest⟩ solvent_closed hheld
      · intro s' cost hs
        apply (ih s' (b.paid cost) hbeneficiary hrest hs).mono
        omega
      · intro _ _ _ _ _
        refine advances_call rfl hrest ?_
        simp only [callAnswers]
        omega
      · intro hlow
        rw [hgas prepaid List.mem_cons_self] at hlow
        cases hlow
      · intro _ _
        refine advances_call rfl hrest ?_
        simp only [callAnswers]
        omega
      · intro _ _ account pending hdispatch _
        have hcalls : callsLeft pending < callsOf prepaid.item.op.callData :=
          namedBy_callsLeft (dispatch_suspends hdispatch)
        refine advances_call rfl hrest ?_
        simp only [callAnswers]
        omega

theorem advances_resume {call : ExecutionCall} (ok : Bool)
    (h : Agrees d SolventAt block s (.execution x call :: ks)) (hgas : GasSuffices x.rest)
    (hbeneficiary : x.bundle.beneficiary ≠ 0) :
    Advances x.bundle.beneficiary (answersDue (.execution x call))
      (resume d block s (.execution x call) ok) := by
  rw [answersDue]
  have hpos : 0 < callAnswers call := by cases call <;> simp [callAnswers]
  apply resumeExecution_leads solvent_closed h
  · intro s' cost hs
    apply (advances_executeAll x.rest s' (x.bundle.paid cost) hbeneficiary hgas hs).mono
    omega
  · intro hcall _ _ _ _ _
    refine advances_call rfl hgas ?_
    cases call with
    | callData saved => simp [callAnswers]
    | accountCallData saved pending => simp [callAnswers]
    | postOp saved mode => exact absurd rfl (hcall saved mode)
  · intro saved pending hcall _ account pending' hresume _
    have hcalls := follows_callsLeft (resume_follows hresume)
    subst hcall
    refine advances_call rfl hgas ?_
    simp only [callAnswers]
    omega

variable {labels : List (Label Block (Input d))} {m : Machine Block System Pending}

theorem run_advances (hbeneficiary : beneficiary ≠ 0) (hrun : Run d block labels m)
    {frame : Frame System Pending} {below : List (Frame System Pending)} (ok : Bool)
    (hstack : m.stack = frame :: below) (hworking : Working beneficiary frame.pending) :
    Advances beneficiary (answersDue frame.pending)
      (resume d m.clock m.world frame.pending ok) := by
  have hagrees := solvent_agrees hrun
  rw [hstack, List.map_cons] at hagrees
  cases hpending : frame.pending with
  | execution x call =>
    rw [hpending] at hworking hagrees
    obtain ⟨rfl, hgas⟩ := hworking
    exact advances_resume ok hagrees hgas hbeneficiary
  | _ =>
    rw [hpending] at hworking
    exact hworking.elim

theorem answersDue_pos {k : Pending} (h : Working beneficiary k) : 0 < answersDue k := by
  cases k with
  | execution x call => cases call <;> simp [answersDue, callAnswers]
  | _ => exact h.elim

theorem settled_of_compensation {frame : Frame System Pending}
    {below : List (Frame System Pending)} (hrun : Run d block labels m)
    (hstack : m.stack = frame :: below) (hpending : frame.pending = .compensation) :
    List.Forall₂ (Settles d) (prepayments m.world) (settlements m.world) := by
  have hidle : openObligations m = some (idle 0) := by
    rw [openObligations, hstack, List.map_cons, hpending]
    rfl
  obtain ⟨_, hinOrder⟩ := run_settled hrun
  rw [hidle] at hinOrder
  exact hinOrder.drained

/-- In every run, whatever was called while an operation of a bundle waits for a call of
    its own, and whatever this call and those that follow it answer: the bundle comes to
    the payment of its beneficiary, with each operation that was paid for settled, as long
    as the gas suffices. -/
theorem bundles_complete {frame : Frame System Pending} {below : List (Frame System Pending)}
    {call : ExecutionCall} (hrun : Run d block labels m) (hstack : m.stack = frame :: below)
    (hpending : frame.pending = .execution x call) (hbeneficiary : x.bundle.beneficiary ≠ 0)
    (hgas : GasSuffices x.rest) (answers : List Bool)
    (hanswers : answersDue (.execution x call) ≤ answers.length) :
    ∃ used m', used <+: answers ∧ run (entryPoint d) m (used.map .answer) = some m' ∧
      m'.stack = ⟨frame.entry, .compensation⟩ :: below ∧
      (∃ now amount,
        m'.world.journal.head? = some (now, .compensated x.bundle.beneficiary amount)) ∧
      List.Forall₂ (Settles d) (prepayments m'.world) (settlements m'.world) := by
  have hworking : Working x.bundle.beneficiary frame.pending := by
    rw [hpending]
    exact ⟨rfl, hgas⟩
  have hlength : answersDue frame.pending ≤ answers.length := by
    rw [hpending]
    exact hanswers
  have hinv : ∀ m m' ok, (∃ labels', Run d block labels' m) →
      step (entryPoint d) m (.answer ok) = some m' → ∃ labels', Run d block labels' m' := by
    rintro m m' ok ⟨labels', balance, accountBalance, usdcBalance, code, hsupply, hm⟩ hstep
    exact ⟨labels' ++ [.answer ok], balance, accountBalance, usdcBalance, code, hsupply,
      run_snoc hm hstep⟩
  have hresume : ∀ m frame below ok, (∃ labels', Run d block labels' m) →
      m.stack = frame :: below → Working x.bundle.beneficiary frame.pending →
      ((entryPoint d).resume m.clock m.world frame.pending ok).Suspends fun s k =>
        Compensates x.bundle.beneficiary s k ∨
          Working x.bundle.beneficiary k ∧ answersDue k < answersDue frame.pending := by
    rintro m frame below ok ⟨labels', hm⟩
    exact run_advances hbeneficiary hm ok
  have hpos : ∀ k, Working x.bundle.beneficiary k → 0 < answersDue k := fun _ => answersDue_pos
  obtain ⟨used, m', k, hused, hanswered, hstack', hlast⟩ :=
    run_answers hinv hpos hresume ⟨labels, hrun⟩ hstack hworking answers hlength
  cases k with
  | compensation =>
    obtain ⟨balance, accountBalance, usdcBalance, code, hsupply, hm⟩ := hrun
    refine ⟨used, m', hused, hanswered, hstack', hlast, ?_⟩
    have hrun' : Run d block (labels ++ used.map .answer) m' :=
      ⟨balance, accountBalance, usdcBalance, code, hsupply, run_append hm hanswered⟩
    exact settled_of_compensation hrun' hstack' rfl
  | _ => exact hlast.elim

theorem bundles_complete_refused : ∃ m, Run testDeployment (blockAt 1000 testTime_lt)
    [.call (.handleOps [paymentItem 0, paymentItem 1] 0xb11)] m ∧
      ∃ used m', used <+: List.replicate 5 false ∧
        run (entryPoint testDeployment) m (used.map .answer) = some m' ∧
        (∃ now amount, m'.world.journal.head? = some (now, .compensated 0xb11 amount)) ∧
        List.Forall₂ (Settles testDeployment) (prepayments m'.world) (settlements m'.world) := by
  have hrun : (run (entryPoint testDeployment) testStart
      [.call (.handleOps [paymentItem 0, paymentItem 1] 0xb11)]).map (fun m =>
        m.stack.map fun frame => match frame.pending with
          | .execution x call => some (x.bundle.beneficiary,
              (prepaidOf x.rest).all fun p => !innerGasTooLow p, answersDue (.execution x call))
          | _ => none) = some [some (0xb11, true, 5)] := by
    decide +kernel
  obtain ⟨m, hm, hfound⟩ := Run.of_map (by decide +kernel) hrun
  obtain ⟨frame, below, hstack, hframe, hbelow⟩ := List.map_eq_cons_iff.mp hfound
  cases hpending : frame.pending with
  | execution x call =>
    rw [hpending] at hframe
    obtain ⟨hbeneficiary, hrest⟩ := Prod.mk.inj (Option.some.inj hframe)
    obtain ⟨hgas, hdue⟩ := Prod.mk.inj hrest
    have hsuffices : GasSuffices x.rest := by
      intro p hmem
      exact (Bool.not_eq_true' _).mp (List.all_eq_true.mp hgas p hmem)
    obtain ⟨used, m', hused, hrun', _, hcompensated, hsettled⟩ :=
      bundles_complete hm hstack hpending (by rw [hbeneficiary]; decide) hsuffices
        (List.replicate 5 false) hdue.le
    rw [hbeneficiary] at hcompensated
    exact ⟨m, hm, used, m', hused, hrun', hcompensated, hsettled⟩
  | _ =>
    rw [hpending] at hframe
    cases hframe

end BoundedSpending.BundleProgress
