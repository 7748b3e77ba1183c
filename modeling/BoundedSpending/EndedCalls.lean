import BoundedSpending.NestedCalls

set_option autoImplicit false

namespace BoundedSpending.NestedCalls

variable {C I ε W K : Type}

def OpenOver (entry : W) (base : List (Frame W K)) (m : Machine C W K) : Prop :=
  ∃ above pending, m.stack = above ++ ⟨entry, pending⟩ :: base

def StaysAbove (P : Code C I ε W K) (depth : ℕ) : Machine C W K → List (Label C I) → Prop
  | m, [] => depth < m.stack.length
  | m, label :: labels => depth < m.stack.length ∧
      ∀ m', step P m label = some m' → StaysAbove P depth m' labels

/-- The call `input` was made in `m` and ended by reverting in `m'`: at once, or
    after a run of nested moves by the answer to one of its own external calls. -/
def Reverts (P : Code C I ε W K) (m : Machine C W K) (input : I) (m' : Machine C W K) : Prop :=
  (∃ reason, P.enter m.clock m.world input = .revert reason ∧
    step P m (.call input) = some m') ∨
  ∃ labels m₁ m₂ frame ok reason, step P m (.call input) = some m₁ ∧
    run P m₁ labels = some m₂ ∧ StaysAbove P m.stack.length m₁ labels ∧
    m₂.stack.length = m.stack.length + 1 ∧ m₂.stack.head? = some frame ∧
    P.resume m₂.clock m₂.world frame.pending ok = .revert reason ∧
    step P m₂ (.answer ok) = some m'

/-- A move that answers the frame lying right above `depth` others, with the call it answers. -/
def ownAnswer (depth : ℕ) (m : Machine C W K) : Label C I → List K
  | .answer _ =>
    match m.stack with
    | [] => []
    | frame :: below => if below.length = depth then [frame.pending] else []
  | .advance _ | .call _ => []

def answered (P : Code C I ε W K) (depth : ℕ) : Machine C W K → List (Label C I) → List K
  | _, [] => []
  | m, label :: labels => ownAnswer depth m label ++
      ((step P m label).map fun m' => answered P depth m' labels).getD []

/-- The call `input` was made in `m` and ended without a revert in `m'`, at once or after
    a run of nested moves; `made` are the external calls it has made, each of them answered. -/
def Returns (P : Code C I ε W K) (m : Machine C W K) (input : I) (made : List K)
    (m' : Machine C W K) : Prop :=
  (∃ world, P.enter m.clock m.world input = .done world ∧ made = [] ∧
    step P m (.call input) = some m') ∨
  ∃ labels m₁ m₂ frame ok world, step P m (.call input) = some m₁ ∧
    run P m₁ labels = some m₂ ∧ StaysAbove P m.stack.length m₁ labels ∧
    m₂.stack.length = m.stack.length + 1 ∧ m₂.stack.head? = some frame ∧
    P.resume m₂.clock m₂.world frame.pending ok = .done world ∧
    made = answered P m.stack.length m₁ labels ++ [frame.pending] ∧
    step P m₂ (.answer ok) = some m'

/-- The same frame seen from inside: after each of its external calls it goes on in some
    world that the callee left. -/
inductive Progress (P : Code C I ε W K) (clock : C) (start : Outcome ε W K) :
    List K → Outcome ε W K → Prop where
  | start : Progress P clock start [] start
  | answer {made : List K} {world : W} {pending : K} (h : Progress P clock start made
      (.suspend world pending)) (left : W) (ok : Bool) :
      Progress P clock start (made ++ [pending]) (P.resume clock left pending ok)

variable {P : Code C I ε W K} {start : Outcome ε W K} {clock : C} {entry : W}
  {base : List (Frame W K)} {m m' : Machine C W K}

theorem Progress.of_revert {reason : ε} {made : List K} {outcome : Outcome ε W K}
    (h : Progress P clock (.revert reason) made outcome) : outcome = .revert reason := by
  induction h with
  | start => rfl
  | answer _ _ _ ih => cases ih

theorem StaysAbove.here {depth : ℕ} {labels : List (Label C I)}
    (h : StaysAbove P depth m labels) : depth < m.stack.length := by
  cases labels with
  | nil => exact h
  | cons label labels => exact h.1

theorem settle_clock (clock : C) (entry : W) (below : List (Frame W K))
    (outcome : Outcome ε W K) : (settle clock entry below outcome).clock = clock := by
  cases outcome <;> rfl

def Waiting (P : Code C I ε W K) (clock : C) (start : Outcome ε W K) (entry : W)
    (base : List (Frame W K)) (made : List K) (m : Machine C W K) : Prop :=
  m.clock = clock ∧ ∃ above pending world, m.stack = above ++ ⟨entry, pending⟩ :: base ∧
    Progress P clock start made (.suspend world pending)

theorem Waiting.openOver {made : List K} (h : Waiting P clock start entry base made m) :
    OpenOver entry base m := by
  obtain ⟨_, above, pending, _, hstack, _⟩ := h
  exact ⟨above, pending, hstack⟩

theorem suspend_of_open {made : List K} {outcome : Outcome ε W K}
    (hprogress : Progress P clock start made outcome)
    (hdepth : base.length < (settle clock entry base outcome).stack.length) :
    Waiting P clock start entry base made (settle clock entry base outcome) := by
  cases outcome with
  | revert reason => exact absurd hdepth (Nat.lt_irrefl _)
  | done world => exact absurd hdepth (Nat.lt_irrefl _)
  | suspend world pending => exact ⟨rfl, [], pending, world, rfl, hprogress⟩

theorem Waiting.of_call {input : I} (hcall : NestedCalls.step P m (.call input) = some m')
    (hdepth : m.stack.length < m'.stack.length) :
    Waiting P m.clock (P.enter m.clock m.world input) m.world m.stack [] m' := by
  simp only [NestedCalls.step, Option.some.injEq] at hcall
  subst hcall
  exact suspend_of_open .start hdepth

theorem Waiting.step {made : List K} {label : Label C I}
    (h : Waiting P clock start entry base made m) (hstep : NestedCalls.step P m label = some m')
    (hdepth : base.length < m'.stack.length) :
    Waiting P clock start entry base (made ++ ownAnswer base.length m label) m' := by
  obtain ⟨hclock, above, pending, world, hstack, hprogress⟩ := h
  cases label with
  | advance clock' => simp [NestedCalls.step, hstack] at hstep
  | call input =>
    simp only [NestedCalls.step, Option.some.injEq] at hstep
    subst hstep
    rw [ownAnswer, List.append_nil]
    refine ⟨(settle_clock _ _ _ _).trans hclock, ?_⟩
    cases P.enter m.clock m.world input with
    | revert reason => exact ⟨above, pending, world, hstack, hprogress⟩
    | done left => exact ⟨above, pending, world, hstack, hprogress⟩
    | suspend left k =>
      exact ⟨⟨m.world, k⟩ :: above, pending, world, by simp [settle, hstack], hprogress⟩
  | answer ok =>
    cases above with
    | nil =>
      simp only [NestedCalls.step, hstack, List.nil_append, Option.some.injEq] at hstep
      subst hstep
      have hown : ownAnswer (I := I) base.length m (.answer ok) = [pending] := by
        simp [ownAnswer, hstack]
      rw [hown, hclock] at *
      exact suspend_of_open (hprogress.answer m.world ok) hdepth
    | cons frame above =>
      simp only [NestedCalls.step, hstack, List.cons_append, Option.some.injEq] at hstep
      subst hstep
      have hown : ownAnswer (I := I) base.length m (.answer ok) = [] := by
        simp [ownAnswer, hstack]
        omega
      rw [hown, List.append_nil]
      refine ⟨(settle_clock _ _ _ _).trans hclock, ?_⟩
      cases P.resume m.clock m.world frame.pending ok with
      | revert reason => exact ⟨above, pending, world, rfl, hprogress⟩
      | done left => exact ⟨above, pending, world, rfl, hprogress⟩
      | suspend left k => exact ⟨⟨frame.entry, k⟩ :: above, pending, world, rfl, hprogress⟩

theorem Waiting.run {made : List K} {labels : List (Label C I)}
    (h : Waiting P clock start entry base made m) (habove : StaysAbove P base.length m labels)
    (hrun : NestedCalls.run P m labels = some m') :
    Waiting P clock start entry base (made ++ answered P base.length m labels) m' := by
  induction labels generalizing m made with
  | nil =>
    simp only [NestedCalls.run, Option.some.injEq] at hrun
    rw [answered, List.append_nil, ← hrun]
    exact h
  | cons label labels ih =>
    obtain ⟨v, hv, hrest⟩ := run_cons.mp hrun
    have hnext := h.step hv (habove.2 v hv).here
    have htail := ih hnext (habove.2 v hv) hrest
    rw [answered, hv, Option.map_some, Option.getD_some, ← List.append_assoc]
    exact htail

theorem innermost {above : List (Frame W K)} {frame top : Frame W K}
    (hlength : (above ++ frame :: base).length = base.length + 1)
    (htop : (above ++ frame :: base).head? = some top) : above = [] ∧ top = frame := by
  cases above with
  | nil => exact ⟨rfl, (Option.some.inj htop).symm⟩
  | cons x above =>
    simp only [List.cons_append, List.length_cons, List.length_append] at hlength
    omega

theorem Reverts.at_once {input : I} {reason : ε}
    (h : P.enter m.clock m.world input = .revert reason) : Reverts P m input m := by
  refine .inl ⟨reason, h, ?_⟩
  simp only [step, h, settle]

/-- A reverted call leaves the machine as it was before the call, whatever was
    nested inside it. -/
theorem Reverts.restores {input : I} (h : Reverts P m input m') : m' = m := by
  rcases h with ⟨reason, henter, hstep⟩ | ⟨labels, m₁, m₂, frame, ok, reason, hcall, hrun,
    habove, hlength, hframe, hresume, hanswer⟩
  · simp only [step, henter, settle, Option.some.injEq] at hstep
    exact hstep.symm
  · have hwaiting := (Waiting.of_call hcall habove.here).run habove hrun
    obtain ⟨above, pending, hstack⟩ := hwaiting.openOver
    rw [hstack] at hlength hframe
    obtain ⟨rfl, rfl⟩ := innermost hlength hframe
    simp only [step, hstack, List.nil_append, hresume, settle, Option.some.injEq] at hanswer
    rw [← hanswer, hwaiting.1]

/-- A call that returns has gone through its own code, whatever happened in between. -/
theorem Returns.progress {input : I} {made : List K} (h : Returns P m input made m') :
    ∃ world, Progress P m.clock (P.enter m.clock m.world input) made (.done world) ∧
      m' = ⟨m.clock, world, m.stack⟩ := by
  rcases h with ⟨world, henter, rfl, hstep⟩ | ⟨labels, m₁, m₂, frame, ok, world, hcall, hrun,
    habove, hlength, hframe, hresume, rfl, hanswer⟩
  · simp only [step, henter, settle, Option.some.injEq] at hstep
    exact ⟨world, henter ▸ .start, hstep.symm⟩
  · have hwaiting := (Waiting.of_call hcall habove.here).run habove hrun
    obtain ⟨hclock, above, pending, left, hstack, hprogress⟩ := hwaiting
    rw [hstack] at hlength hframe
    obtain ⟨rfl, rfl⟩ := innermost hlength hframe
    have hfinal := hprogress.answer m₂.world ok
    rw [hclock] at hresume
    rw [hresume] at hfinal
    refine ⟨world, hfinal, ?_⟩
    simp only [step, hstack, List.nil_append, hclock, hresume, settle, Option.some.injEq] at hanswer
    exact hanswer.symm

end BoundedSpending.NestedCalls
