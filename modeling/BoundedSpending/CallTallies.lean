import BoundedSpending.NestedCalls

set_option autoImplicit false

namespace BoundedSpending.CallTallies

open NestedCalls

variable {C I ε W K T : Type}

def tagged (tally : T) : Outcome ε W K → Outcome ε (W × T) K
  | .revert reason => .revert reason
  | .done world => .done (world, tally)
  | .suspend world pending => .suspend (world, tally) pending

/-- Beside the world, a tally that each call adds to. A revert restores it with the world,
    so it counts only the calls that took effect. -/
def tallied (P : Code C I ε W K) (note : I → T → T) : Code C I ε (W × T) K where
  later := P.later
  enter clock w input := tagged (note input w.2) (P.enter clock w.1 input)
  resume clock w pending ok := tagged w.2 (P.resume clock w.1 pending ok)

def forgetFrame (frame : Frame (W × T) K) : Frame W K := ⟨frame.entry.1, frame.pending⟩

def forget (m : Machine C (W × T) K) : Machine C W K :=
  ⟨m.clock, m.world.1, m.stack.map forgetFrame⟩

def withTally (tally : T) (m : Machine C W K) : Machine C (W × T) K :=
  ⟨m.clock, (m.world, tally), m.stack.map fun frame => ⟨(frame.entry, tally), frame.pending⟩⟩

@[simp] theorem forget_withTally (tally : T) (m : Machine C W K) :
    forget (withTally tally m) = m := by
  simp only [forget, withTally, List.map_map]
  exact congrArg (Machine.mk m.clock m.world) (List.map_id m.stack)

theorem forget_pending (m : Machine C (W × T) K) :
    (forget m).stack.map Frame.pending = m.stack.map Frame.pending := by
  simp [forget, forgetFrame]

theorem forget_settle (clock : C) (entry : W × T) (below : List (Frame (W × T) K)) (tally : T)
    (outcome : Outcome ε W K) : forget (settle clock entry below (tagged tally outcome)) =
      settle clock entry.1 (below.map forgetFrame) outcome := by
  cases outcome <;> rfl

variable {P : Code C I ε W K}

theorem step_forget (note : I → T → T) (m : Machine C (W × T) K) (label : Label C I) :
    step P (forget m) label = (step (tallied P note) m label).map forget := by
  cases label with
  | advance clock =>
    have hlater : (tallied P note).later m.clock clock = P.later m.clock clock := rfl
    simp only [step, forget, List.isEmpty_map, hlater]
    split_ifs
    · rfl
    · rfl
  | call input =>
    simp only [step, tallied, Option.map_some, forget_settle]
    rfl
  | answer ok =>
    cases hstack : m.stack with
    | nil => simp [step, forget, hstack]
    | cons frame below =>
      simp only [step, forget, hstack, List.map_cons, Option.map_some, tallied, forgetFrame]
      exact congrArg some (forget_settle _ _ _ _ _).symm

/-- The tally changes nothing: every run of the machine is one of the tallied machine. -/
theorem run_forget (note : I → T → T) (m : Machine C (W × T) K) (labels : List (Label C I)) :
    run P (forget m) labels = (run (tallied P note) m labels).map forget := by
  induction labels generalizing m with
  | nil => rfl
  | cons label labels ih =>
    simp only [run, step_forget note]
    cases step (tallied P note) m label with
    | none => rfl
    | some m' => exact ih m'

variable {note : I → T → T}

theorem keeps_tagged {J : W × T → List K → Prop} {ks : List K} {tally : T}
    {outcome : Outcome ε W K} (h : outcome.Keeps (fun w ks => J (w, tally) ks) ks) :
    (tagged tally outcome).Keeps J ks := by
  cases outcome with
  | revert reason => trivial
  | done world => exact h
  | suspend world pending => exact h

theorem tallied_invariant {A : C → W → I → Prop} {J : C → W × T → List K → Prop}
    (hadvance : ∀ c c' w, P.later c c' = true → J c w [] → J c' w [])
    (henter : ∀ c w tally ks i, A c w i → J c (w, tally) ks →
      (P.enter c w i).Keeps (fun w' ks => J c (w', note i tally) ks) ks)
    (hresume : ∀ c w tally k ks ok, J c (w, tally) (k :: ks) →
      (P.resume c w k ok).Keeps (fun w' ks => J c (w', tally) ks) ks) :
    Invariant (tallied P note) (fun c w i => A c w.1 i) J where
  advance := hadvance
  enter := by
    intro c w ks i hadmits h
    exact keeps_tagged (henter c w.1 w.2 ks i hadmits h)
  resume := by
    intro c w k ks ok h
    exact keeps_tagged (hresume c w.1 w.2 k ks ok h)

end BoundedSpending.CallTallies
