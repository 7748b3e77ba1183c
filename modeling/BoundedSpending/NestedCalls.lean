import Mathlib.Tactic.Common

set_option autoImplicit false

/-!
# Nested calls with roll-back

A contract runs in a world shared with code that it does not control. Whenever
it calls out, that code may call back in, to any depth, before it answers; a
call that reverts restores the world it was entered in. The clock stands still
while any call is open.
-/
namespace BoundedSpending.NestedCalls

inductive Outcome (ε W K : Type) where
  | revert (reason : ε)
  | done (world : W)
  | suspend (world : W) (pending : K)
  deriving DecidableEq

/-- The contract under study: its clock order, its entry points and what follows
    the answer to an external call. -/
structure Code (C I ε W K : Type) where
  later : C → C → Bool
  enter : C → W → I → Outcome ε W K
  resume : C → W → K → Bool → Outcome ε W K

/-- An open call waits for an answer and keeps the world it will restore. -/
structure Frame (W K : Type) where
  entry : W
  pending : K

structure Machine (C W K : Type) where
  clock : C
  world : W
  stack : List (Frame W K)

inductive Label (C I : Type) where
  | advance (clock : C)
  | call (input : I)
  | answer (ok : Bool)

variable {C I ε W K : Type}

def settle (clock : C) (entry : W) (below : List (Frame W K)) :
    Outcome ε W K → Machine C W K
  | .revert _ => ⟨clock, entry, below⟩
  | .done world => ⟨clock, world, below⟩
  | .suspend world pending => ⟨clock, world, ⟨entry, pending⟩ :: below⟩

def step (P : Code C I ε W K) (m : Machine C W K) : Label C I → Option (Machine C W K)
  | .advance clock =>
    if m.stack.isEmpty && P.later m.clock clock then some { m with clock := clock } else none
  | .call input => some (settle m.clock m.world m.stack (P.enter m.clock m.world input))
  | .answer ok =>
    match m.stack with
    | [] => none
    | frame :: below =>
      some (settle m.clock frame.entry below (P.resume m.clock m.world frame.pending ok))

def run (P : Code C I ε W K) : Machine C W K → List (Label C I) → Option (Machine C W K)
  | m, [] => some m
  | m, label :: labels => (step P m label).bind fun m' => run P m' labels

theorem run_cons {P : Code C I ε W K} {m m' : Machine C W K} {label : Label C I}
    {labels : List (Label C I)} : run P m (label :: labels) = some m' ↔
      ∃ v, step P m label = some v ∧ run P v labels = some m' := by
  simp only [run, Option.bind_eq_some_iff]

/-- A property of a world and of what the open calls above it still have to do,
    read off an outcome reached over the calls `below`. -/
def Outcome.Keeps (J : W → List K → Prop) (below : List K) : Outcome ε W K → Prop
  | .revert _ => True
  | .done world => J world below
  | .suspend world pending => J world (pending :: below)

theorem Keeps.imp {J J' : W → List K → Prop} {ks : List K} {outcome : Outcome ε W K}
    (h : outcome.Keeps J ks) (himp : ∀ w' ks', J w' ks' → J' w' ks') : outcome.Keeps J' ks := by
  cases outcome with
  | revert reason => trivial
  | done w' => exact himp w' ks h
  | suspend w' k => exact himp w' (k :: ks) h

theorem Keeps.and {J J' : W → List K → Prop} {ks : List K} {outcome : Outcome ε W K}
    (h : outcome.Keeps J ks) (h' : outcome.Keeps J' ks) :
    outcome.Keeps (fun w ks => J w ks ∧ J' w ks) ks := by
  cases outcome with
  | revert reason => trivial
  | done w' => exact ⟨h, h'⟩
  | suspend w' k => exact ⟨h, h'⟩

theorem Keeps.exists_revert {ks : List K} {outcome : Outcome ε W K}
    (h : outcome.Keeps (fun _ _ => False) ks) : ∃ reason, outcome = .revert reason := by
  cases outcome with
  | revert reason => exact ⟨reason, rfl⟩
  | done w' => exact h.elim
  | suspend w' k => exact h.elim

def Snapshots (J : W → List K → Prop) : List (Frame W K) → Prop
  | [] => True
  | frame :: below => J frame.entry (below.map Frame.pending) ∧ Snapshots J below

def Holds (J : C → W → List K → Prop) (m : Machine C W K) : Prop :=
  J m.clock m.world (m.stack.map Frame.pending) ∧ Snapshots (J m.clock) m.stack

/-- One obligation for each way the machine moves. Calls may be limited to those
    that `A` admits; answers are never limited. -/
structure Invariant (P : Code C I ε W K) (A : C → W → I → Prop)
    (J : C → W → List K → Prop) : Prop where
  advance : ∀ c c' w, P.later c c' = true → J c w [] → J c' w []
  enter : ∀ c w ks i, A c w i → J c w ks → (P.enter c w i).Keeps (J c) ks
  resume : ∀ c w k ks ok, J c w (k :: ks) → (P.resume c w k ok).Keeps (J c) ks

/-- Every call of the run is one that `A` admits in the state it is made in. -/
def Admits (P : Code C I ε W K) (A : C → W → I → Prop) :
    Machine C W K → List (Label C I) → Prop
  | _, [] => True
  | m, label :: labels =>
    (∀ input, label = .call input → A m.clock m.world input) ∧
      ∀ m', step P m label = some m' → Admits P A m' labels

theorem admits_true (P : Code C I ε W K) (m : Machine C W K) (labels : List (Label C I)) :
    Admits P (fun _ _ _ => True) m labels := by
  induction labels generalizing m with
  | nil => trivial
  | cons label labels ih => exact ⟨fun _ _ => trivial, fun m' _ => ih m'⟩

variable {P : Code C I ε W K} {A : C → W → I → Prop} {J : C → W → List K → Prop}

/-- A revert falls back on the snapshot, so only the two other outcomes owe anything. -/
theorem settle_holds {clock : C} {entry : W} {below : List (Frame W K)}
    {outcome : Outcome ε W K} (hentry : J clock entry (below.map Frame.pending))
    (hbelow : Snapshots (J clock) below)
    (hout : outcome.Keeps (J clock) (below.map Frame.pending)) :
    Holds J (settle clock entry below outcome) := by
  cases outcome with
  | revert reason => exact ⟨hentry, hbelow⟩
  | done world => exact ⟨hout, hbelow⟩
  | suspend world pending => exact ⟨hout, hentry, hbelow⟩

theorem Invariant.step (hinv : Invariant P A J) {m m' : Machine C W K} {label : Label C I}
    (hm : Holds J m) (hA : ∀ input, label = .call input → A m.clock m.world input)
    (hstep : NestedCalls.step P m label = some m') : Holds J m' := by
  obtain ⟨hworld, hsnap⟩ := hm
  cases label with
  | advance clock =>
    simp only [NestedCalls.step, Option.ite_none_right_eq_some, Bool.and_eq_true,
      List.isEmpty_iff, Option.some.injEq] at hstep
    obtain ⟨⟨hempty, hlater⟩, rfl⟩ := hstep
    rw [hempty] at hworld
    refine ⟨?_, ?_⟩
    · simpa only [hempty, List.map_nil] using hinv.advance _ _ _ hlater hworld
    · simp only [hempty, Snapshots]
  | call input =>
    simp only [NestedCalls.step, Option.some.injEq] at hstep
    subst hstep
    exact settle_holds hworld hsnap (hinv.enter _ _ _ _ (hA input rfl) hworld)
  | answer ok =>
    cases hstack : m.stack with
    | nil => simp [NestedCalls.step, hstack] at hstep
    | cons frame below =>
      simp only [NestedCalls.step, hstack, Option.some.injEq] at hstep
      subst hstep
      rw [hstack] at hworld hsnap
      exact settle_holds hsnap.1 hsnap.2 (hinv.resume _ _ _ _ ok hworld)

theorem Invariant.run (hinv : Invariant P A J) {m m' : Machine C W K} {labels : List (Label C I)}
    (hm : Holds J m) (hA : Admits P A m labels)
    (hrun : NestedCalls.run P m labels = some m') : Holds J m' := by
  induction labels generalizing m with
  | nil =>
    simp only [NestedCalls.run, Option.some.injEq] at hrun
    exact hrun ▸ hm
  | cons label labels ih =>
    obtain ⟨v, hv, hrest⟩ := run_cons.mp hrun
    exact ih (hinv.step hm hA.1 hv) (hA.2 v hv) hrest

theorem run_append {m m' m'' : Machine C W K} {labels labels' : List (Label C I)}
    (hrun : run P m labels = some m') (hrun' : run P m' labels' = some m'') :
    run P m (labels ++ labels') = some m'' := by
  induction labels generalizing m with
  | nil =>
    obtain rfl := Option.some.inj hrun
    exact hrun'
  | cons label labels ih =>
    obtain ⟨v, hv, hrest⟩ := run_cons.mp hrun
    exact run_cons.mpr ⟨v, hv, ih hrest⟩

theorem run_snoc {m m' m'' : Machine C W K} {labels : List (Label C I)} {label : Label C I}
    (hrun : run P m labels = some m') (hstep : step P m' label = some m'') :
    run P m (labels ++ [label]) = some m'' :=
  run_append hrun (run_cons.mpr ⟨m'', hstep, rfl⟩)

def Reached (P : Code C I ε W K) (start : Machine C W K → Prop) (clock : C) (world : W)
    (openCalls : List K) : Prop :=
  ∃ m₀ labels m, start m₀ ∧ run P m₀ labels = some m ∧ m.clock = clock ∧ m.world = world ∧
    m.stack.map Frame.pending = openCalls

theorem Reached.step {start : Machine C W K → Prop} {m₀ m m' : Machine C W K}
    {labels : List (Label C I)} {label : Label C I} (hstart : start m₀)
    (hrun : run P m₀ labels = some m) (hstep : NestedCalls.step P m label = some m') :
    Reached P start m'.clock m'.world (m'.stack.map Frame.pending) :=
  ⟨m₀, labels ++ [label], m', hstart, run_snoc hrun hstep, rfl, rfl, rfl⟩

theorem keeps_of_settle {clock : C} {entry : W} {below : List (Frame W K)}
    {outcome : Outcome ε W K}
    (h : J (settle clock entry below outcome).clock (settle clock entry below outcome).world
      ((settle clock entry below outcome).stack.map Frame.pending)) :
    outcome.Keeps (J clock) (below.map Frame.pending) := by
  cases outcome with
  | revert reason => trivial
  | done world => exact h
  | suspend world pending => exact h

/-- To be reachable is an invariant, and the strongest one. -/
theorem reached_invariant (P : Code C I ε W K) (start : Machine C W K → Prop) :
    Invariant P (fun _ _ _ => True) (Reached P start) where
  advance := by
    rintro c c' w hlater ⟨m₀, labels, m, hstart, hrun, rfl, rfl, hstack⟩
    have hempty : m.stack = [] := List.map_eq_nil_iff.mp hstack
    have hstep : NestedCalls.step P m (.advance c') = some { m with clock := c' } := by
      simp only [NestedCalls.step, hempty, List.isEmpty_nil, hlater, Bool.and_self, if_true]
    have hreached := Reached.step hstart hrun hstep
    rwa [hstack] at hreached
  enter := by
    rintro c w ks i _ ⟨m₀, labels, m, hstart, hrun, rfl, rfl, rfl⟩
    have hstep : NestedCalls.step P m (.call i) =
        some (settle m.clock m.world m.stack (P.enter m.clock m.world i)) := rfl
    exact keeps_of_settle (Reached.step hstart hrun hstep)
  resume := by
    rintro c w k ks ok ⟨m₀, labels, m, hstart, hrun, rfl, rfl, hstack⟩
    obtain ⟨frame, below, hframes, rfl, rfl⟩ := List.map_eq_cons_iff.mp hstack
    have hstep : NestedCalls.step P m (.answer ok) =
        some (settle m.clock frame.entry below (P.resume m.clock m.world frame.pending ok)) := by
      simp only [NestedCalls.step, hframes]
    exact keeps_of_settle (Reached.step hstart hrun hstep)

def Outcome.Suspends (Q : W → K → Prop) : Outcome ε W K → Prop
  | .suspend world pending => Q world pending
  | _ => False

theorem Suspends.imp {Q Q' : W → K → Prop} {outcome : Outcome ε W K} (h : outcome.Suspends Q)
    (himp : ∀ world pending, Q world pending → Q' world pending) : outcome.Suspends Q' := by
  cases outcome with
  | revert reason => exact h
  | done world => exact h
  | suspend world pending => exact himp world pending h

/-- If a busy call never reverts, and each answer to it leaves either the last call or one
    with fewer answers due, then any answers get to the last call. -/
theorem run_answers {Inv : Machine C W K → Prop} {busy : K → Prop} {due : K → ℕ}
    {last : W → K → Prop}
    (hinv : ∀ m m' ok, Inv m → step P m (.answer ok) = some m' → Inv m')
    (hpos : ∀ k, busy k → 0 < due k)
    (hresume : ∀ m frame below ok, Inv m → m.stack = frame :: below → busy frame.pending →
      (P.resume m.clock m.world frame.pending ok).Suspends fun world k =>
        last world k ∨ busy k ∧ due k < due frame.pending)
    {m : Machine C W K} {frame : Frame W K} {below : List (Frame W K)} (hm : Inv m)
    (hstack : m.stack = frame :: below) (hbusy : busy frame.pending) (answers : List Bool)
    (hlength : due frame.pending ≤ answers.length) :
    ∃ used m' k, used <+: answers ∧ run P m (used.map .answer) = some m' ∧
      m'.stack = ⟨frame.entry, k⟩ :: below ∧ last m'.world k := by
  induction answers generalizing m frame with
  | nil => exact absurd (hpos _ hbusy) (Nat.not_lt.mpr hlength)
  | cons ok answers ih =>
    have hout := hresume m frame below ok hm hstack hbusy
    have hstep : step P m (.answer ok) = some (settle m.clock frame.entry below
        (P.resume m.clock m.world frame.pending ok)) := by
      simp only [step, hstack]
    cases hresult : P.resume m.clock m.world frame.pending ok with
    | revert reason =>
      rw [hresult] at hout
      exact hout.elim
    | done world =>
      rw [hresult] at hout
      exact hout.elim
    | suspend world k =>
      rw [hresult] at hout hstep
      rcases hout with hlast | ⟨hbusy', hdue⟩
      · refine ⟨[ok], ⟨m.clock, world, ⟨frame.entry, k⟩ :: below⟩, k,
          List.prefix_append [ok] answers, ?_, rfl, hlast⟩
        exact run_cons.mpr ⟨_, hstep, rfl⟩
      · have hlength' : due k ≤ answers.length := by
          rw [List.length_cons] at hlength
          omega
        obtain ⟨used, m', k', hused, hrun, hstack', hlast⟩ :=
          ih (hinv _ _ ok hm hstep) rfl hbusy' hlength'
        refine ⟨ok :: used, m', k', ?_, run_cons.mpr ⟨_, hstep, hrun⟩, hstack', hlast⟩
        exact List.cons_prefix_cons.mpr ⟨rfl, hused⟩

end BoundedSpending.NestedCalls
