import Mathlib.Tactic.Common

/-!
# Runs of a store

A system is a function that applies one call to a state.  A run is a list of calls, and what every
call preserves is preserved by every run.
-/

universe u v

namespace Transition

variable {Call : Type u} {State : Type v}

/-- The state after a run. -/
def exec (apply : Call → State → State) (calls : List Call) (state : State) : State :=
  calls.foldl (fun current call => apply call current) state

variable {apply : Call → State → State}

@[simp]
theorem exec_nil (state : State) : exec apply [] state = state := rfl

@[simp]
theorem exec_cons (call : Call) (calls : List Call) (state : State) :
    exec apply (call :: calls) state = exec apply calls (apply call state) := rfl

@[simp]
theorem exec_append (first second : List Call) (state : State) :
    exec apply (first ++ second) state = exec apply second (exec apply first state) := by
  simp [exec, List.foldl_append]

/-- An invariant kept by every call holds after every run. -/
theorem exec_invariant (invariant : State → Prop)
    (kept : ∀ call state, invariant state → invariant (apply call state))
    (calls : List Call) {state : State} (initially : invariant state) :
    invariant (exec apply calls state) := by
  induction calls generalizing state with
  | nil => exact initially
  | cons call calls ih => exact ih (kept call state initially)

/-- A reflexive and transitive relation between the state before and after every call relates
the ends of every run that starts in an invariant state. -/
theorem exec_related {invariant : State → Prop} {related : State → State → Prop}
    (kept : ∀ call state, invariant state → invariant (apply call state))
    (reflexive : ∀ state, related state state)
    (transitive : ∀ first second third, related first second → related second third →
      related first third)
    (stepped : ∀ call state, invariant state → related state (apply call state))
    (calls : List Call) {state : State} (initially : invariant state) :
    related state (exec apply calls state) := by
  induction calls generalizing state with
  | nil => exact reflexive state
  | cons call calls ih =>
      exact transitive _ _ _ (stepped call state initially) (ih (kept call state initially))

/-- Every call of a run meets a condition on the state it is made in. -/
def Along (apply : Call → State → State) (condition : State → Call → Prop) :
    List Call → State → Prop
  | [], _ => True
  | call :: calls, state =>
      condition state call ∧ Along apply condition calls (apply call state)

variable {condition : State → Call → Prop}

theorem Along.append {first second : List Call} {state : State} :
    Along apply condition (first ++ second) state ↔
      Along apply condition first state ∧
        Along apply condition second (exec apply first state) := by
  induction first generalizing state with
  | nil => simp [Along]
  | cons call calls ih => simp [Along, ih, and_assoc]

/-- A condition on the calls alone is met along a run of such calls. -/
theorem Along.of_forall_mem {admitted : Call → Prop} {calls : List Call} {state : State}
    (met : ∀ call ∈ calls, admitted call) : Along apply (fun _ => admitted) calls state := by
  induction calls generalizing state with
  | nil => trivial
  | cons call calls ih =>
      exact ⟨met call (by simp), ih fun later laterMem => met later (by simp [laterMem])⟩

/-- An invariant kept by every call that meets the condition holds after every run along it. -/
theorem Along.invariant {invariant : State → Prop}
    (kept : ∀ call state, condition state call → invariant state → invariant (apply call state))
    {calls : List Call} {state : State} (met : Along apply condition calls state)
    (initially : invariant state) : invariant (exec apply calls state) := by
  induction calls generalizing state with
  | nil => exact initially
  | cons call calls ih => exact ih met.2 (kept call state met.1 initially)

/-- The invariant also holds in every state the run passes through. -/
theorem Along.invariant_of_isPrefix {invariant : State → Prop}
    (kept : ∀ call state, condition state call → invariant state → invariant (apply call state))
    {calls before : List Call} {state : State} (met : Along apply condition calls state)
    (initially : invariant state) (reached : before <+: calls) :
    invariant (exec apply before state) := by
  rcases reached with ⟨after, rfl⟩
  exact Along.invariant kept (Along.append.mp met).1 initially

/-- Where a call keeps a property exactly when it meets the condition, the property holds all along
a run exactly when the run is along the condition. -/
theorem along_iff {invariant property : State → Prop}
    (kept : ∀ call state, invariant state → invariant (apply call state))
    (exactly : ∀ call state, invariant state → property state →
      (property (apply call state) ↔ condition state call))
    (calls : List Call) {state : State} (initially : invariant state) (holds : property state) :
    (∀ before, before <+: calls → property (exec apply before state)) ↔
      Along apply condition calls state := by
  induction calls generalizing state with
  | nil => simpa [Along] using holds
  | cons call calls ih =>
      have step := exactly call state initially holds
      constructor
      · intro always
        have next : property (apply call state) := always [call] ⟨calls, rfl⟩
        refine ⟨step.mp next, (ih (kept call state initially) next).mp ?_⟩
        intro before reached
        exact always (call :: before) (List.cons_prefix_cons.mpr ⟨rfl, reached⟩)
      · rintro ⟨met, rest⟩ before reached
        cases before with
        | nil => exact holds
        | cons first before =>
            rcases List.cons_prefix_cons.mp reached with ⟨rfl, further⟩
            exact (ih (kept first state initially) (step.mpr met)).mpr rest before further

/-- A property that appears during a run appears at one of its calls. -/
theorem exec_appears (property : State → Prop) (calls : List Call) {state : State}
    (absent : ¬property state) (present : property (exec apply calls state)) :
    ∃ before call after, calls = before ++ call :: after ∧
      ¬property (exec apply before state) ∧ property (apply call (exec apply before state)) := by
  induction calls generalizing state with
  | nil => exact absurd present absent
  | cons call calls ih =>
      by_cases now : property (apply call state)
      · exact ⟨[], call, calls, rfl, absent, now⟩
      · rcases ih now present with ⟨before, next, after, rfl, still, then_⟩
        exact ⟨call :: before, next, after, rfl, still, then_⟩

end Transition
