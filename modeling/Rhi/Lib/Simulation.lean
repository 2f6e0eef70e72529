import Mathlib.Logic.Relation
import Rhi.Lib.Transition

/-!
# Simulation of an abstract system

An abstraction maps the states of a system to the states of an abstract one.  The system simulates
the abstract one when every call is, seen through the abstraction, a run of abstract steps.  What
the abstract steps preserve then holds over every run of the system.
-/

universe u v w x

namespace Simulation

variable {Call : Type u} {State : Type v} {Abstract : Type w}

/-- Every call keeps the invariant, and is a run of abstract steps where the invariant holds. -/
structure Simulates (apply : Call → State → State) (invariant : State → Prop)
    (step : Abstract → Abstract → Prop) (abstraction : State → Abstract) : Prop where
  kept : ∀ call state, invariant state → invariant (apply call state)
  simulated : ∀ call state, invariant state →
    Relation.ReflTransGen step (abstraction state) (abstraction (apply call state))

variable {apply : Call → State → State} {invariant : State → Prop}
  {step : Abstract → Abstract → Prop} {abstraction : State → Abstract}

/-- A run of the system is a run of the abstract one. -/
theorem Simulates.exec (simulates : Simulates apply invariant step abstraction)
    (calls : List Call) {state : State} (initially : invariant state) :
    Relation.ReflTransGen step (abstraction state)
      (abstraction (Transition.exec apply calls state)) :=
  @Transition.exec_related Call State apply invariant
    (fun before after => Relation.ReflTransGen step (abstraction before) (abstraction after))
    simulates.kept (fun _ => .refl) (fun _ _ _ left right => left.trans right)
    simulates.simulated calls _ initially

/-- A property of the abstract states that every step preserves holds after a run. -/
theorem preserved {property : Abstract → Prop}
    (stable : ∀ before after, step before after → property before → property after)
    {first last : Abstract} (run : Relation.ReflTransGen step first last)
    (initially : property first) : property last := by
  induction run with
  | refl => exact initially
  | tail earlier next ih => exact stable _ _ next ih

/-- A system whose calls are at most one call of another one simulates what the other simulates. -/
theorem Simulates.comap {Inner : Type x} {Outer : Type*} {inner : Inner → Outer → Outer}
    {view : Outer → State} {called : Inner → Outer → Option Call}
    (simulates : Simulates apply invariant step abstraction)
    (calls : ∀ move outer, view (inner move outer) =
      (called move outer).elim (view outer) fun call => apply call (view outer)) :
    Simulates inner (fun outer => invariant (view outer)) step
      (fun outer => abstraction (view outer)) where
  kept move outer holds := by
    rw [calls]
    cases called move outer with
    | none => exact holds
    | some call => exact simulates.kept call _ holds
  simulated move outer holds := by
    simp only [calls]
    cases called move outer with
    | none => exact .refl
    | some call => exact simulates.simulated call _ holds

end Simulation
