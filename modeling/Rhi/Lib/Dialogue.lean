import Mathlib.Tactic.Common

/-!
# Dialogues

A client asks a server one request after the other until it has a result.  The server is arbitrary:
it may answer every call differently and never stop answering.  A dialogue ends because the client
comes closer to its result with every reply that it goes on from.
-/

namespace Dialogue

universe u

variable {State Request Reply Result : Type u}

/-- A client, by the number of the call: its request, or a result without one, and what it makes of
the reply. -/
structure Client (State Request Reply Result : Type u) where
  request : Nat → State → Except Result Request
  react : Nat → State → Request → Reply → State ⊕ Result

/-- The exchanges of at most so many calls and the result they end in. -/
def run (client : Client State Request Reply Result) (server : Nat → Request → Reply) :
    Nat → Nat → State → Option (List (Request × Reply) × Result)
  | 0, _, _ => none
  | fuel + 1, call, state =>
      match client.request call state with
      | .error result => some ([], result)
      | .ok request =>
          match client.react call state request (server call request) with
          | .inr result => some ([(request, server call request)], result)
          | .inl next => (run client server fuel (call + 1) next).map fun talk =>
              ((request, server call request) :: talk.1, talk.2)

variable {client : Client State Request Reply Result} {server : Nat → Request → Reply}

/-- More fuel does not change a dialogue. -/
theorem run_mono {fuel more call : Nat} {state : State} {talk : List (Request × Reply) × Result}
    (ended : run client server fuel call state = some talk) (enough : fuel ≤ more) :
    run client server more call state = some talk := by
  induction fuel generalizing more call state talk with
  | zero => cases ended
  | succ fuel ih =>
      rcases more with _ | more
      · omega
      · rw [run] at ended ⊢
        cases asked : client.request call state with
        | error result => simpa only [asked] using ended
        | ok request =>
            simp only [asked] at ended ⊢
            cases reaction : client.react call state request (server call request) with
            | inr result => simpa only [reaction] using ended
            | inl next =>
                simp only [reaction, Option.map_eq_some_iff] at ended ⊢
                rcases ended with ⟨rest, later, same⟩
                exact ⟨rest, ih later (by omega), same⟩

/-- A dialogue ends when a measure of its state falls with every reply it goes on from. -/
theorem exists_run (invariant : State → Prop) (measure : State → Nat)
    (falls : ∀ call state request next, invariant state → client.request call state = .ok request →
      client.react call state request (server call request) = .inl next →
        invariant next ∧ measure next < measure state)
    {state : State} (start : invariant state) (call : Nat) :
    ∃ talk, run client server (measure state + 1) call state = some talk := by
  induction size : measure state using Nat.strongRecOn generalizing state call with
  | ind bound ih =>
      subst size
      rw [run]
      cases asked : client.request call state with
      | error result => exact ⟨_, rfl⟩
      | ok request =>
          cases reaction : client.react call state request (server call request) with
          | inr result => exact ⟨([(request, server call request)], result), by simp [reaction]⟩
          | inl next =>
              rcases falls call state request next start asked reaction with ⟨kept, less⟩
              rcases ih (measure next) less kept (call + 1) rfl with ⟨talk, later⟩
              have enough := run_mono later (by omega : measure next + 1 ≤ measure state)
              exact ⟨((request, server call request) :: talk.1, talk.2), by
                simp [reaction, enough]⟩

/-- What holds of the state and the exchanges before it is kept by every reply, and decides what
holds at the end. -/
theorem run_spec (invariant : List (Request × Reply) → State → Prop)
    (property : List (Request × Reply) → Result → Prop)
    (refused : ∀ call earlier state result, invariant earlier state →
      client.request call state = .error result → property earlier result)
    (goesOn : ∀ call earlier state request next, invariant earlier state →
      client.request call state = .ok request →
      client.react call state request (server call request) = .inl next →
        invariant (earlier ++ [(request, server call request)]) next)
    (ends : ∀ call earlier state request result, invariant earlier state →
      client.request call state = .ok request →
      client.react call state request (server call request) = .inr result →
        property (earlier ++ [(request, server call request)]) result)
    {fuel call : Nat} {earlier exchanges : List (Request × Reply)} {state : State} {result : Result}
    (start : invariant earlier state)
    (ended : run client server fuel call state = some (exchanges, result)) :
    property (earlier ++ exchanges) result := by
  induction fuel generalizing call earlier exchanges state with
  | zero => cases ended
  | succ fuel ih =>
      rw [run] at ended
      cases asked : client.request call state with
      | error early =>
          simp only [asked, Option.some.injEq, Prod.mk.injEq] at ended
          rcases ended with ⟨rfl, rfl⟩
          simpa using refused call earlier state early start asked
      | ok request =>
          simp only [asked] at ended
          cases reaction : client.react call state request (server call request) with
          | inr final =>
              simp only [reaction, Option.some.injEq, Prod.mk.injEq] at ended
              rcases ended with ⟨rfl, rfl⟩
              exact ends call earlier state request final start asked reaction
          | inl next =>
              simp only [reaction, Option.map_eq_some_iff, Prod.mk.injEq] at ended
              rcases ended with ⟨talk, later, rfl, rfl⟩
              have kept := goesOn call earlier state request next start asked reaction
              simpa using ih kept later

end Dialogue
