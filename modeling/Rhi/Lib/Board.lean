import Mathlib.Algebra.Order.Ring.Nat
import Mathlib.Logic.Function.Basic
import Rhi.Lib.Simulation

/-!
# A board of work

The owners of a board keep work on it as tickets, one for each generation of their input.  A live
ticket is taken, given back or given up while its attempts last; opening a ticket supersedes the
live one of its owner; a finished ticket publishes one report.

On a sound board an owner has one live ticket at most, which is the newest, and reported the
generations of the finished tickets in increasing order.
-/

universe u v w

namespace Board

/-- Where the work of a ticket stands. -/
inductive Progress where
  | waiting
  | running
  | finished
  | failed
  | superseded
deriving DecidableEq, Repr

/-- Whether the work can still be taken up. -/
def Progress.live : Progress → Bool
  | .waiting | .running => true
  | .finished | .failed | .superseded => false

/-- One piece of work of an owner. -/
structure Ticket (Owner : Type u) where
  owner : Owner
  generation : Nat
  progress : Progress
  attempts : Nat
  maximum : Nat

variable {Key : Type u} {Owner : Type v} {Report : Type w}

namespace Ticket

/-- A ticket as it is opened. -/
def opened (owner : Owner) (generation maximum : Nat) : Ticket Owner :=
  ⟨owner, generation, .waiting, 0, maximum⟩

/-- A ticket whose work is done. -/
def finish (ticket : Ticket Owner) : Ticket Owner :=
  { ticket with progress := .finished }

/-- What opening a ticket of an owner leaves of another one. -/
def supersededFor [DecidableEq Owner] (owner : Owner) (ticket : Ticket Owner) : Ticket Owner :=
  if ticket.owner = owner ∧ ticket.progress.live = true then
    { ticket with progress := .superseded }
  else
    ticket

/-- What may happen to a ticket before it is finished or superseded. -/
inductive Moves (ticket : Ticket Owner) : Ticket Owner → Prop where
  | taken (live : ticket.progress.live = true) (room : ticket.attempts < ticket.maximum) :
      Moves ticket { ticket with progress := .running, attempts := ticket.attempts + 1 }
  | givenBack (running : ticket.progress = .running) (room : ticket.attempts < ticket.maximum) :
      Moves ticket { ticket with progress := .waiting }
  | givenUp (running : ticket.progress = .running) (spent : ticket.maximum ≤ ticket.attempts) :
      Moves ticket { ticket with progress := .failed }

/-- A ticket goes on as another one: the same work, with no attempt forgotten, and as it is once it
is settled. -/
structure GoesOn (before after : Ticket Owner) : Prop where
  owner : after.owner = before.owner
  generation : after.generation = before.generation
  maximum : after.maximum = before.maximum
  attempts : before.attempts ≤ after.attempts
  settled : before.progress.live = false → after = before

theorem GoesOn.refl (ticket : Ticket Owner) : ticket.GoesOn ticket :=
  ⟨rfl, rfl, rfl, le_rfl, fun _ => rfl⟩

theorem GoesOn.trans {first second third : Ticket Owner} (left : first.GoesOn second)
    (right : second.GoesOn third) : first.GoesOn third where
  owner := right.owner.trans left.owner
  generation := right.generation.trans left.generation
  maximum := right.maximum.trans left.maximum
  attempts := left.attempts.trans right.attempts
  settled stopped := by
    have same := left.settled stopped
    rw [← same] at stopped
    rw [right.settled stopped, same]

theorem Moves.live {before after : Ticket Owner} (moves : before.Moves after) :
    before.progress.live = true := by
  cases moves with
  | taken live room => exact live
  | givenBack running room => simp [running, Progress.live]
  | givenUp running spent => simp [running, Progress.live]

theorem Moves.goesOn {before after : Ticket Owner} (moves : before.Moves after) :
    before.GoesOn after := by
  have live := moves.live
  have kept : before.progress.live = false → after = before := by
    intro stopped
    rw [stopped] at live
    cases live
  cases moves with
  | taken alive room => exact ⟨rfl, rfl, rfl, Nat.le_succ _, kept⟩
  | givenBack running room => exact ⟨rfl, rfl, rfl, le_rfl, kept⟩
  | givenUp running spent => exact ⟨rfl, rfl, rfl, le_rfl, kept⟩

theorem Moves.attempts_le {before after : Ticket Owner} (moves : before.Moves after)
    (bounded : before.attempts ≤ before.maximum) : after.attempts ≤ after.maximum := by
  cases moves with
  | taken live room => exact room
  | givenBack running room => exact bounded
  | givenUp running spent => exact bounded

/-- A move neither finishes nor supersedes a ticket. -/
theorem Moves.progress {before after : Ticket Owner} (moves : before.Moves after) :
    after.progress ≠ .finished ∧ after.progress ≠ .superseded := by
  cases moves with
  | taken live room => simp
  | givenBack running room => simp
  | givenUp running spent => simp

theorem finish_goesOn {ticket : Ticket Owner} (running : ticket.progress = .running) :
    ticket.GoesOn ticket.finish := by
  refine ⟨rfl, rfl, rfl, le_rfl, ?_⟩
  intro stopped
  rw [running] at stopped
  cases stopped

variable [DecidableEq Owner]

theorem supersededFor_goesOn (owner : Owner) (ticket : Ticket Owner) :
    ticket.GoesOn (ticket.supersededFor owner) := by
  unfold supersededFor
  split
  · rename_i chosen
    refine ⟨rfl, rfl, rfl, le_rfl, ?_⟩
    intro stopped
    rw [chosen.2] at stopped
    cases stopped
  · exact .refl ticket

theorem supersededFor_attempts (owner : Owner) (ticket : Ticket Owner) :
    (ticket.supersededFor owner).attempts = ticket.attempts := by
  unfold supersededFor
  split <;> rfl

/-- The owner has no live ticket left. -/
theorem owner_ne_of_live {owner : Owner} {ticket : Ticket Owner}
    (live : (ticket.supersededFor owner).progress.live = true) : ticket.owner ≠ owner := by
  intro same
  unfold supersededFor at live
  split at live
  · cases live
  · rename_i spared
    exact spared ⟨same, live⟩

theorem finished_supersededFor_iff {owner : Owner} {ticket : Ticket Owner} :
    (ticket.supersededFor owner).progress = .finished ↔ ticket.progress = .finished := by
  unfold supersededFor
  split
  · rename_i chosen
    constructor
    · intro impossible
      cases impossible
    · intro finished
      simp [finished, Progress.live] at chosen
  · exact Iff.rfl

/-- A ticket is superseded as a ticket of its owner, or was superseded before. -/
theorem superseded_supersededFor {owner : Owner} {ticket : Ticket Owner}
    (superseded : (ticket.supersededFor owner).progress = .superseded) :
    ticket.owner = owner ∨ ticket.progress = .superseded := by
  unfold supersededFor at superseded
  split at superseded
  · rename_i chosen
    exact .inl chosen.1
  · exact .inr superseded

end Ticket

/-- A board: its tickets, and the reports each owner published with their generations. -/
@[ext]
structure State (Key : Type u) (Owner : Type v) (Report : Type w) where
  tickets : Key → Option (Ticket Owner)
  reports : Owner → List (Nat × Report)

/-- A board nobody opened a ticket on. -/
def State.empty : State Key Owner Report := ⟨fun _ => none, fun _ => []⟩

variable [DecidableEq Key] [DecidableEq Owner]

omit [DecidableEq Key] in
/-- The tickets that opening one of an owner leaves. -/
def State.supersededFor (board : State Key Owner Report) (owner : Owner) :
    Key → Option (Ticket Owner) :=
  fun key => (board.tickets key).map (Ticket.supersededFor owner)

/-- The steps of a board. -/
inductive Step (board : State Key Owner Report) : State Key Owner Report → Prop where
  | moved {key : Key} {before after : Ticket Owner} (found : board.tickets key = some before)
      (moves : before.Moves after) :
      Step board { board with tickets := Function.update board.tickets key (some after) }
  | opened {key : Key} {owner : Owner} {generation maximum : Nat}
      (fresh : board.tickets key = none)
      (newest : ∀ other ticket, board.tickets other = some ticket → ticket.owner = owner →
        ticket.generation < generation) :
      Step board { board with
        tickets := Function.update (board.supersededFor owner) key
          (some (.opened owner generation maximum)) }
  | finished {key : Key} {ticket : Ticket Owner} {report : Report}
      (found : board.tickets key = some ticket) (running : ticket.progress = .running) :
      Step board {
        tickets := Function.update board.tickets key (some ticket.finish)
        reports := Function.update board.reports ticket.owner
          (board.reports ticket.owner ++ [(ticket.generation, report)]) }

variable {board next : State Key Owner Report}

section Histories

/-- A board goes on as another one: its tickets do, and the reports are published for good. -/
structure GoesOn (before after : State Key Owner Report) : Prop where
  tickets : ∀ key ticket, before.tickets key = some ticket →
    ∃ later, after.tickets key = some later ∧ ticket.GoesOn later
  reports : ∀ owner, before.reports owner <+: after.reports owner

omit [DecidableEq Key] [DecidableEq Owner] in
theorem GoesOn.refl (board : State Key Owner Report) : GoesOn board board :=
  ⟨fun _ ticket found => ⟨ticket, found, .refl ticket⟩, fun _ => List.prefix_rfl⟩

omit [DecidableEq Key] [DecidableEq Owner] in
theorem GoesOn.trans {first second third : State Key Owner Report} (left : GoesOn first second)
    (right : GoesOn second third) : GoesOn first third where
  tickets key ticket found := by
    rcases left.tickets key ticket found with ⟨middle, present, before⟩
    rcases right.tickets key middle present with ⟨later, later_present, after⟩
    exact ⟨later, later_present, before.trans after⟩
  reports owner := (left.reports owner).trans (right.reports owner)

omit [DecidableEq Owner] in
/-- Replacing a ticket by one it goes on as. -/
theorem goesOn_update {tickets : Key → Option (Ticket Owner)} {key : Key} {old new : Ticket Owner}
    (found : tickets key = some old) (goesOn : old.GoesOn new) (other : Key)
    (ticket : Ticket Owner) (present : tickets other = some ticket) :
    ∃ later, Function.update tickets key (some new) other = some later ∧ ticket.GoesOn later := by
  by_cases same : other = key
  · subst same
    rw [found] at present
    cases present
    exact ⟨new, Function.update_self _ _ _, goesOn⟩
  · exact ⟨ticket, by rw [Function.update_of_ne same, present], .refl ticket⟩

theorem Step.goesOn (step : Step board next) : GoesOn board next := by
  cases step with
  | moved found moves => exact ⟨goesOn_update found moves.goesOn, fun _ => List.prefix_rfl⟩
  | @opened key owner generation maximum fresh newest =>
      refine ⟨?_, fun _ => List.prefix_rfl⟩
      intro other ticket present
      have apart : other ≠ key := by
        rintro rfl
        rw [fresh] at present
        cases present
      refine ⟨ticket.supersededFor owner, ?_, ticket.supersededFor_goesOn owner⟩
      simp [apart, present, State.supersededFor]
  | @finished key ticket report found running =>
      refine ⟨goesOn_update found (Ticket.finish_goesOn running), ?_⟩
      intro owner
      by_cases same : owner = ticket.owner
      · subst same
        simp
      · simp [same]

end Histories

section Soundness

omit [DecidableEq Key] [DecidableEq Owner]

/-- What holds on a board that started empty. -/
structure Sound (board : State Key Owner Report) : Prop where
  attempts : ∀ key ticket, board.tickets key = some ticket → ticket.attempts ≤ ticket.maximum
  distinct : ∀ left right first second, board.tickets left = some first →
    board.tickets right = some second → first.owner = second.owner →
      first.generation = second.generation → left = right
  newest : ∀ key other ticket earlier, board.tickets key = some ticket →
    board.tickets other = some earlier → ticket.progress.live = true →
      earlier.owner = ticket.owner → earlier.generation ≤ ticket.generation
  replaced : ∀ key ticket, board.tickets key = some ticket → ticket.progress = .superseded →
    ∃ other later, board.tickets other = some later ∧ later.owner = ticket.owner ∧
      ticket.generation < later.generation
  increasing : ∀ owner, (board.reports owner).Pairwise fun left right => left.1 < right.1
  reported : ∀ owner generation, generation ∈ (board.reports owner).map (·.1) ↔
    ∃ key ticket, board.tickets key = some ticket ∧ ticket.owner = owner ∧
      ticket.generation = generation ∧ ticket.progress = .finished

theorem sound_empty : Sound (State.empty : State Key Owner Report) where
  attempts _ _ found := by cases found
  distinct _ _ _ _ found := by cases found
  newest _ _ _ _ found := by cases found
  replaced _ _ found := by cases found
  increasing _ := .nil
  reported owner generation := by
    simp [State.empty]

/-- An owner has one live ticket at most. -/
theorem Sound.live_unique (sound : Sound board) {left right : Key} {first second : Ticket Owner}
    (leftFound : board.tickets left = some first) (rightFound : board.tickets right = some second)
    (leftLive : first.progress.live = true) (rightLive : second.progress.live = true)
    (same : first.owner = second.owner) : left = right := by
  have below := sound.newest left right first second leftFound rightFound leftLive same.symm
  have above := sound.newest right left second first rightFound leftFound rightLive same
  exact sound.distinct left right first second leftFound rightFound same (above.antisymm below)

/-- Every report of an owner is older than a live ticket of the same owner. -/
theorem Sound.reports_lt (sound : Sound board) {key : Key} {ticket : Ticket Owner}
    (found : board.tickets key = some ticket) (live : ticket.progress.live = true) :
    ∀ entry ∈ board.reports ticket.owner, entry.1 < ticket.generation := by
  intro entry entryMem
  rcases (sound.reported ticket.owner entry.1).mp (List.mem_map_of_mem entryMem) with
    ⟨other, earlier, otherFound, sameOwner, sameGeneration, finished⟩
  have below := sound.newest key other ticket earlier found otherFound live sameOwner
  rw [sameGeneration] at below
  refine lt_of_le_of_ne below ?_
  intro same
  have sameKey := sound.distinct other key earlier ticket otherFound found sameOwner
    (sameGeneration.trans same)
  rw [sameKey, found] at otherFound
  cases otherFound
  rw [finished] at live
  cases live

end Soundness

section Preservation

omit [DecidableEq Owner] in
theorem update_eq_some {tickets : Key → Option (Ticket Owner)} {key other : Key}
    {new ticket : Ticket Owner} :
    Function.update tickets key (some new) other = some ticket ↔
      (other = key ∧ ticket = new) ∨ (other ≠ key ∧ tickets other = some ticket) := by
  by_cases same : other = key
  · subst same
    simp [eq_comm]
  · simp [same]

/-- A ticket that a step opened: it is the newest of its owner, whose other tickets are settled. -/
structure Opened (board next : State Key Owner Report) (key : Key) (ticket : Ticket Owner) :
    Prop where
  waiting : ticket.progress = .waiting
  attempts : ticket.attempts = 0
  newest : ∀ other earlier, board.tickets other = some earlier → earlier.owner = ticket.owner →
    earlier.generation < ticket.generation
  only : ∀ other later, next.tickets other = some later → other ≠ key →
    (∃ earlier, board.tickets other = some earlier) ∧
      (later.owner = ticket.owner → later.progress.live = false)

/-- Where the tickets of a board come from. -/
theorem Step.origin (step : Step board next) {key : Key} {ticket : Ticket Owner}
    (found : next.tickets key = some ticket) :
    (∃ earlier, board.tickets key = some earlier ∧ earlier.GoesOn ticket) ∨
      Opened board next key ticket := by
  cases step with
  | @moved changed before after present moves =>
      rcases update_eq_some.mp found with ⟨rfl, rfl⟩ | ⟨-, old⟩
      · exact .inl ⟨before, present, moves.goesOn⟩
      · exact .inl ⟨ticket, old, .refl ticket⟩
  | @opened fresh owner generation maximum absent newest =>
      rcases update_eq_some.mp found with ⟨rfl, rfl⟩ | ⟨-, old⟩
      · refine .inr ⟨rfl, rfl, newest, ?_⟩
        intro other later present apart
        rcases update_eq_some.mp present with ⟨same, -⟩ | ⟨-, kept⟩
        · exact absurd same apart
        · rcases Option.map_eq_some_iff.mp kept with ⟨earlier, earlierFound, rfl⟩
          refine ⟨⟨earlier, earlierFound⟩, ?_⟩
          intro sameOwner
          have goesOn := earlier.supersededFor_goesOn owner
          cases live : (earlier.supersededFor owner).progress.live with
          | false => rfl
          | true => exact absurd (goesOn.owner.symm.trans sameOwner) (Ticket.owner_ne_of_live live)
      · rcases Option.map_eq_some_iff.mp old with ⟨earlier, earlierFound, rfl⟩
        exact .inl ⟨earlier, earlierFound, earlier.supersededFor_goesOn owner⟩
  | @finished changed before report present running =>
      rcases update_eq_some.mp found with ⟨rfl, rfl⟩ | ⟨-, old⟩
      · exact .inl ⟨before, present, Ticket.finish_goesOn running⟩
      · exact .inl ⟨ticket, old, .refl ticket⟩

omit [DecidableEq Owner] in
theorem Ticket.GoesOn.live {before after : Ticket Owner} (goesOn : before.GoesOn after)
    (live : after.progress.live = true) : before.progress.live = true := by
  cases stopped : before.progress.live with
  | true => rfl
  | false =>
      rw [goesOn.settled stopped, stopped] at live
      cases live

theorem Step.attempts (step : Step board next) (sound : Sound board) :
    ∀ key ticket, next.tickets key = some ticket → ticket.attempts ≤ ticket.maximum := by
  intro key ticket found
  cases step with
  | @moved changed before after present moves =>
      rcases update_eq_some.mp found with ⟨rfl, rfl⟩ | ⟨-, old⟩
      · exact moves.attempts_le (sound.attempts _ _ present)
      · exact sound.attempts _ _ old
  | @opened fresh owner generation maximum absent newest =>
      rcases update_eq_some.mp found with ⟨rfl, rfl⟩ | ⟨-, old⟩
      · exact Nat.zero_le _
      · rcases Option.map_eq_some_iff.mp old with ⟨earlier, earlierFound, rfl⟩
        rw [Ticket.supersededFor_attempts, (earlier.supersededFor_goesOn owner).maximum]
        exact sound.attempts _ _ earlierFound
  | @finished changed before report present running =>
      rcases update_eq_some.mp found with ⟨rfl, rfl⟩ | ⟨-, old⟩
      · have bounded := sound.attempts _ _ present
        exact bounded
      · exact sound.attempts _ _ old

theorem Step.distinct (step : Step board next) (sound : Sound board) :
    ∀ left right first second, next.tickets left = some first → next.tickets right = some second →
      first.owner = second.owner → first.generation = second.generation → left = right := by
  intro left right first second leftFound rightFound sameOwner sameGeneration
  rcases step.origin leftFound with ⟨former, formerFound, goesOn⟩ | opened
  · rcases step.origin rightFound with ⟨other, otherFound, otherGoesOn⟩ | opened
    · refine sound.distinct left right former other formerFound otherFound ?_ ?_
      · rw [← goesOn.owner, sameOwner, otherGoesOn.owner]
      · rw [← goesOn.generation, sameGeneration, otherGoesOn.generation]
    · have below := opened.newest left former formerFound (goesOn.owner.symm.trans sameOwner)
      rw [← sameGeneration, goesOn.generation] at below
      exact absurd below (lt_irrefl _)
  · by_cases same : right = left
    · exact same.symm
    · rcases step.origin rightFound with ⟨other, otherFound, otherGoesOn⟩ | again
      · have below := opened.newest right other otherFound
          (otherGoesOn.owner.symm.trans sameOwner.symm)
        rw [sameGeneration, otherGoesOn.generation] at below
        exact absurd below (lt_irrefl _)
      · rcases (opened.only right second rightFound same).1 with ⟨earlier, earlierFound⟩
        have below := again.newest right earlier earlierFound
        have settled := (opened.only right second rightFound same).2 sameOwner.symm
        rw [again.waiting] at settled
        cases settled

theorem Step.newest (step : Step board next) (sound : Sound board) :
    ∀ key other ticket earlier, next.tickets key = some ticket →
      next.tickets other = some earlier → ticket.progress.live = true →
        earlier.owner = ticket.owner → earlier.generation ≤ ticket.generation := by
  intro key other ticket earlier found otherFound live sameOwner
  rcases step.origin found with ⟨former, formerFound, goesOn⟩ | opened
  · rcases step.origin otherFound with ⟨old, oldFound, oldGoesOn⟩ | opened
    · rw [oldGoesOn.generation, goesOn.generation]
      refine sound.newest key other former old formerFound oldFound (goesOn.live live) ?_
      rw [← oldGoesOn.owner, sameOwner, goesOn.owner]
    · by_cases same : key = other
      · rw [same, otherFound] at found
        cases found
        exact le_rfl
      · have settled := (opened.only key ticket found same).2 sameOwner.symm
        rw [settled] at live
        cases live
  · by_cases same : other = key
    · rw [same, found] at otherFound
      cases otherFound
      exact le_rfl
    · rcases step.origin otherFound with ⟨old, oldFound, oldGoesOn⟩ | again
      · have below := opened.newest other old oldFound (oldGoesOn.owner.symm.trans sameOwner)
        rw [oldGoesOn.generation]
        exact below.le
      · have settled := (opened.only other earlier otherFound same).2 sameOwner
        rw [again.waiting] at settled
        cases settled

theorem Step.replaced (step : Step board next) (sound : Sound board) :
    ∀ key ticket, next.tickets key = some ticket → ticket.progress = .superseded →
      ∃ other later, next.tickets other = some later ∧ later.owner = ticket.owner ∧
        ticket.generation < later.generation := by
  intro key ticket found superseded
  have before : board.tickets key = some ticket → ∃ other later,
      next.tickets other = some later ∧ later.owner = ticket.owner ∧
        ticket.generation < later.generation := by
    intro old
    rcases sound.replaced key ticket old superseded with ⟨other, later, present, owner, newer⟩
    rcases step.goesOn.tickets other later present with ⟨last, lastFound, goesOn⟩
    refine ⟨other, last, lastFound, goesOn.owner.trans owner, ?_⟩
    rw [goesOn.generation]
    exact newer
  cases step with
  | @moved changed old new present moves =>
      rcases update_eq_some.mp found with ⟨rfl, rfl⟩ | ⟨-, kept⟩
      · exact absurd superseded moves.progress.2
      · exact before kept
  | @opened fresh owner generation maximum absent newest =>
      rcases update_eq_some.mp found with ⟨rfl, rfl⟩ | ⟨-, kept⟩
      · cases superseded
      · rcases Option.map_eq_some_iff.mp kept with ⟨earlier, earlierFound, rfl⟩
        have goesOn := earlier.supersededFor_goesOn owner
        cases live : earlier.progress.live with
        | false =>
            refine before ?_
            rw [goesOn.settled live]
            exact earlierFound
        | true =>
            rcases Ticket.superseded_supersededFor superseded with sameOwner | already
            · refine ⟨fresh, .opened owner generation maximum, Function.update_self _ _ _, ?_, ?_⟩
              · rw [goesOn.owner, sameOwner]
                rfl
              · rw [goesOn.generation]
                exact newest key earlier earlierFound sameOwner
            · rw [already] at live
              cases live
  | @finished changed old report present running =>
      rcases update_eq_some.mp found with ⟨rfl, rfl⟩ | ⟨-, kept⟩
      · cases superseded
      · exact before kept

theorem Step.increasing (step : Step board next) (sound : Sound board) :
    ∀ owner, (next.reports owner).Pairwise fun left right => left.1 < right.1 := by
  intro owner
  cases step with
  | moved present moves => exact sound.increasing owner
  | opened absent newest => exact sound.increasing owner
  | @finished changed ticket report present running =>
      by_cases same : owner = ticket.owner
      · subst same
        have live : ticket.progress.live = true := by simp [running, Progress.live]
        simp only [Function.update_self]
        refine List.pairwise_append.mpr ⟨sound.increasing _, List.pairwise_singleton _ _, ?_⟩
        intro entry entryMem last lastMem
        rw [List.mem_singleton.mp lastMem]
        exact sound.reports_lt present live entry entryMem
      · simp only [Function.update_of_ne same]
        exact sound.increasing owner

theorem Step.reported (step : Step board next) (sound : Sound board) :
    ∀ owner generation, generation ∈ (next.reports owner).map (·.1) ↔
      ∃ key ticket, next.tickets key = some ticket ∧ ticket.owner = owner ∧
        ticket.generation = generation ∧ ticket.progress = .finished := by
  intro owner generation
  cases step with
  | @moved changed before after present moves =>
      simp only [sound.reported]
      constructor
      · rintro ⟨key, ticket, found, sameOwner, sameGeneration, finished⟩
        refine ⟨key, ticket, update_eq_some.mpr (.inr ⟨?_, found⟩), sameOwner, sameGeneration,
          finished⟩
        rintro rfl
        rw [present] at found
        cases found
        have live := moves.live
        rw [finished] at live
        cases live
      · rintro ⟨key, ticket, found, sameOwner, sameGeneration, finished⟩
        rcases update_eq_some.mp found with ⟨rfl, rfl⟩ | ⟨-, kept⟩
        · exact absurd finished moves.progress.1
        · exact ⟨key, ticket, kept, sameOwner, sameGeneration, finished⟩
  | @opened fresh opener number maximum absent newest =>
      simp only [sound.reported]
      constructor
      · rintro ⟨key, ticket, found, sameOwner, sameGeneration, finished⟩
        have goesOn := ticket.supersededFor_goesOn opener
        refine ⟨key, ticket.supersededFor opener, update_eq_some.mpr (.inr ⟨?_, ?_⟩),
          goesOn.owner.trans sameOwner, goesOn.generation.trans sameGeneration,
          Ticket.finished_supersededFor_iff.mpr finished⟩
        · rintro rfl
          rw [absent] at found
          cases found
        · simp [State.supersededFor, found]
      · rintro ⟨key, ticket, found, sameOwner, sameGeneration, finished⟩
        rcases update_eq_some.mp found with ⟨rfl, rfl⟩ | ⟨-, kept⟩
        · cases finished
        · rcases Option.map_eq_some_iff.mp kept with ⟨earlier, earlierFound, rfl⟩
          have goesOn := earlier.supersededFor_goesOn opener
          exact ⟨key, earlier, earlierFound, goesOn.owner.symm.trans sameOwner,
            goesOn.generation.symm.trans sameGeneration,
            Ticket.finished_supersededFor_iff.mp finished⟩
  | @finished changed done report present running =>
      have before := sound.reported owner generation
      have stays : ∀ key ticket, board.tickets key = some ticket → ticket.progress = .finished →
          key ≠ changed := by
        rintro key ticket found finished rfl
        rw [present] at found
        cases found
        rw [running] at finished
        cases finished
      constructor
      · intro published
        by_cases same : owner = done.owner
        · subst same
          simp only [Function.update_self, List.map_append, List.mem_append] at published
          rcases published with earlier | last
          · rcases before.mp earlier with ⟨key, ticket, found, sameOwner, sameGeneration, finished⟩
            exact ⟨key, ticket, update_eq_some.mpr (.inr ⟨stays key ticket found finished, found⟩),
              sameOwner, sameGeneration, finished⟩
          · refine ⟨changed, done.finish, Function.update_self _ _ _, rfl, ?_, rfl⟩
            exact (List.mem_singleton.mp last).symm
        · simp only [Function.update_of_ne same] at published
          rcases before.mp published with
            ⟨key, ticket, found, sameOwner, sameGeneration, finished⟩
          exact ⟨key, ticket, update_eq_some.mpr (.inr ⟨stays key ticket found finished, found⟩),
            sameOwner, sameGeneration, finished⟩
      · rintro ⟨key, ticket, found, sameOwner, sameGeneration, finished⟩
        rcases update_eq_some.mp found with ⟨rfl, rfl⟩ | ⟨-, kept⟩
        · have sameOwner' : owner = done.owner := sameOwner.symm
          subst sameOwner'
          simp only [Function.update_self, List.map_append, List.mem_append]
          exact .inr (List.mem_singleton.mpr sameGeneration.symm)
        · have earlier := before.mpr ⟨key, ticket, kept, sameOwner, sameGeneration, finished⟩
          by_cases same : owner = done.owner
          · subst same
            simp only [Function.update_self, List.map_append, List.mem_append]
            exact .inl earlier
          · simp only [Function.update_of_ne same]
            exact earlier

/-- A step keeps a board sound. -/
theorem Step.sound (step : Step board next) (sound : Sound board) : Sound next where
  attempts := step.attempts sound
  distinct := step.distinct sound
  newest := step.newest sound
  replaced := step.replaced sound
  increasing := step.increasing sound
  reported := step.reported sound

theorem sound_run (run : Relation.ReflTransGen Step board next) (sound : Sound board) :
    Sound next :=
  Simulation.preserved (fun _ _ step before => step.sound before) run sound

theorem goesOn_run (run : Relation.ReflTransGen Step board next) : GoesOn board next := by
  induction run with
  | refl => exact .refl board
  | tail earlier step ih => exact ih.trans step.goesOn

end Preservation

section Runs

/-- Boards whose tickets differ at the listed keys alone, by one move each, are the ends of a
run. -/
theorem run_of_moves (keys : List Key) {tickets : Key → Option (Ticket Owner)}
    (others : ∀ key, key ∉ keys → tickets key = board.tickets key)
    (moves : ∀ key ∈ keys, tickets key = board.tickets key ∨
      ∃ before after, board.tickets key = some before ∧ tickets key = some after ∧
        before.Moves after) :
    Relation.ReflTransGen Step board { board with tickets } := by
  induction keys generalizing board with
  | nil =>
      have same : tickets = board.tickets := funext fun key => others key List.not_mem_nil
      rw [same]
  | cons key keys ih =>
      have rest : Relation.ReflTransGen Step
          { board with tickets := Function.update board.tickets key (tickets key) }
          { board with tickets } := by
        refine @ih { board with tickets := Function.update board.tickets key (tickets key) } ?_ ?_
        · intro other otherMem
          by_cases same : other = key
          · subst same
            simp
          · simp only [Function.update_of_ne same]
            exact others other (by simp [same, otherMem])
        · intro other otherMem
          by_cases same : other = key
          · subst same
            exact .inl (by simp)
          · simp only [Function.update_of_ne same]
            exact moves other (List.mem_cons_of_mem _ otherMem)
      rcases moves key List.mem_cons_self with same | ⟨before, after, found, moved, moves⟩
      · rw [same, Function.update_eq_self] at rest
        exact rest
      · rw [moved] at rest
        exact .head (.moved found moves) rest

end Runs

end Board
