import Rhi.Daemon.Dirty
import Rhi.Service.Board

/-!
# The board under the daemon

Whatever the order of its moves, the daemon works on the board of its store.  Where no generation
moves unscheduled, a trade at rest is reported up to its current generation, or the job of this
generation waits for another attempt or has none left.
-/

namespace Rhi

open Relational Transactional

section Interleavings

variable [Sha256] [TradeEvidence]

/-- The daemon simulates the board of its store. -/
theorem daemon_simulates_board : Simulation.Simulates Daemon.apply
    (fun daemon => daemon.service.Boarded) Board.Step fun daemon => daemon.service.store.board :=
  simulates_board.comap service_apply

theorem boarded_daemon (moves : List Move) : (Daemon.exec moves .initial).service.Boarded :=
  service_invariant Service.Boarded boarded_apply moves boarded_initial

theorem reportsFollow_daemon (moves : List Move) (trade : TradeId) :
    ReportsFollow trade (Daemon.exec moves .initial).store := by
  have initially : Daemon.initial.service.Boarded := boarded_initial
  exact .of_sound (boarded_daemon moves)
    (sound_of_run (daemon_simulates_board.exec moves initially)) trade

/-- After every interleaving of the moves of the daemon the reports of every trade follow its jobs,
and later moves only add reports. -/
theorem daemon_reports_follow_jobs (moves : List Move) (trade : TradeId) :
    ReportsFollow trade (Daemon.exec moves .initial).store ∧
    ∀ later, reportedBy trade (Daemon.exec moves .initial).store <+:
      reportedBy trade (Daemon.exec later (Daemon.exec moves .initial)).store := by
  refine ⟨reportsFollow_daemon moves trade, ?_⟩
  intro later
  exact reportedBy_grows (daemon_simulates_board.exec later (boarded_daemon moves)) trade

end Interleavings

section Currency

/-- An increasing list that reaches its bound ends there. -/
theorem getLast?_of_increasing {Entry : Type} {entries : List (Nat × Entry)} {bound : Nat}
    (increasing : entries.Pairwise fun left right => left.1 < right.1)
    (bounded : ∀ entry ∈ entries, entry.1 ≤ bound) (reached : bound ∈ entries.map (·.1)) :
    entries.getLast?.map (·.1) = some bound := by
  rcases List.mem_map.mp reached with ⟨entry, entryMem, rfl⟩
  rcases List.eq_nil_or_concat entries with rfl | ⟨front, last, rfl⟩
  · cases entryMem
  · rw [List.concat_eq_append] at increasing bounded entryMem ⊢
    rcases List.mem_append.mp entryMem with earlier | latest
    · have below := (List.pairwise_append.mp increasing).2.2 entry earlier last
        (List.mem_singleton_self _)
      have above := bounded last (List.mem_append_right _ (List.mem_singleton_self _))
      exact absurd below above.not_gt
    · rw [List.mem_singleton.mp latest]
      simp

/-- The job of the current generation is complete exactly when the reports end with this
generation. -/
theorem ReportsFollow.completed_iff {store : Store} {trade : TradeId}
    (follows : ReportsFollow trade store) {dirty : DirtyRow}
    (read : readDirty store trade = some dirty) {job : JobRow} (jobMem : job ∈ store.jobs.rows)
    (sameTrade : job.tradeId = trade) (current : job.inputGeneration = dirty.generation) :
    job.state = .completed ↔
      (reportedBy trade store).getLast?.map (·.1) = some dirty.generation := by
  have generation : dirtyGeneration store trade = dirty.generation := by
    simp [dirtyGeneration, read]
  constructor
  · intro complete
    refine getLast?_of_increasing follows.increasing ?_
      ((follows.completed _).mpr ⟨job, jobMem, sameTrade, current, complete⟩)
    rw [← generation]
    exact follows.current
  · intro ends
    rcases Option.map_eq_some_iff.mp ends with ⟨entry, last, same⟩
    have reported : dirty.generation ∈ (reportedBy trade store).map (·.1) := by
      rw [← same]
      exact List.mem_map_of_mem (List.mem_of_getLast? last)
    rcases (follows.completed _).mp reported with
      ⟨other, otherMem, otherTrade, otherGeneration, complete⟩
    rw [follows.distinct job jobMem other otherMem sameTrade otherTrade
      (current.trans otherGeneration.symm)]
    exact complete

variable [Sha256] [TradeEvidence]

/-- A run whose moves advance no generation unscheduled, at rest: every dirty trade has the job of
its generation, nothing replaces this job, and it is complete exactly when the reports of the trade
end with this generation. -/
theorem reports_current_at_rest {moves : List Move}
    (met : Transition.Along Daemon.apply (fun daemon move => move.Schedules daemon) moves .initial)
    (resting : (Daemon.exec moves .initial).Resting) {trade : TradeId} {dirty : DirtyRow}
    (read : readDirty (Daemon.exec moves .initial).store trade = some dirty) :
    ∃ job ∈ (Daemon.exec moves .initial).store.jobs.rows, job.tradeId = trade ∧
      job.inputGeneration = dirty.generation ∧ job.state ≠ .superseded ∧
      (job.state = .completed ↔
        (reportedBy trade (Daemon.exec moves .initial).store).getLast?.map (·.1) =
          some dirty.generation) := by
  have covered : (Daemon.exec moves .initial).Covered :=
    met.invariant (fun move daemon met covered => covered_apply move daemon met covered)
      covered_initial
  rcases covered.jobCovers resting trade dirty read with ⟨job, jobMem, sameTrade, current, -⟩
  refine ⟨job, jobMem, sameTrade, current, ?_,
    (reportsFollow_daemon moves trade).completed_iff read jobMem sameTrade current⟩
  intro superseded
  rcases (boarded_daemon moves).behind job jobMem with ⟨own, ownRead, ordered⟩
  have same : own = dirty := by
    rw [sameTrade] at ownRead
    exact Option.some.inj (ownRead.symm.trans read)
  have later := ordered.superseded superseded
  rw [same, current] at later
  exact lt_irrefl _ later

end Currency

section Samples

namespace Sample.Reported

local instance : Sha256 := ⟨Hashing.sha256⟩

local instance : TradeEvidence := evidence

theorem proposal_fits :
    proposal.event.canonicalEventJson.length ≤ proposal.rawLength := by
  decide

/-- The relay returns the delivered proposal on its only page. -/
def redelivered : Visit where
  started := claimedAt
  answers := [.page ⟨.complete, [⟨wire proposal proposal_fits, 1000001500⟩], .complete⟩]
  finished := finalizedAt

/-- The replay of the visit: one fact, which is stored already. -/
def known : SealedReplay where
  replay := { replay with
    result := ⟨request.id, .complete, 1000001000, 1000002000, 1, 2⟩
    cursorCandidate := some proposal.event.cursor
    firstObservedAt := some decision.observedAt
    facts := [{ proposal.fact with observedAt := decision.observedAt }] }
  same_trade := by
    intro fact factMem
    rw [List.mem_singleton.mp factMem]
    rfl

def signedReport : SignedReport where
  issuerPublicKey := 0x33#256
  statementDigest := 0xb1#256
  canonicalReport := [2]
  reportObservedAt := 1000002
  eventId := 0xb2#256
  signedEventDigest := 0xb3#256
  signedEvent := [3]

def fetched : List Move := proposed ++ [
  .worker (.claim .acknowledged claimedAt),
  .worker (.fetch .acknowledged redelivered)]

/-- The attempt is finalized. -/
def reported : List Move := fetched ++ [
  .worker (.commitReplays .acknowledged),
  .worker (.prepare .acknowledged 1000002 finalizedAt),
  .worker (.attest .acknowledged (some signedReport)),
  .worker (.finalize .acknowledged)]

/-- The delivered evidence is reported at rest. -/
theorem reported_is_current :
    (Daemon.exec reported .initial).running = some ⟨setting, .idle, .idle⟩ ∧
    (reportedBy trade (Daemon.exec reported .initial).store).map (·.1) = [1] ∧
    ∃ job ∈ (Daemon.exec reported .initial).store.jobs.rows, job.tradeId = trade ∧
      job.inputGeneration = 1 ∧ job.state ≠ .superseded ∧
      (job.state = .completed ↔
        (reportedBy trade (Daemon.exec reported .initial).store).getLast?.map (·.1) = some 1) := by
  have reading : (Daemon.exec fetched .initial).running =
      some ⟨setting, .fetching lease plan [] [known], .idle⟩ := by
    decide +kernel
  have stored : ∀ fact ∈ known.replay.facts,
      fact.record.mutationRow ∈ (Daemon.exec fetched .initial).store.mutations.rows ∧
        fact.record.eventRow ∈ (Daemon.exec fetched .initial).store.events.rows := by
    decide +kernel
  have ended : (Daemon.exec reported .initial).running = some ⟨setting, .idle, .idle⟩ ∧
      readDirty (Daemon.exec reported .initial).store trade =
        some ⟨trade, 1, policy, 1000000⟩ ∧
      (reportedBy trade (Daemon.exec reported .initial).store).map (·.1) = [1] := by
    decide +kernel
  have delivered : Transition.Along Daemon.apply (fun daemon move => move.Schedules daemon)
      fetched .initial :=
    ⟨trivial, trivial, trivial, trivial, trivial, trivial, trivial⟩
  have committed : Move.Schedules (Daemon.exec fetched .initial)
      (.worker (.commitReplays .acknowledged)) := by
    refine .inl ?_
    intro running started held planned replays phase entry entryMem
    rw [reading] at started
    cases started
    rw [← (Worker.fetching.inj phase).2.2.2] at entryMem
    rw [List.mem_singleton.mp entryMem]
    exact stored
  have met : Transition.Along Daemon.apply (fun daemon move => move.Schedules daemon)
      reported .initial :=
    Transition.Along.append.mpr ⟨delivered, committed, trivial, trivial, trivial, trivial⟩
  have resting : (Daemon.exec reported .initial).Resting := by
    intro running isRunning
    rw [ended.1] at isRunning
    cases isRunning
    exact ⟨rfl, rfl⟩
  exact ⟨ended.1, ended.2.2, reports_current_at_rest met resting ended.2.1⟩

example :
  (known.replay.facts.map (·.originalBytes)).sum = known.replay.result.acceptedEventBytes := by
  decide +kernel

end Sample.Reported

end Samples

end Rhi
