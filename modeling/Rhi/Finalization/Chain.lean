import Rhi.Daemon
import Rhi.Lib.Succession
import Rhi.Finalization.Durable

/-!
# The reports of a trade

A report names the statement it supersedes.  As long as every finalization names the last report of
its trade, the reports of a trade form one succession, and the query for the report to supersede
finds its last member.
-/

namespace Rhi

open Relational Transactional Succession

section Reports

/-- The reports of a trade in the order they were inserted. -/
def reportsOf (trade : TradeId) (store : Store) : List ReportRow :=
  store.reports.rows.filter fun report => report.tradeId == trade

/-- The statement a report supersedes. -/
def ReportRow.superseded (report : ReportRow) : Option Digest :=
  report.supersedes.map (·.1)

/-- The reports of every trade are one succession, and every report has a signed event. -/
structure ReportsLinked (store : Store) : Prop where
  linked : ∀ trade, Linked ReportRow.statementDigest ReportRow.superseded (reportsOf trade store)
  signed : ∀ report ∈ store.reports.rows, ∃ event ∈ store.signedEvents.rows,
    event.statementDigest = report.statementDigest

theorem ReportsLinked.of_same {before after : Store} (linked : ReportsLinked before)
    (reports : after.reports = before.reports) (events : after.signedEvents = before.signedEvents) :
    ReportsLinked after := by
  refine ⟨fun trade => ?_, ?_⟩
  · simp only [reportsOf, reports]
    exact linked.linked trade
  · rw [reports, events]
    exact linked.signed

theorem mem_reportsOf {trade : TradeId} {store : Store} {report : ReportRow} :
    report ∈ reportsOf trade store ↔ report ∈ store.reports.rows ∧ report.tradeId = trade := by
  simp [reportsOf]

theorem attestationReports_clash_comm (left right : ReportRow) :
    attestationReports.clash left right = attestationReports.clash right left := by
  simp only [attestationReports]
  rw [Bool.beq_comm, Bool.beq_comm]
  cases left.supersedes <;> cases right.supersedes <;> simp [Bool.beq_comm]

theorem eq_of_statementDigest_eq {store : Store} {left right : ReportRow}
    (leftMem : left ∈ store.reports.rows) (rightMem : right ∈ store.reports.rows)
    (same : left.statementDigest = right.statementDigest) : left = right :=
  Table.eq_of_clash attestationReports_clash_comm leftMem rightMem
    (by simp [attestationReports, same])

/-- One statement has one successor. -/
theorem eq_of_superseded_eq {store : Store} {left right : ReportRow} {digest : Digest}
    (leftMem : left ∈ store.reports.rows) (rightMem : right ∈ store.reports.rows)
    (leftNames : left.superseded = some digest) (rightNames : right.superseded = some digest) :
    left = right := by
  refine Table.eq_of_clash attestationReports_clash_comm leftMem rightMem ?_
  unfold ReportRow.superseded at leftNames rightNames
  rcases Option.map_eq_some_iff.mp leftNames with ⟨superseded, present, rfl⟩
  simp [attestationReports, rightNames, present]

theorem distinct_reportsOf (trade : TradeId) (store : Store) :
    (reportsOf trade store).Pairwise
      fun left right => left.statementDigest ≠ right.statementDigest := by
  refine (store.reports.distinct.filter _).imp ?_
  intro left right apart same
  simp [attestationReports, same] at apart

/-- The signed events of a statement: one, if there is any. -/
theorem signedEvents_of_statement {store : Store} {event : SignedEventRow}
    (eventMem : event ∈ store.signedEvents.rows) :
    (store.signedEvents.rows.filter fun other =>
      other.statementDigest == event.statementDigest) = [event] := by
  have keyed : ∀ left right : SignedEventRow,
      (left.statementDigest == event.statementDigest) = true →
      (right.statementDigest == event.statementDigest) = true →
      signedAttestationEvents.clash left right = true := by
    intro left right leftMatches rightMatches
    simp only [beq_iff_eq] at leftMatches rightMatches
    simp [signedAttestationEvents, leftMatches, rightMatches]
  have single := (Table.countP_eq_one_iff keyed).mpr ⟨event, eventMem, beq_self_eq_true _⟩
  rw [List.countP_eq_length_filter] at single
  rcases List.length_eq_one_iff.mp single with ⟨only, isOnly⟩
  have present : event ∈ [only] := by
    rw [← isOnly]
    simp [eventMem]
  rw [isOnly, List.mem_singleton.mp present]

/-- A statement that a report supersedes belongs to a report of the same trade. -/
theorem superseded_same_trade {store : Store} (reports : ReportsLinked store)
    {report other : ReportRow} (reportMem : report ∈ store.reports.rows)
    (otherMem : other ∈ store.reports.rows)
    (names : other.superseded = some report.statementDigest) :
    other.tradeId = report.tradeId := by
  have otherOf : other ∈ reportsOf other.tradeId store := mem_reportsOf.mpr ⟨otherMem, rfl⟩
  rcases (reports.linked other.tradeId).predecessor otherOf names with
    ⟨before, previous, after, split, sameDigest⟩
  have previousOf : previous ∈ reportsOf other.tradeId store := by simp [split]
  rw [mem_reportsOf] at previousOf
  rw [← eq_of_statementDigest_eq previousOf.1 reportMem sameDigest, previousOf.2]

/-- A report of a trade is superseded by reports of this trade only. -/
theorem superseded_iff {store : Store} (reports : ReportsLinked store) {trade : TradeId}
    {report : ReportRow} (reportMem : report ∈ reportsOf trade store) :
    (store.reports.rows.any fun successor => successor.supersedes.any fun superseded =>
        superseded.1 == report.statementDigest) = true ↔
      ∃ other ∈ reportsOf trade store, other.superseded = some report.statementDigest := by
  rcases mem_reportsOf.mp reportMem with ⟨stored, sameTrade⟩
  constructor
  · intro found
    rcases List.any_eq_true.mp found with ⟨other, otherMem, names⟩
    rcases (Option.any_eq_true _ _).mp names with ⟨superseded, present, same⟩
    simp only [beq_iff_eq] at same
    have named : other.superseded = some report.statementDigest := by
      simp [ReportRow.superseded, present, same]
    refine ⟨other, mem_reportsOf.mpr ⟨otherMem, ?_⟩, named⟩
    rw [superseded_same_trade reports stored otherMem named, sameTrade]
  · rintro ⟨other, otherMem, named⟩
    rcases Option.map_eq_some_iff.mp named with ⟨superseded, present, same⟩
    refine List.any_eq_true.mpr ⟨other, (mem_reportsOf.mp otherMem).1, ?_⟩
    simp [present, same]

/-- The query for the report to supersede finds the last report of the trade. -/
theorem unsupersededReports_of_linked {store : Store} (reports : ReportsLinked store)
    (trade : TradeId) :
    (unsupersededReports trade store).map (·.1) =
      ((reportsOf trade store).getLast?.map (·.statementDigest)).toList := by
  have heads := (reports.linked trade).filter_unnamed (distinct_reportsOf trade store)
    (fun report reportMem => superseded_iff reports reportMem)
  have each : ∀ report ∈ (reportsOf trade store).getLast?.toList,
      ((store.signedEvents.rows.filter fun event =>
        event.statementDigest == report.statementDigest).map fun event =>
          (report.statementDigest, event.eventId)).map (·.1) = [report.statementDigest] := by
    intro report reportMem
    have reportOf : report ∈ reportsOf trade store :=
      List.mem_of_getLast? (Option.mem_toList.mp reportMem)
    rcases reports.signed report (mem_reportsOf.mp reportOf).1 with ⟨event, eventMem, stated⟩
    rw [← stated, signedEvents_of_statement eventMem]
    rfl
  have selected : (store.reports.rows.filter fun report => report.tradeId == trade &&
      !store.reports.rows.any fun successor => successor.supersedes.any fun superseded =>
        superseded.1 == report.statementDigest) = (reportsOf trade store).getLast?.toList := by
    rw [← heads, reportsOf, List.filter_filter]
    apply List.filter_congr
    intro report reportMem
    rw [Bool.and_comm]
  unfold unsupersededReports
  rw [selected]
  cases last : (reportsOf trade store).getLast? with
  | none => rfl
  | some report =>
      rw [Option.toList_some, List.flatMap_singleton]
      exact each report (by simp [last])

/-- The query never finds two reports to supersede. -/
theorem currentVerifiedSupersession_of_linked {store : Store} (reports : ReportsLinked store)
    (trade : TradeId) :
    ∃ supersession, currentVerifiedSupersession trade store = some supersession ∧
      supersession.map (·.1) = (reportsOf trade store).getLast?.map (·.statementDigest) := by
  have found := unsupersededReports_of_linked reports trade
  unfold currentVerifiedSupersession
  cases last : (reportsOf trade store).getLast? with
  | none =>
      rw [last] at found
      rw [List.map_eq_nil_iff.mp found]
      exact ⟨none, rfl, rfl⟩
  | some report =>
      rw [last] at found
      rcases List.map_eq_singleton_iff.mp found with ⟨current, isOnly, same⟩
      rw [isOnly]
      exact ⟨some current, rfl, congrArg some same⟩

end Reports

end Rhi
