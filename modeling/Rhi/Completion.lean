import Rhi.Presence.Runs
import Rhi.Publication.Retries

/-!
# Completion of outboxes

A publication or a presence document is complete when every required relay accepted it.  Optional
relays do not hold an outbox back, so an outbox without a required relay completes with its first
recorded attempt.
-/

namespace Rhi

open Relational Transactional

namespace Completion

section Completeness

variable [Sha256] [TradeEvidence] [PresenceEvents]

/-- A complete outbox was accepted by every required target, and by some target when one of them is
required. -/
def AcceptedByRequired (targets : List TargetRow) : Prop :=
  (∀ target ∈ targets, target.required = true → target.state = .accepted) ∧
    ((∃ target ∈ targets, target.required = true) → ∃ target ∈ targets, target.state = .accepted)

omit [Sha256] [TradeEvidence] [PresenceEvents] in
theorem acceptedByRequired_of_accepted {targets : List TargetRow}
    (accepted : ∀ target ∈ targets, target.required = true → target.state = .accepted) :
    AcceptedByRequired targets := by
  refine ⟨accepted, ?_⟩
  rintro ⟨target, targetMem, required⟩
  exact ⟨target, targetMem, accepted target targetMem required⟩

/-- In every run of publication executors and in every run of presence deliveries, a complete outbox
was accepted by every required target. -/
theorem complete_outboxes_accepted :
    (∀ (moves : List Publication.PublishersMove) (id : Digest) (current : Publication.Snapshot),
      Publication.snapshot id (Publication.Publishers.exec moves .initial).service.store =
        some current →
      current.row.state = .complete → AcceptedByRequired current.targets) ∧
    (∀ (moves : List Presence.Move) (id : Digest) (record : PresenceRecord),
      Presence.stored id (Presence.System.exec moves .initial).store = some record →
      record.row.state = .complete → AcceptedByRequired record.targets) := by
  constructor
  · intro moves id current read complete
    have coherent := (Publication.disciplined_exec moves).coherent id current read
    exact acceptedByRequired_of_accepted (coherent.decided.complete complete)
  · intro moves id record found complete
    have coherent := (Presence.lawful_exec moves).coherent id record found
    exact acceptedByRequired_of_accepted (coherent.attended.complete complete)

end Completeness

section Exceptions

namespace Sample

open Rhi.Sample Publication.Sample

local instance : Sha256 := ⟨Hashing.sha256⟩

local instance : TradeEvidence where
  Mutation := Unit
  mutationId _ := none
  tradeId _ := trade
  acceptsSourceId _ := true
  acceptsSourceResult _ _ _ := true
  manifest _ := none
  decode _ := none
  reduce _ _ _ _ := ⟨none, none, .missing, 0, [], [], [], [], false⟩

/-- One relay, which is optional. -/
def optionalDocument : PublicationDocument := { document with
  publication := .required [Publication.Sample.backup] ⟨1, 1000, 10000, 5000⟩ }

def optional : Publication.Authorized :=
  ⟨optionalDocument, (deriveAuthority optionalDocument).get (by decide +kernel),
    (Option.some_get _).symm⟩

/-- The first attempt at the optional relay fails, and the outbox is complete without acceptance. -/
theorem optional_outbox_completes :
    ∃ row ∈ Publication.outboxRow (soleOutbox optional)
        (Publication.Publishers.exec (blocked optional .failed) .initial).service.store,
      row.state = .complete ∧
      (Publication.targetsOf (soleOutbox optional) (Publication.Publishers.exec
        (blocked optional .failed) .initial).service.store).map (·.state) = [.failed] := by
  decide +kernel

end Sample

end Exceptions

end Completion

end Rhi
