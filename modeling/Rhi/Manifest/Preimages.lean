import Rhi.Admin
import Rhi.Lib.Encoding
import Rhi.Manifest
import Rhi.Presence
import Rhi.Publication

/-!
# Preimages of the identities

Every identity is the digest of a byte string made of fields of fixed width, framed texts, tagged
options and counted records.  Each part is self-delimiting, so the byte string determines what it
was made of: two identities can only agree by a collision of the hash function.
-/

namespace Rhi

open Encoding Transactional

section Fields

/-- An integer of a fixed number of bytes. -/
theorem delimited_toBeBytes (count : Nat) :
    SelfDelimiting (toBeBytes count) {value | value < 256 ^ count} :=
  .of_length (fun _ leftLt _ rightLt same => toBeBytes_inj leftLt rightLt same) (by simp)

/-- A byte string of fixed length. -/
theorem delimited_bits {width count : Nat} (bytes : width = 8 * count) :
    SelfDelimiting (fun bits : BitVec width => toBeBytes count bits.toNat) Set.univ := by
  refine (delimited_toBeBytes count).comp ?_ ?_
  · intro bits _
    subst bytes
    have bounded := bits.isLt
    rwa [Nat.pow_mul] at bounded
  · intro left _ right _ same
    exact BitVec.eq_of_toNat_eq same

theorem delimited_digest :
    SelfDelimiting (fun digest : Digest => toBeBytes 32 digest.toNat) Set.univ :=
  delimited_bits rfl

theorem delimited_trade :
    SelfDelimiting (fun trade : TradeId => toBeBytes 16 trade.toNat) Set.univ :=
  delimited_bits rfl

theorem delimited_signature :
    SelfDelimiting (fun signature : EventSignature => toBeBytes 64 signature.toNat) Set.univ :=
  delimited_bits rfl

/-- A byte string after its length. -/
theorem delimited_framed : SelfDelimiting framed {bytes | bytes.length < 256 ^ 8} := by
  intro left right leftMem rightMem leftRest rightRest same
  unfold framed at same
  rw [List.append_assoc, List.append_assoc] at same
  rcases delimited_toBeBytes 8 leftMem rightMem same with ⟨length, later⟩
  exact List.append_inj later length

theorem delimited_flag : SelfDelimiting flagByte Set.univ := by
  refine .of_length ?_ (by simp [flagByte])
  intro left _ right _ same
  cases left <;> cases right <;> simp_all [flagByte]

theorem delimited_optional :
    SelfDelimiting optionalBytes {option | ∀ value ∈ option, value < 256 ^ 8} := by
  have tagged := (delimited_toBeBytes 8).optional (by decide : (1 : UInt8) ≠ 0)
  intro left right leftMem rightMem leftRest rightRest same
  refine tagged leftMem rightMem ?_
  cases left <;> cases right <;> exact same

/-- An instant is a value of eight bytes. -/
theorem ObservedAt.lt (observedAt : ObservedAt) : observedAt.get < 256 ^ 8 :=
  observedAt.bounded.trans_lt (by decide)

theorem delimited_observed : SelfDelimiting (fun observed : Option ObservedAt =>
    optionalBytes (observed.map (·.get))) Set.univ := by
  refine delimited_optional.comp ?_ ?_
  · intro observed _ value valueMem
    rcases Option.mem_map.mp valueMem with ⟨observedAt, -, rfl⟩
    exact observedAt.lt
  · intro left _ right _ same
    refine Option.map_injective ?_ same
    intro left right instant
    cases left
    cases right
    simp_all

/-- The bytes of a cursor after its tag. -/
theorem delimited_cursor :
    SelfDelimiting cursorBytes {option | ∀ cursor ∈ option, cursor.createdAt < 256 ^ 8} := by
  have fields : SelfDelimiting (fun cursor : SourceCursor =>
      toBeBytes 8 cursor.createdAt ++ toBeBytes 32 cursor.eventId.toNat)
      {cursor | cursor.createdAt < 256 ^ 8} := by
    intro left right leftMem rightMem leftRest rightRest same
    rw [List.append_assoc, List.append_assoc] at same
    rcases delimited_toBeBytes 8 leftMem rightMem same with ⟨createdAt, later⟩
    rcases delimited_digest trivial trivial later with ⟨eventId, rest⟩
    refine ⟨?_, rest⟩
    cases left
    cases right
    simp_all
  have tagged := fields.optional (by decide : (1 : UInt8) ≠ 0)
  intro left right leftMem rightMem leftRest rightRest same
  refine tagged leftMem rightMem ?_
  cases left <;> cases right <;> exact same

theorem toNat_le_of_le {left right : Char} (le : left ≤ right) : left.toNat ≤ right.toNat :=
  UInt32.le_iff_toNat_le.mp (Char.le_def.mp le)

/-- An identifier has at most 64 characters, each of them a single byte. -/
theorem validSourceText_spec {text : String} (valid : validSourceText text = true) :
    text.toList.length ≤ 64 ∧ ∀ character ∈ text.toList, character.toNat < 256 := by
  unfold validSourceText at valid
  split at valid
  · cases valid
  · rename_i first rest characters
    simp only [Bool.and_eq_true, decide_eq_true_eq, List.all_eq_true, Bool.or_eq_true,
      beq_iff_eq] at valid
    rcases valid with ⟨⟨⟨-, low⟩, short⟩, others⟩
    have small {character last : Char} (le : character ≤ last) (bound : last.toNat < 256) :
        character.toNat < 256 :=
      (toNat_le_of_le le).trans_lt bound
    rw [characters]
    refine ⟨by rw [List.length_cons]; omega, ?_⟩
    intro character member
    rcases List.mem_cons.mp member with rfl | later
    · exact small low (by decide)
    · rcases others character later with ((⟨-, letter⟩ | ⟨-, digit⟩) | rfl) | rfl
      · exact small letter (by decide)
      · exact small digit (by decide)
      · decide
      · decide

/-- The characters of a text of single bytes are those of its bytes. -/
theorem toList_eq_of_small {text : String}
    (small : ∀ character ∈ text.toList, character.toNat < 256) :
    text.toList = (textBytes text).map fun byte => Char.ofNat byte.toNat := by
  rw [textBytes, List.map_map]
  conv_lhs => rw [← List.map_id text.toList]
  refine List.map_congr_left ?_
  intro character member
  have byte : (UInt8.ofNat character.toNat).toNat = character.toNat := by
    rw [UInt8.toNat_ofNat', Nat.mod_eq_of_lt (small character member)]
  rw [Function.comp_apply, byte, Char.ofNat_toNat, id_eq]

/-- Texts of single bytes are told apart by them. -/
theorem textBytes_injOn :
    Set.InjOn textBytes {text | ∀ character ∈ text.toList, character.toNat < 256} := by
  intro left leftSmall right rightSmall same
  apply String.toList_inj.mp
  rw [toList_eq_of_small leftSmall, toList_eq_of_small rightSmall, same]

/-- An identifier after its length. -/
theorem delimited_source :
    SelfDelimiting (fun source : SourceId => framed (textBytes source.text)) Set.univ := by
  refine delimited_framed.comp ?_ ?_
  · intro source _
    have short := (validSourceText_spec source.valid).1
    change (textBytes source.text).length < 256 ^ 8
    rw [textBytes, List.length_map]
    omega
  · intro left _ right _ same
    have text := textBytes_injOn (validSourceText_spec left.valid).2
      (validSourceText_spec right.valid).2 same
    cases left
    cases right
    simp_all

theorem delimited_contract :
    SelfDelimiting (fun kind : MutationKind => framed (textBytes kind.contractId)) Set.univ := by
  refine delimited_framed.comp ?_ ?_
  · intro kind _
    cases kind <;> decide
  · intro left _ right _
    cases left <;> cases right <;> decide

theorem delimited_outcome :
    SelfDelimiting (fun outcome : SourceCompletion => framed (textBytes outcome.code))
      Set.univ := by
  refine delimited_framed.comp ?_ ?_
  · intro outcome _
    cases outcome <;> decide
  · intro left _ right _
    cases left <;> cases right <;> decide

end Fields

section Inventories

/-- `RhiReconciliationReplayCommitFact`, with what the integers of its record can hold. -/
structure CommitFact where
  record : PersistenceRecord
  observedAt : ObservedAt
  schema_fits : record.schemaVersion < 2 ^ 16
  kind_fits : record.eventKind < 2 ^ 32
  authored_fits : record.authoredAt < 2 ^ 64
  content_fits : record.canonicalContent.length < 2 ^ 64
  json_fits : record.canonicalEventJson.length < 2 ^ 64
deriving DecidableEq

/-- What one fact adds to the preimage of `accepted_inventory_digest_for_facts`. -/
def CommitFact.bytes (fact : CommitFact) : List UInt8 :=
  toBeBytes 32 fact.record.mutationId.toNat ++ toBeBytes 16 fact.record.tradeId.toNat ++
    framed (textBytes fact.record.contract.contractId) ++ toBeBytes 2 fact.record.schemaVersion ++
    toBeBytes 32 fact.record.eventId.toNat ++ toBeBytes 64 fact.record.eventSignature.toNat ++
    toBeBytes 32 fact.record.authorPubkey.toNat ++ toBeBytes 4 fact.record.eventKind ++
    toBeBytes 8 fact.record.authoredAt ++ framed fact.record.canonicalContent ++
    framed fact.record.canonicalEventJson ++ toBeBytes 8 fact.observedAt.get

theorem delimited_fact : SelfDelimiting CommitFact.bytes Set.univ := by
  intro left right _ _ leftRest rightRest same
  simp only [CommitFact.bytes, List.append_assoc] at same
  rcases delimited_digest trivial trivial same with ⟨mutationId, same⟩
  rcases delimited_trade trivial trivial same with ⟨tradeId, same⟩
  rcases delimited_contract trivial trivial same with ⟨contract, same⟩
  rcases delimited_toBeBytes 2 left.schema_fits right.schema_fits same with ⟨schema, same⟩
  rcases delimited_digest trivial trivial same with ⟨eventId, same⟩
  rcases delimited_signature trivial trivial same with ⟨signature, same⟩
  rcases delimited_digest trivial trivial same with ⟨author, same⟩
  rcases delimited_toBeBytes 4 left.kind_fits right.kind_fits same with ⟨kind, same⟩
  rcases delimited_toBeBytes 8 left.authored_fits right.authored_fits same with ⟨authoredAt, same⟩
  rcases delimited_framed left.content_fits right.content_fits same with ⟨content, same⟩
  rcases delimited_framed left.json_fits right.json_fits same with ⟨json, same⟩
  rcases delimited_toBeBytes 8 left.observedAt.lt right.observedAt.lt same with ⟨instant, rest⟩
  refine ⟨?_, rest⟩
  rcases left with ⟨⟨⟩, ⟨⟩⟩
  rcases right with ⟨⟨⟩, ⟨⟩⟩
  simp_all

/-- The facts of a part, as many as the preimage can count. -/
structure Inventory where
  facts : List CommitFact
  count_fits : facts.length < 2 ^ 32
deriving DecidableEq

/-- The preimage of `accepted_inventory_digest_for_facts`. -/
def Inventory.preimage (inventory : Inventory) : List UInt8 :=
  domainBytes "radroots.rhi.reconciliation_source_inventory.v1" ++
    toBeBytes 4 inventory.facts.length ++ inventory.facts.flatMap (·.bytes)

theorem inventory_preimage_injective : Function.Injective Inventory.preimage := by
  intro left right same
  simp only [Inventory.preimage, List.append_assoc, List.append_cancel_left_eq] at same
  have facts := ((delimited_toBeBytes 4).counted delimited_fact).injOn
    ⟨left.count_fits, fun _ _ => trivial⟩ ⟨right.count_fits, fun _ _ => trivial⟩ same
  cases left
  cases right
  simp_all

end Inventories

section Results

/-- `eligible_cursor`. -/
def eligibleCursor (outcome : SourceCompletion) (candidate prior : Option SourceCursor) :
    Option SourceCursor :=
  if outcome = .complete then
    candidate.filter fun candidate => prior.all fun prior => prior.lt candidate
  else
    none

/-- `RhiReconciliationReplayCommitParts`, as `into_commit_parts` makes them of a finished replay. -/
@[ext]
structure CommitParts where
  replayId : Digest
  requestId : Digest
  sourceId : SourceId
  tradeId : TradeId
  required : Bool
  policyDigest : EvidencePolicyDigest
  selectorDigest : Digest
  priorCursor : Option SourceCursor
  overlapSeconds : Nat
  sinceUnixSeconds : Nat
  result : SourceResult
  duplicateObservations : Nat
  cursorCandidate : Option SourceCursor
  eligibleCursor : Option SourceCursor
  firstObservedAt : Option ObservedAt
  inventory : Inventory
  prior_fits : ∀ cursor ∈ priorCursor, cursor.createdAt < 2 ^ 64
  overlap_fits : overlapSeconds < 2 ^ 64
  since_fits : sinceUnixSeconds < 2 ^ 64
  started_fits : result.startedAt < 2 ^ 64
  finished_fits : result.finishedAt < 2 ^ 64
  count_fits : result.acceptedEventCount < 2 ^ 32
  bytes_fit : result.acceptedEventBytes < 2 ^ 64
  duplicates_fit : duplicateObservations < 2 ^ 32
  candidate_fits : ∀ cursor ∈ cursorCandidate, cursor.createdAt < 2 ^ 64
  requested : result.requestId = requestId
  eligible : eligibleCursor = Rhi.eligibleCursor result.outcome cursorCandidate priorCursor

/-- The identity of a plan with an ordinal of its sources and the part of that source. -/
@[ext]
structure SourceResultInput where
  planId : AttemptId
  ordinal : Nat
  part : CommitParts
  ordinal_fits : ordinal < 2 ^ 32

variable [Sha256]

/-- `committed_inventory_digest`. -/
def Inventory.digest (inventory : Inventory) : Digest := Sha256.digest inventory.preimage

/-- The preimage of `source_result_digest`. -/
def SourceResultInput.preimage (input : SourceResultInput) : List UInt8 :=
  domainBytes "radroots.rhi.reconciliation_manifest_source_result.v1" ++
    toBeBytes 32 input.planId.toNat ++ toBeBytes 4 input.ordinal ++
    toBeBytes 32 input.part.requestId.toNat ++ framed (textBytes input.part.sourceId.text) ++
    toBeBytes 16 input.part.tradeId.toNat ++ flagByte input.part.required ++
    toBeBytes 32 input.part.policyDigest.toNat ++ toBeBytes 32 input.part.selectorDigest.toNat ++
    toBeBytes 32 input.part.replayId.toNat ++ framed (textBytes input.part.result.outcome.code) ++
    toBeBytes 8 input.part.result.startedAt ++ toBeBytes 8 input.part.result.finishedAt ++
    toBeBytes 4 input.part.result.acceptedEventCount ++
    toBeBytes 8 input.part.result.acceptedEventBytes ++
    toBeBytes 32 input.part.inventory.digest.toNat ++
    toBeBytes 4 input.part.duplicateObservations ++
    optionalBytes (input.part.firstObservedAt.map (·.get)) ++ cursorBytes input.part.priorCursor ++
    toBeBytes 8 input.part.overlapSeconds ++ toBeBytes 8 input.part.sinceUnixSeconds ++
    cursorBytes input.part.cursorCandidate ++ flagByte input.part.eligibleCursor.isSome

/-- What two results with one preimage agree on before their inventories are looked at. -/
theorem sourceResult_preimage_spec {left right : SourceResultInput}
    (same : left.preimage = right.preimage) :
    left.part.inventory.digest = right.part.inventory.digest ∧
      (left.part.inventory = right.part.inventory → left = right) := by
  have whole := congrArg (· ++ ([] : List UInt8)) same
  unfold SourceResultInput.preimage at whole
  simp only [List.append_assoc] at whole
  replace whole := List.append_cancel_left whole
  rcases delimited_digest trivial trivial whole with ⟨planId, whole⟩
  rcases delimited_toBeBytes 4 left.ordinal_fits right.ordinal_fits whole with ⟨ordinal, whole⟩
  rcases delimited_digest trivial trivial whole with ⟨requestId, whole⟩
  rcases delimited_source trivial trivial whole with ⟨sourceId, whole⟩
  rcases delimited_trade trivial trivial whole with ⟨tradeId, whole⟩
  rcases delimited_flag trivial trivial whole with ⟨required, whole⟩
  rcases delimited_digest trivial trivial whole with ⟨policy, whole⟩
  rcases delimited_digest trivial trivial whole with ⟨selector, whole⟩
  rcases delimited_digest trivial trivial whole with ⟨replayId, whole⟩
  rcases delimited_outcome trivial trivial whole with ⟨outcome, whole⟩
  rcases delimited_toBeBytes 8 left.part.started_fits right.part.started_fits whole with
    ⟨started, whole⟩
  rcases delimited_toBeBytes 8 left.part.finished_fits right.part.finished_fits whole with
    ⟨finished, whole⟩
  rcases delimited_toBeBytes 4 left.part.count_fits right.part.count_fits whole with
    ⟨count, whole⟩
  rcases delimited_toBeBytes 8 left.part.bytes_fit right.part.bytes_fit whole with ⟨bytes, whole⟩
  rcases delimited_digest trivial trivial whole with ⟨inventory, whole⟩
  rcases delimited_toBeBytes 4 left.part.duplicates_fit right.part.duplicates_fit whole with
    ⟨duplicates, whole⟩
  rcases delimited_observed trivial trivial whole with ⟨observed, whole⟩
  rcases delimited_cursor left.part.prior_fits right.part.prior_fits whole with ⟨prior, whole⟩
  rcases delimited_toBeBytes 8 left.part.overlap_fits right.part.overlap_fits whole with
    ⟨overlap, whole⟩
  rcases delimited_toBeBytes 8 left.part.since_fits right.part.since_fits whole with
    ⟨since, whole⟩
  rcases delimited_cursor left.part.candidate_fits right.part.candidate_fits whole with
    ⟨candidate, -⟩
  refine ⟨inventory, fun facts => ?_⟩
  have result : left.part.result = right.part.result := by
    have request := left.part.requested.trans (requestId.trans right.part.requested.symm)
    cases leftResult : left.part.result
    cases rightResult : right.part.result
    simp_all
  have eligible : left.part.eligibleCursor = right.part.eligibleCursor := by
    rw [left.part.eligible, right.part.eligible, result, candidate, prior]
  exact SourceResultInput.ext planId ordinal (CommitParts.ext replayId requestId sourceId tradeId
    required policy selector prior overlap since result duplicates candidate eligible observed
    facts)

/-- Two results are equal if both byte strings that are hashed for them are. -/
theorem sourceResult_preimage_injective {left right : SourceResultInput}
    (same : left.preimage = right.preimage)
    (inventories : left.part.inventory.preimage = right.part.inventory.preimage) : left = right :=
  (sourceResult_preimage_spec same).2 (inventory_preimage_injective inventories)

end Results

section Requests

/-- `RequestIdentityMaterial`. -/
@[ext]
structure RequestIdentityMaterial where
  attemptId : AttemptId
  sourceId : SourceId
  required : Bool
  selectorDigest : Digest
  attemptStartedAt : UnixMilliseconds
  deadline : UnixMilliseconds
  lookbackSeconds : Nat
  maximumEvents : Nat
  maximumBytes : Nat
  lookback_fits : lookbackSeconds < 2 ^ 64
  events_fit : maximumEvents < 2 ^ 32
  bytes_fit : maximumBytes < 2 ^ 64

/-- The preimage of `request_id`. -/
def RequestIdentityMaterial.preimage (material : RequestIdentityMaterial) : List UInt8 :=
  domainBytes "radroots.rhi.reconciliation_source_request.v1" ++
    toBeBytes 32 material.attemptId.toNat ++ framed (textBytes material.sourceId.text) ++
    flagByte material.required ++ toBeBytes 32 material.selectorDigest.toNat ++
    toBeBytes 8 material.attemptStartedAt.get ++ toBeBytes 8 material.deadline.get ++
    toBeBytes 8 material.lookbackSeconds ++ toBeBytes 4 material.maximumEvents ++
    toBeBytes 8 material.maximumBytes

theorem delimited_milliseconds :
    SelfDelimiting (fun instant : UnixMilliseconds => toBeBytes 8 instant.get) Set.univ := by
  refine (delimited_toBeBytes 8).comp ?_ ?_
  · intro instant _
    exact instant.bounded.trans_lt (by decide)
  · intro left _ right _ same
    cases left
    cases right
    simp_all

theorem request_preimage_injective : Function.Injective RequestIdentityMaterial.preimage := by
  intro left right same
  have whole := congrArg (· ++ ([] : List UInt8)) same
  unfold RequestIdentityMaterial.preimage at whole
  simp only [List.append_assoc] at whole
  replace whole := List.append_cancel_left whole
  rcases delimited_digest trivial trivial whole with ⟨attemptId, whole⟩
  rcases delimited_source trivial trivial whole with ⟨sourceId, whole⟩
  rcases delimited_flag trivial trivial whole with ⟨required, whole⟩
  rcases delimited_digest trivial trivial whole with ⟨selector, whole⟩
  rcases delimited_milliseconds trivial trivial whole with ⟨startedAt, whole⟩
  rcases delimited_milliseconds trivial trivial whole with ⟨deadline, whole⟩
  rcases delimited_toBeBytes 8 left.lookback_fits right.lookback_fits whole with
    ⟨lookback, whole⟩
  rcases delimited_toBeBytes 4 left.events_fit right.events_fit whole with ⟨events, whole⟩
  rcases delimited_toBeBytes 8 left.bytes_fit right.bytes_fit whole with ⟨bytes, -⟩
  exact RequestIdentityMaterial.ext attemptId sourceId required selector startedAt deadline
    lookback events bytes

/-- The preimage of `selector_digest`. -/
def selectorPreimage (trade : TradeId) : List UInt8 :=
  domainBytes "radroots.rhi.reconciliation_selector.v1" ++
    framed (textBytes "trade_mutation_lineage_v1") ++ toBeBytes 4 eventKinds.length ++
    eventKinds.flatMap (toBeBytes 4) ++ textBytes "d" ++ toBeBytes 16 trade.toNat

theorem selector_preimage_injective : Function.Injective selectorPreimage := by
  intro left right same
  have trade := List.append_cancel_left same
  exact delimited_trade.injOn trivial trivial trade

/-- The arguments of `replay_id`. -/
@[ext]
structure ReplayIdentity where
  requestId : Digest
  priorCursor : Option SourceCursor
  overlapSeconds : Nat
  sinceUnixSeconds : Nat
  prior_fits : ∀ cursor ∈ priorCursor, cursor.createdAt < 2 ^ 64
  overlap_fits : overlapSeconds < 2 ^ 64
  since_fits : sinceUnixSeconds < 2 ^ 64

/-- The preimage of `replay_id`. -/
def ReplayIdentity.preimage (identity : ReplayIdentity) : List UInt8 :=
  domainBytes "radroots.rhi.reconciliation_source_replay.v1" ++
    toBeBytes 32 identity.requestId.toNat ++ cursorBytes identity.priorCursor ++
    toBeBytes 8 identity.overlapSeconds ++ toBeBytes 8 identity.sinceUnixSeconds

theorem replay_preimage_injective : Function.Injective ReplayIdentity.preimage := by
  intro left right same
  have whole := congrArg (· ++ ([] : List UInt8)) same
  unfold ReplayIdentity.preimage at whole
  simp only [List.append_assoc] at whole
  replace whole := List.append_cancel_left whole
  rcases delimited_digest trivial trivial whole with ⟨requestId, whole⟩
  rcases delimited_cursor left.prior_fits right.prior_fits whole with ⟨prior, whole⟩
  rcases delimited_toBeBytes 8 left.overlap_fits right.overlap_fits whole with ⟨overlap, whole⟩
  rcases delimited_toBeBytes 8 left.since_fits right.since_fits whole with ⟨since, -⟩
  exact ReplayIdentity.ext requestId prior overlap since

end Requests

section Targets

/-- A list of targets, as many as a preimage can count, each at a position of one byte. -/
@[ext]
structure TargetList where
  targets : List PublicationTarget
  count_fits : targets.length < 2 ^ 32
  ordinals_fit : ∀ target ∈ targets, target.ordinal < 2 ^ 8
deriving DecidableEq

/-- What one target adds to the preimage of a target set. -/
def PublicationTarget.bytes (target : PublicationTarget) : List UInt8 :=
  toBeBytes 4 target.ordinal ++ framed (textBytes target.relayId.text) ++ flagByte target.required

/-- The preimage of the `target_set_digest` of the given domain. -/
def TargetList.preimage (domain : String) (list : TargetList) : List UInt8 :=
  domainBytes domain ++ toBeBytes 4 list.targets.length ++ list.targets.flatMap (·.bytes)

theorem delimited_target :
    SelfDelimiting PublicationTarget.bytes {target | target.ordinal < 2 ^ 8} := by
  intro left right leftMem rightMem leftRest rightRest same
  have leftFits : left.ordinal < 256 ^ 4 := leftMem.trans (by decide)
  have rightFits : right.ordinal < 256 ^ 4 := rightMem.trans (by decide)
  unfold PublicationTarget.bytes at same
  simp only [List.append_assoc] at same
  rcases delimited_toBeBytes 4 leftFits rightFits same with ⟨ordinal, same⟩
  rcases delimited_source trivial trivial same with ⟨relayId, same⟩
  rcases delimited_flag trivial trivial same with ⟨required, rest⟩
  refine ⟨?_, rest⟩
  cases left
  cases right
  simp_all

theorem targetSet_preimage_injective (domain : String) :
    Function.Injective (TargetList.preimage domain) := by
  intro left right same
  unfold TargetList.preimage at same
  rw [List.append_assoc, List.append_assoc] at same
  replace same := List.append_cancel_left same
  exact TargetList.ext (((delimited_toBeBytes 4).counted delimited_target).injOn
    ⟨left.count_fits, left.ordinals_fit⟩ ⟨right.count_fits, right.ordinals_fit⟩ same)

end Targets

section Identities

variable [Sha256]

/-- The hash function does not collide on two byte strings. -/
def CollisionFree (left right : List UInt8) : Prop :=
  Sha256.digest left = Sha256.digest right → left = right

/-- `source_result_digest`. -/
def SourceResultInput.digest (input : SourceResultInput) : Digest := Sha256.digest input.preimage

/-- `request_id`. -/
def RequestIdentityMaterial.id (material : RequestIdentityMaterial) : Digest :=
  Sha256.digest material.preimage

/-- `replay_id`. -/
def ReplayIdentity.id (identity : ReplayIdentity) : Digest := Sha256.digest identity.preimage

/-- What a finished replay has to fit to be counted in its preimages. -/
structure SourceReplay.Sized (replay : SourceReplay) : Prop where
  prior : ∀ cursor ∈ replay.plan.priorCursor, cursor.createdAt < 2 ^ 64
  overlap : replay.plan.overlapSeconds < 2 ^ 64
  since : replay.plan.since < 2 ^ 64
  started : replay.result.startedAt < 2 ^ 64
  finished : replay.result.finishedAt < 2 ^ 64
  count : replay.result.acceptedEventCount < 2 ^ 32
  bytes : replay.result.acceptedEventBytes < 2 ^ 64
  duplicates : replay.duplicateObservations < 2 ^ 32
  candidate : ∀ cursor ∈ replay.cursorCandidate, cursor.createdAt < 2 ^ 64
  requested : replay.result.requestId = replay.plan.requestId

/-- `into_commit_parts`, with the inventory of the facts. -/
def SourceReplay.intoCommitParts (replay : SourceReplay) (sized : replay.Sized)
    (inventory : Inventory) : CommitParts where
  replayId := replay.plan.id
  requestId := replay.plan.requestId
  sourceId := replay.plan.sourceId
  tradeId := replay.plan.tradeId
  required := replay.plan.required
  policyDigest := replay.plan.policyDigest
  selectorDigest := replay.plan.selectorDigest
  priorCursor := replay.plan.priorCursor
  overlapSeconds := replay.plan.overlapSeconds
  sinceUnixSeconds := replay.plan.since
  result := replay.result
  duplicateObservations := replay.duplicateObservations
  cursorCandidate := replay.cursorCandidate
  eligibleCursor := replay.eligibleCursor
  firstObservedAt := replay.firstObservedAt
  inventory
  prior_fits := sized.prior
  overlap_fits := sized.overlap
  since_fits := sized.since
  started_fits := sized.started
  finished_fits := sized.finished
  count_fits := sized.count
  bytes_fit := sized.bytes
  duplicates_fit := sized.duplicates
  candidate_fits := sized.candidate
  requested := sized.requested
  eligible := rfl

/-- The inventory of some facts. -/
def Inventory.Of (inventory : Inventory) (facts : List ReplayFact) : Prop :=
  inventory.facts.map (fun fact => (fact.record, fact.observedAt)) =
    facts.map fun fact => (fact.record, fact.observedAt)

theorem Inventory.Of.digest {inventory : Inventory} {facts : List ReplayFact}
    (of : inventory.Of facts) : inventory.digest = acceptedInventoryDigest facts := by
  have length := congrArg List.length of
  simp only [List.length_map] at length
  -- Only the record and the instant of a fact are hashed.
  have bytes := congrArg
    (List.flatMap fun pair : PersistenceRecord × ObservedAt =>
      (⟨pair.1, 0, pair.2⟩ : ReplayFact).inventoryBytes) of
  rw [List.flatMap_map, List.flatMap_map] at bytes
  replace bytes : inventory.facts.flatMap (·.bytes) = facts.flatMap (·.inventoryBytes) := bytes
  simp only [Inventory.digest, Inventory.preimage, acceptedInventoryDigest, length, bytes]

/-- The digest of a source result is the one of its commit parts. -/
theorem sourceResultDigest_eq {replay : SourceReplay} (sized : replay.Sized)
    {inventory : Inventory} (of : inventory.Of replay.facts) (attempt : AttemptId) (ordinal : Nat)
    (ordinal_fits : ordinal < 2 ^ 32) : sourceResultDigest attempt ordinal replay =
      SourceResultInput.digest
        ⟨attempt, ordinal, replay.intoCommitParts sized inventory, ordinal_fits⟩ := by
  unfold SourceResultInput.digest SourceResultInput.preimage sourceResultDigest
  rw [← of.digest]
  rfl

/-- The material a request was identified by. -/
structure SourceRequest.Identified (request : SourceRequest)
    (material : RequestIdentityMaterial) : Prop where
  id : request.id = material.id
  source : request.sourceId = material.sourceId
  isRequired : request.required = material.required
  selector : request.selectorDigest = material.selectorDigest
  started : request.attemptStartedAt = material.attemptStartedAt.get
  deadline : request.deadline = material.deadline.get
  lookback : request.lookbackSeconds = material.lookbackSeconds
  events : request.maximumEvents = material.maximumEvents
  bytes : request.maximumBytes = material.maximumBytes
  trade : request.selectorDigest = Sha256.digest (selectorPreimage request.tradeId)

/-- Every request of a plan is identified by what it consists of. -/
theorem identified_of_sourceRequest {job : Job} {startedAt : UnixMilliseconds} {deadline : Nat}
    {source : SourceConfiguration} {request : SourceRequest}
    (made : sourceRequest job startedAt.get deadline source = .ok request) :
    ∃ material, material.attemptId = attemptId job.id job.attemptCount ∧
      request.Identified material := by
  simp only [sourceRequest, bind_eq_ok, pure_eq_ok] at made
  rcases made with ⟨bounded, capped, rfl⟩
  simp only [absoluteDeadline, bind_eq_ok, require_eq_ok, decide_eq_true_eq, pure_eq_ok] at capped
  rcases capped with ⟨-, within, -, later, rfl⟩
  exact ⟨{
    attemptId := attemptId job.id job.attemptCount
    sourceId := source.sourceId
    required := source.required
    selectorDigest := selectorDigest job.tradeId
    attemptStartedAt := startedAt
    deadline := ⟨min (startedAt.get + source.deadline) deadline, (Nat.min_le_left _ _).trans within⟩
    lookbackSeconds := source.lookbackSeconds
    maximumEvents := sourceResultMaxEvents
    maximumBytes := sourceResultMaxBytes
    lookback_fits := source.lookback_bounds.2.trans_lt (by decide)
    events_fit := by decide
    bytes_fit := by decide }, rfl, rfl, rfl, rfl, rfl, rfl, rfl, rfl, rfl, rfl, rfl⟩

/-- The byte string hashed for an identity determines what is identified, so that equal identities
without a collision are identities of the same. -/
theorem identity_preimages_injective :
    (Function.Injective Inventory.preimage ∧
      (∀ left right : SourceResultInput, left.preimage = right.preimage →
        left.part.inventory.preimage = right.part.inventory.preimage → left = right) ∧
      Function.Injective RequestIdentityMaterial.preimage ∧
      Function.Injective ReplayIdentity.preimage ∧
      Function.Injective (TargetList.preimage publicationTargetSet) ∧
      Function.Injective (TargetList.preimage presenceTargetSet)) ∧
    (∀ left right : Inventory, CollisionFree left.preimage right.preimage →
      left.digest = right.digest → left = right) ∧
    (∀ left right : SourceResultInput, CollisionFree left.preimage right.preimage →
      CollisionFree left.part.inventory.preimage right.part.inventory.preimage →
      left.digest = right.digest → left = right) ∧
    (∀ left right leftMaterial rightMaterial, SourceRequest.Identified left leftMaterial →
      SourceRequest.Identified right rightMaterial →
      CollisionFree leftMaterial.preimage rightMaterial.preimage →
      CollisionFree (selectorPreimage left.tradeId) (selectorPreimage right.tradeId) →
      left.id = right.id → left = right) ∧
    (∀ left right : ReplayIdentity, CollisionFree left.preimage right.preimage →
      left.id = right.id → left = right) ∧
    ∀ domain ∈ [publicationTargetSet, presenceTargetSet], ∀ left right : TargetList,
      CollisionFree (left.preimage domain) (right.preimage domain) →
      targetSetDigest domain left.targets = targetSetDigest domain right.targets →
      left = right := by
  refine ⟨⟨inventory_preimage_injective, fun _ _ => sourceResult_preimage_injective,
    request_preimage_injective, replay_preimage_injective, targetSet_preimage_injective _,
    targetSet_preimage_injective _⟩, ?_, ?_, ?_, ?_, ?_⟩
  · intro left right free same
    exact inventory_preimage_injective (free same)
  · intro left right free inventories same
    rcases sourceResult_preimage_spec (free same) with ⟨digests, -⟩
    exact sourceResult_preimage_injective (free same) (inventories digests)
  · intro left right leftMaterial rightMaterial leftOf rightOf free selectors same
    have material : leftMaterial = rightMaterial :=
      request_preimage_injective (free (leftOf.id.symm.trans (same.trans rightOf.id)))
    subst material
    have selector := leftOf.selector.trans rightOf.selector.symm
    have trade := selector_preimage_injective
      (selectors (leftOf.trade.symm.trans (selector.trans rightOf.trade)))
    rcases left with ⟨⟩
    rcases right with ⟨⟩
    have source := leftOf.source.trans rightOf.source.symm
    have required := leftOf.isRequired.trans rightOf.isRequired.symm
    have started := leftOf.started.trans rightOf.started.symm
    have deadline := leftOf.deadline.trans rightOf.deadline.symm
    have lookback := leftOf.lookback.trans rightOf.lookback.symm
    have events := leftOf.events.trans rightOf.events.symm
    have bytes := leftOf.bytes.trans rightOf.bytes.symm
    simp_all only
  · intro left right free same
    exact replay_preimage_injective (free same)
  · intro domain _ left right free same
    exact targetSet_preimage_injective domain (free same)

end Identities

end Rhi
