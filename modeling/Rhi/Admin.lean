import Mathlib.Data.List.Induction
import Rhi.Data

/-!
# Documents of the admin boundary

The routes, and the requests and responses that pass the boundary.
-/

namespace Rhi

section Bytes

/-- The value of a big-endian encoding. -/
def fromBeBytes (bytes : List UInt8) : Nat :=
  bytes.foldl (fun value byte => value * 256 + byte.toNat) 0

@[simp]
theorem length_toBeBytes (count value : Nat) : (toBeBytes count value).length = count := by
  simp [toBeBytes]

theorem toBeBytes_append_last (count value : Nat) :
    toBeBytes (count + 1) value = toBeBytes count (value / 256) ++ [UInt8.ofNat value] := by
  simp only [toBeBytes, List.range_succ, List.map_append, List.map_cons, List.map_nil]
  congr 1
  · refine List.map_congr_left ?_
    intro index indexMem
    have bounded := List.mem_range.mp indexMem
    have split : count + 1 - 1 - index = 1 + (count - 1 - index) := by omega
    rw [split, Nat.pow_add, Nat.div_div_eq_div_mul, Nat.pow_one]
  · simp

theorem fromBeBytes_toBeBytes (count value : Nat) :
    fromBeBytes (toBeBytes count value) = value % 256 ^ count := by
  induction count generalizing value with
  | zero => simp [toBeBytes, fromBeBytes, Nat.mod_one]
  | succ count ih =>
      have earlier := ih (value / 256)
      rw [toBeBytes_append_last]
      simp only [fromBeBytes, List.foldl_append, List.foldl_cons, List.foldl_nil] at earlier ⊢
      have power : 256 ^ (count + 1) = 256 * 256 ^ count := by
        rw [Nat.pow_succ, Nat.mul_comm]
      rw [earlier, UInt8.toNat_ofNat', power, Nat.mod_mul]
      omega

theorem toBeBytes_fromBeBytes (bytes : List UInt8) :
    toBeBytes bytes.length (fromBeBytes bytes) = bytes := by
  induction bytes using List.reverseRecOn with
  | nil => rfl
  | append_singleton bytes byte ih =>
      have last := byte.toNat_lt
      have value : fromBeBytes (bytes ++ [byte]) = fromBeBytes bytes * 256 + byte.toNat := by
        simp [fromBeBytes]
      have before : (fromBeBytes bytes * 256 + byte.toNat) / 256 = fromBeBytes bytes := by omega
      rw [List.length_append, List.length_singleton, toBeBytes_append_last, value, before, ih]
      congr 1
      simp

theorem toBeBytes_inj {count left right : Nat} (leftLt : left < 256 ^ count)
    (rightLt : right < 256 ^ count) (same : toBeBytes count left = toBeBytes count right) :
    left = right := by
  have values := congrArg fromBeBytes same
  rwa [fromBeBytes_toBeBytes, fromBeBytes_toBeBytes, Nat.mod_eq_of_lt leftLt,
    Nat.mod_eq_of_lt rightLt] at values

theorem fromBeBytes_lt (bytes : List UInt8) : fromBeBytes bytes < 256 ^ bytes.length := by
  have reduced := fromBeBytes_toBeBytes bytes.length (fromBeBytes bytes)
  rw [toBeBytes_fromBeBytes] at reduced
  rw [reduced]
  exact Nat.mod_lt _ (Nat.pow_pos (by decide))

end Bytes

/-- `RhiAdminRoute`. -/
inductive AdminRoute where
  | status
  | effectiveConfig
  | identityStatus
  | identityPublic
  | stateStatus
  | stateBackup
  | metricsSnapshot
  | reconciliationStatus
  | reconciliationJobs
  | reconciliationRefresh
  | sources
  | tradeProjection
  | tradeReportCurrent
  | tradeReports
  | publicationBacklog
  | publicationTargets
  | publicationRetry
  | presenceDesired
  | presenceRender
  | presenceRefresh
deriving DecidableEq, Repr

namespace AdminRoute

/-- `RhiAdminRoute::is_mutation`: the routes of method `POST`. -/
def isMutation : AdminRoute → Bool
  | .stateBackup | .reconciliationRefresh | .publicationRetry | .presenceRender
  | .presenceRefresh => true
  | _ => false

/-- `RhiAdminRoute::operation_id`. -/
def operationId : AdminRoute → String
  | .status => "radroots.rhi.status.get.v1"
  | .effectiveConfig => "radroots.rhi.config.effective.get.v1"
  | .identityStatus => "radroots.rhi.identity.status.get.v1"
  | .identityPublic => "radroots.rhi.identity.public.get.v1"
  | .stateStatus => "radroots.rhi.state.status.get.v1"
  | .stateBackup => "radroots.rhi.state.backup.create.v1"
  | .metricsSnapshot => "radroots.rhi.metrics.snapshot.get.v1"
  | .reconciliationStatus => "radroots.rhi.reconciliation.status.get.v1"
  | .reconciliationJobs => "radroots.rhi.reconciliation.jobs.list.v1"
  | .reconciliationRefresh => "radroots.rhi.reconciliation.refresh.v1"
  | .sources => "radroots.rhi.sources.list.v1"
  | .tradeProjection => "radroots.rhi.trade.projection.get.v1"
  | .tradeReportCurrent => "radroots.rhi.trade.report.current.get.v1"
  | .tradeReports => "radroots.rhi.trade.reports.list.v1"
  | .publicationBacklog => "radroots.rhi.publication.backlog.list.v1"
  | .publicationTargets => "radroots.rhi.publication.targets.list.v1"
  | .publicationRetry => "radroots.rhi.publication.retry.v1"
  | .presenceDesired => "radroots.rhi.presence.desired.get.v1"
  | .presenceRender => "radroots.rhi.presence.render.v1"
  | .presenceRefresh => "radroots.rhi.presence.refresh.v1"

end AdminRoute

/-- `RhiAdminHandlerErrorKind`. -/
inductive AdminHandlerErrorKind where
  | invalidCursor
  | operationIdConflict
  | notFound
  | conflict
  | unavailable
  | internal
deriving DecidableEq, Repr

/-- `RhiAdminRequestDocument`, with the fields that the mutations read. -/
structure RequestDocument where
  route : AdminRoute
  operationId : Option String
  modelBytes : List UInt8
deriving DecidableEq, Repr

/-- The response models of the routes: whether bytes are compact canonical JSON of the model. -/
class ResponseModels where
  canonical : AdminRoute → List UInt8 → Bool

/-- `RHI_ADMIN_RESPONSE_BODY_MAX_UTF8_BYTES`. -/
def responseBodyMaxBytes : Nat := 1048576

section Responses

variable [ResponseModels]

/-- What `RhiAdminResponseDocument::from_canonical_bytes` admits. -/
def responseAdmitted (route : AdminRoute) (bytes : List UInt8) : Bool :=
  !bytes.isEmpty && decide (bytes.length ≤ responseBodyMaxBytes) &&
    ResponseModels.canonical route bytes

/-- `RhiAdminResponseDocument`. -/
structure ResponseDocument where
  route : AdminRoute
  canonicalBytes : List UInt8
  admitted : responseAdmitted route canonicalBytes = true
deriving DecidableEq

/-- `RhiAdminResponseDocument::from_canonical_bytes`. -/
def ResponseDocument.fromCanonicalBytes (route : AdminRoute) (bytes : List UInt8) :
    Option ResponseDocument :=
  if admitted : responseAdmitted route bytes = true then some ⟨route, bytes, admitted⟩ else none

theorem ResponseDocument.nonempty (response : ResponseDocument) : response.canonicalBytes ≠ [] := by
  have admitted := response.admitted
  simp only [responseAdmitted, Bool.and_eq_true, Bool.not_eq_true', List.isEmpty_eq_false_iff]
    at admitted
  exact admitted.1.1

/-- A document is read back from its bytes. -/
theorem fromCanonicalBytes_canonicalBytes (document : ResponseDocument) :
    ResponseDocument.fromCanonicalBytes document.route document.canonicalBytes = some document := by
  simp [ResponseDocument.fromCanonicalBytes, document.admitted]

end Responses

end Rhi
