import Rhi.Admin
import Rhi.Lib.Base64
import Rhi.Lib.Hashing

/-!
# Cursors of the admin routes

A cursor is a payload of 46 bytes and its tag, as one text.  The payload names the route and the
query it was made for, next to the position it stands for.
-/

namespace Rhi

/-- `route_code`. -/
def routeCode : AdminRoute → UInt8
  | .status => 0
  | .effectiveConfig => 1
  | .identityStatus => 2
  | .identityPublic => 3
  | .stateStatus => 4
  | .stateBackup => 5
  | .metricsSnapshot => 6
  | .reconciliationStatus => 7
  | .reconciliationJobs => 8
  | .reconciliationRefresh => 9
  | .sources => 10
  | .tradeProjection => 11
  | .tradeReportCurrent => 12
  | .tradeReports => 13
  | .publicationBacklog => 14
  | .publicationTargets => 15
  | .publicationRetry => 16
  | .presenceDesired => 17
  | .presenceRender => 18
  | .presenceRefresh => 19

theorem routeCode_inj {left right : AdminRoute} (same : routeCode left = routeCode right) :
    left = right := by
  cases left <;> cases right <;> first | rfl | cases same

section Cursors

/-- The key of a process, 32 random bytes. -/
abbrev CursorKey := BitVec 256

/-- What a cursor stands for, and the route and query it was made for. -/
structure CursorRequest where
  route : AdminRoute
  snapshot : UInt64
  offset : UInt32
  queryDigest : Digest
deriving DecidableEq, Repr

/-- The bytes of a cursor before its tag. -/
def CursorRequest.payload (request : CursorRequest) : List UInt8 :=
  1 :: routeCode request.route :: (toBeBytes 8 request.snapshot.toNat ++
    toBeBytes 4 request.offset.toNat ++ toBeBytes 32 request.queryDigest.toNat)

variable [Sha256]

/-- `cursor_tag`, the finished `cursor_authenticator` of the payload. -/
def cursorTag (key : CursorKey) (payload : List UInt8) : List UInt8 :=
  Hashing.hmac (fun message => toBeBytes 32 (Sha256.digest message).toNat) 64
    (toBeBytes 32 key.toNat)
    (domainBytes "radroots.rhi.admin_cursor.v1" ++ toBeBytes 8 payload.length ++ payload)

/-- `encode_runtime_cursor`. -/
def encodeRuntimeCursor (key : CursorKey) (route : AdminRoute) (snapshot : UInt64)
    (offset : UInt32) (queryDigest : Digest) : String :=
  let bytes := CursorRequest.payload { route, snapshot, offset, queryDigest }
  Base64.encode (bytes ++ cursorTag key bytes)

/-- `decode_runtime_cursor`.  The verification of the tag compares all of its bytes. -/
def decodeRuntimeCursor (key : CursorKey) (route : AdminRoute) (encoded : String)
    (queryDigest : Digest) : Except AdminHandlerErrorKind (UInt64 × UInt32) :=
  match Base64.decode encoded with
  | none => .error .invalidCursor
  | some bytes =>
      if bytes.length ≠ 78 ∨ bytes[0]? ≠ some 1 ∨ bytes[1]? ≠ some (routeCode route) ∨
          (bytes.drop 14).take 32 ≠ toBeBytes 32 queryDigest.toNat then
        .error .invalidCursor
      else if bytes.drop 46 ≠ cursorTag key (bytes.take 46) then
        .error .invalidCursor
      else
        .ok (UInt64.ofNat (fromBeBytes ((bytes.drop 2).take 8)),
          UInt32.ofNat (fromBeBytes ((bytes.drop 10).take 4)))

omit [Sha256] in
theorem length_payload (request : CursorRequest) : request.payload.length = 46 := by
  simp [CursorRequest.payload]

theorem length_cursorTag (key : CursorKey) (payload : List UInt8) :
    (cursorTag key payload).length = 32 := by
  simp [cursorTag, Hashing.hmac]

omit [Sha256] in
/-- A payload names its request unambiguously. -/
theorem payload_inj {left right : CursorRequest} (same : left.payload = right.payload) :
    left = right := by
  simp only [CursorRequest.payload, List.cons.injEq, true_and] at same
  rcases same with ⟨route, rest⟩
  rcases List.append_inj rest (by simp) with ⟨numbers, digest⟩
  rcases List.append_inj numbers (by simp) with ⟨snapshot, offset⟩
  have sameSnapshot := toBeBytes_inj left.snapshot.toNat_lt right.snapshot.toNat_lt snapshot
  have sameOffset := toBeBytes_inj left.offset.toNat_lt right.offset.toNat_lt offset
  have sameDigest := toBeBytes_inj left.queryDigest.isLt right.queryDigest.isLt digest
  cases left
  cases right
  simp only [CursorRequest.mk.injEq]
  exact ⟨routeCode_inj route, UInt64.toNat_inj.mp sameSnapshot, UInt32.toNat_inj.mp sameOffset,
    BitVec.eq_of_toNat_eq sameDigest⟩

omit [Sha256] in
/-- The checked bytes of a cursor are the payload of what it is decoded to. -/
theorem payload_of_checked {bytes : List UInt8} {route : AdminRoute} {queryDigest : Digest}
    (length : bytes.length = 78) (version : bytes[0]? = some 1)
    (code : bytes[1]? = some (routeCode route))
    (digest : (bytes.drop 14).take 32 = toBeBytes 32 queryDigest.toNat) :
    CursorRequest.payload {
      route, queryDigest
      snapshot := UInt64.ofNat (fromBeBytes ((bytes.drop 2).take 8))
      offset := UInt32.ofNat (fromBeBytes ((bytes.drop 10).take 4)) } = bytes.take 46 := by
  rcases bytes with _ | ⟨first, _ | ⟨second, rest⟩⟩
  · cases length
  · cases length
  · simp only [List.length_cons] at length
    simp only [List.getElem?_cons_zero, List.getElem?_cons_succ, Option.some.injEq] at version code
    simp only [List.drop_succ_cons, List.drop_zero] at digest ⊢
    have snapshotLength : (rest.take 8).length = 8 := by simp; omega
    have offsetLength : ((rest.drop 8).take 4).length = 4 := by simp; omega
    have snapshotBytes := toBeBytes_fromBeBytes (rest.take 8)
    have offsetBytes := toBeBytes_fromBeBytes ((rest.drop 8).take 4)
    have snapshotLt : fromBeBytes (rest.take 8) < 2 ^ 64 := by
      have bounded := fromBeBytes_lt (rest.take 8)
      rw [snapshotLength] at bounded
      omega
    have offsetLt : fromBeBytes ((rest.drop 8).take 4) < 2 ^ 32 := by
      have bounded := fromBeBytes_lt ((rest.drop 8).take 4)
      rw [offsetLength] at bounded
      omega
    rw [snapshotLength] at snapshotBytes
    rw [offsetLength] at offsetBytes
    have split : rest.take 44 = rest.take 8 ++ (rest.drop 8).take 4 ++ (rest.drop 12).take 32 := by
      rw [show 44 = 8 + (4 + 32) from rfl, List.take_add, List.take_add, List.drop_drop,
        List.append_assoc]
    rw [List.take_succ_cons, List.take_succ_cons, split]
    simp only [CursorRequest.payload]
    rw [UInt64.toNat_ofNat', UInt32.toNat_ofNat', Nat.mod_eq_of_lt snapshotLt,
      Nat.mod_eq_of_lt offsetLt, snapshotBytes, offsetBytes, version, code, digest]

theorem decodeRuntimeCursor_eq_ok {key : CursorKey} {route : AdminRoute} {encoded : String}
    {queryDigest : Digest} {snapshot : UInt64} {offset : UInt32}
    (decoded : decodeRuntimeCursor key route encoded queryDigest = .ok (snapshot, offset)) :
    encoded = encodeRuntimeCursor key route snapshot offset queryDigest := by
  unfold decodeRuntimeCursor at decoded
  split at decoded
  · cases decoded
  · rename_i bytes read
    split at decoded
    · cases decoded
    · rename_i checked
      split at decoded
      · cases decoded
      · rename_i authentic
        simp only [not_or, not_not] at checked authentic
        rcases checked with ⟨length, version, code, digest⟩
        cases decoded
        unfold encodeRuntimeCursor
        simp only
        rw [payload_of_checked length version code digest, ← authentic, List.take_append_drop,
          Base64.encode_of_decode read]

omit [Sha256] in
/-- Where the parts of a payload stand. -/
theorem payload_slices (request : CursorRequest) (tag : List UInt8) :
    ((request.payload ++ tag).drop 2).take 8 = toBeBytes 8 request.snapshot.toNat ∧
      ((request.payload ++ tag).drop 10).take 4 = toBeBytes 4 request.offset.toNat ∧
      ((request.payload ++ tag).drop 14).take 32 = toBeBytes 32 request.queryDigest.toNat := by
  have snapshotLength := length_toBeBytes 8 request.snapshot.toNat
  have offsetLength := length_toBeBytes 4 request.offset.toNat
  have digestLength := length_toBeBytes 32 request.queryDigest.toNat
  simp only [CursorRequest.payload, List.cons_append, List.drop_succ_cons, List.drop_zero,
    List.append_assoc]
  refine ⟨List.take_left' snapshotLength, ?_, ?_⟩
  · rw [List.drop_left' snapshotLength]
    exact List.take_left' offsetLength
  · rw [show 12 = 8 + 4 from rfl, ← List.drop_drop, List.drop_left' snapshotLength,
      List.drop_left' offsetLength]
    exact List.take_left' digestLength

theorem decodeRuntimeCursor_encodeRuntimeCursor (key : CursorKey) (request : CursorRequest) :
    decodeRuntimeCursor key request.route (encodeRuntimeCursor key request.route request.snapshot
      request.offset request.queryDigest) request.queryDigest =
        .ok (request.snapshot, request.offset) := by
  rcases payload_slices request (cursorTag key request.payload) with ⟨snapshot, offset, digest⟩
  have payloadLength := length_payload request
  have length : (request.payload ++ cursorTag key request.payload).length = 78 := by
    rw [List.length_append, payloadLength, length_cursorTag]
  have version : (request.payload ++ cursorTag key request.payload)[0]? = some 1 := rfl
  have code : (request.payload ++ cursorTag key request.payload)[1]? =
      some (routeCode request.route) := rfl
  have snapshotLt : request.snapshot.toNat < 256 ^ 8 := by
    have bounded := request.snapshot.toNat_lt
    omega
  have offsetLt : request.offset.toNat < 256 ^ 4 := by
    have bounded := request.offset.toNat_lt
    omega
  unfold decodeRuntimeCursor encodeRuntimeCursor
  simp only [Base64.decode_encode]
  rw [if_neg (by simp only [length, version, code, digest]; simp),
    if_neg (by rw [List.take_left' payloadLength, List.drop_left' payloadLength]; simp),
    snapshot, offset, fromBeBytes_toBeBytes, fromBeBytes_toBeBytes,
    Nat.mod_eq_of_lt snapshotLt, Nat.mod_eq_of_lt offsetLt,
    UInt64.ofNat_toNat, UInt32.ofNat_toNat]

/-- No valid tag in the text but those of the payloads that were tagged with the key. -/
def Unforgeable (key : CursorKey) (made : List CursorRequest) (text : String) : Prop :=
  ∀ bytes, Base64.decode text = some bytes →
    bytes.drop 46 = cursorTag key (bytes.take 46) →
      ∃ request ∈ made, request.payload = bytes.take 46

/-- What the cursors of a process are worth. -/
structure CursorsAuthentic : Prop where
  roundTrip : ∀ (key : CursorKey) (route : AdminRoute) (snapshot : UInt64) (offset : UInt32)
    (queryDigest : Digest), decodeRuntimeCursor key route
      (encodeRuntimeCursor key route snapshot offset queryDigest) queryDigest =
        .ok (snapshot, offset)
  canonical : ∀ (key : CursorKey) (route : AdminRoute) (text : String) (queryDigest : Digest)
    (snapshot : UInt64) (offset : UInt32),
    decodeRuntimeCursor key route text queryDigest = .ok (snapshot, offset) →
      text = encodeRuntimeCursor key route snapshot offset queryDigest
  authentic : ∀ (key : CursorKey) (made : List CursorRequest) (text : String),
    Unforgeable key made text → ∀ (route : AdminRoute) (queryDigest : Digest) (snapshot : UInt64)
      (offset : UInt32), decodeRuntimeCursor key route text queryDigest = .ok (snapshot, offset) →
        { route, snapshot, offset, queryDigest } ∈ made
  bound : ∀ (key other : CursorKey) (request : CursorRequest) (route : AdminRoute)
    (queryDigest : Digest) (cursor : UInt64 × UInt32),
    decodeRuntimeCursor key route (encodeRuntimeCursor other request.route request.snapshot
      request.offset request.queryDigest) queryDigest = .ok cursor →
        route = request.route ∧ queryDigest = request.queryDigest
  unique : ∀ (key : CursorKey) (route : AdminRoute) (queryDigest : Digest) (left right : String)
    (cursor : UInt64 × UInt32), decodeRuntimeCursor key route left queryDigest = .ok cursor →
      decodeRuntimeCursor key route right queryDigest = .ok cursor → left = right

theorem decode_encodeRuntimeCursor (key : CursorKey) (request : CursorRequest) :
    Base64.decode (encodeRuntimeCursor key request.route request.snapshot request.offset
      request.queryDigest) = some (request.payload ++ cursorTag key request.payload) :=
  Base64.decode_encode _

/-- Whatever the keys, one text is the cursor of one request only. -/
theorem request_eq_of_encoded {left right : CursorKey} {first second : CursorRequest}
    (same : encodeRuntimeCursor left first.route first.snapshot first.offset first.queryDigest =
      encodeRuntimeCursor right second.route second.snapshot second.offset second.queryDigest) :
    first = second := by
  have bytes := congrArg Base64.decode same
  rw [decode_encodeRuntimeCursor, decode_encodeRuntimeCursor, Option.some.injEq] at bytes
  have lengths : first.payload.length = second.payload.length := by
    rw [length_payload, length_payload]
  exact payload_inj (List.append_inj bytes lengths).1

/-- An accepted text was made, unless its tag is forged. -/
theorem made_of_decoded {key : CursorKey} {made : List CursorRequest} {text : String}
    {request : CursorRequest} (unforgeable : Unforgeable key made text)
    (decoded : decodeRuntimeCursor key request.route text request.queryDigest =
      .ok (request.snapshot, request.offset)) : request ∈ made := by
  have same := decodeRuntimeCursor_eq_ok decoded
  have read := decode_encodeRuntimeCursor key request
  rw [← same] at read
  have payloadLength := length_payload request
  rcases unforgeable _ read (by rw [List.take_left' payloadLength, List.drop_left' payloadLength])
    with ⟨other, otherMem, named⟩
  rw [List.take_left' payloadLength] at named
  rwa [← payload_inj named]

/-- A cursor is accepted exactly for what it was made for, as the one text that was made. -/
theorem cursors_authentic : CursorsAuthentic where
  roundTrip key route snapshot offset queryDigest :=
    decodeRuntimeCursor_encodeRuntimeCursor key { route, snapshot, offset, queryDigest }
  canonical _ _ _ _ _ _ decoded := decodeRuntimeCursor_eq_ok decoded
  authentic _ _ _ unforgeable route queryDigest snapshot offset decoded :=
    @made_of_decoded _ _ _ _ { route, snapshot, offset, queryDigest } unforgeable decoded
  bound _ _ request route queryDigest cursor decoded := by
    have equal := @request_eq_of_encoded _ _ _ request
      { route, snapshot := cursor.1, offset := cursor.2, queryDigest }
      (decodeRuntimeCursor_eq_ok decoded)
    rw [equal]
    exact ⟨rfl, rfl⟩
  unique _ _ _ left right _ leftDecoded rightDecoded := by
    rw [decodeRuntimeCursor_eq_ok leftDecoded, decodeRuntimeCursor_eq_ok rightDecoded]

end Cursors

end Rhi
