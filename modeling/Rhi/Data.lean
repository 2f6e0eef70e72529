import Mathlib.Algebra.Order.Ring.Nat
import Mathlib.Tactic.Common

/-!
# Identifiers, times and digests

Fixed-length byte strings are bit vectors, so that a value of the wrong length cannot be written.
Every integer column of the store is a signed 64-bit integer; the program binds only nonnegative
values to them.
-/

namespace Rhi

/-- `i64::MAX`, the bound of every counter and every instant. -/
def maxInteger : Nat := 9223372036854775807

/-- A 32-byte digest. -/
abbrev Digest := BitVec 256

abbrev TradeId := BitVec 128

abbrev JobId := Digest

abbrev EvidencePolicyDigest := Digest

abbrev EventId := Digest

abbrev EventSignature := BitVec 512

abbrev MutationId := Digest

abbrev PublicKey := Digest

abbrev AttemptId := Digest

/-- The hash function all identities are derived with. -/
class Sha256 where
  digest : List UInt8 → Digest

/-- Big-endian encoding of a value in the given number of bytes. -/
def toBeBytes (count value : Nat) : List UInt8 :=
  (List.range count).map fun index => UInt8.ofNat (value / 256 ^ (count - 1 - index))

/-- The bytes of an ASCII text, with the terminating zero of a hash domain. -/
def domainBytes (text : String) : List UInt8 :=
  text.toList.map (fun character => UInt8.ofNat character.toNat) ++ [0]

/-- `RhiReconciliationUnixMilliseconds`. -/
structure UnixMilliseconds where
  get : Nat
  bounded : get ≤ maxInteger
deriving DecidableEq, Repr

/-- `RhiTradeMutationObservedAtUnixSeconds`. -/
structure ObservedAt where
  get : Nat
  positive : 1 ≤ get
  bounded : get ≤ maxInteger
deriving DecidableEq, Repr

/-- `RhiReconciliationLeaseOwner`: a process-local token, never all zero. -/
structure LeaseOwner where
  bytes : BitVec 128
  nonzero : bytes ≠ 0
deriving DecidableEq, Repr

/-- Whether a text is an admissible source or relay identifier: 1 to 64 characters among
`a-z0-9_-`, the first of them a letter. -/
def validSourceText (text : String) : Bool :=
  match text.toList with
  | [] => false
  | first :: rest =>
      decide ('a' ≤ first) && decide (first ≤ 'z') && decide (rest.length < 64) &&
        rest.all fun character =>
          (decide ('a' ≤ character) && decide (character ≤ 'z')) ||
            (decide ('0' ≤ character) && decide (character ≤ '9')) ||
            character == '_' || character == '-'

/-- A configured source identifier. -/
structure SourceId where
  text : String
  valid : validSourceText text = true
deriving DecidableEq, Repr

/-- `RhiTradeSourceCursor`: position of an event in the order of a source. -/
structure SourceCursor where
  createdAt : Nat
  eventId : EventId
deriving DecidableEq, Repr

/-- Lexicographic order of cursors. -/
def SourceCursor.lt (left right : SourceCursor) : Bool :=
  decide (left.createdAt < right.createdAt) ||
    (left.createdAt == right.createdAt && decide (left.eventId < right.eventId))

/-- `RhiTradeSourceCompletion`. -/
inductive SourceCompletion where
  | complete
  | incompleteTimeout
  | incompleteUnavailable
  | incompleteResourceLimit
  | incompleteUnknown
  | unsupported
deriving DecidableEq, Repr

/-- `RhiTradeSourceCompletion::allows_checkpoint`. -/
def SourceCompletion.allowsCheckpoint : SourceCompletion → Bool
  | .complete => true
  | _ => false

/-- `RhiStateHostMode`: only one mode may write. -/
inductive HostMode where
  | readWriteExisting
  | readOnlyInspection
deriving DecidableEq, Repr

end Rhi
