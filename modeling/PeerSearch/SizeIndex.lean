import PeerSearch.Fingerprint
import PeerSearch.Identifier
import PeerSearch.SortedMap

/-!
# PeerSearch.SizeIndex -- finding groups without a content hash

Groups are kept in buckets by the size of their file, in the order in which they were registered.
A probe is compared with the buckets from its own size upwards and then downwards; each direction
ends at the first file that is too far away in size.
-/

namespace PeerSearch

/-- Registered groups of one size, each with the fingerprint it was registered under. -/
abbrev SizeIndex.Bucket := List (GroupId × Fingerprint)

/-- Registered groups by size. -/
structure SizeIndex where
  buckets : SortedMap Nat SizeIndex.Bucket
  deriving DecidableEq

namespace SizeIndex

/-! ## Registration -/

/-- The index without groups. -/
def empty : SizeIndex :=
  ⟨∅⟩

def isEmpty (ix : SizeIndex) : Bool :=
  ix.buckets.isEmpty

/-- The number of registered groups. -/
def size (ix : SizeIndex) : Nat :=
  (ix.buckets.values.map List.length).foldr (· + ·) 0

/-- The bucket for a size, empty when there is none. -/
def bucket (ix : SizeIndex) (size : Nat) : Bucket :=
  (ix.buckets.find? size).getD []

/-- Registers a group at the end of the bucket for its size. -/
def add (ix : SizeIndex) (id : GroupId) (f : Fingerprint) : SizeIndex :=
  ⟨ix.buckets.insert f.size (ix.bucket f.size ++ [(id, f)])⟩

/-- Whether the bucket for a size lists a group. -/
def lists (ix : SizeIndex) (id : GroupId) (size : Nat) : Bool :=
  (ix.bucket size).any (·.1 == id)

/-- Drops a group from the bucket for a size; a bucket left empty goes too. -/
def remove (ix : SizeIndex) (id : GroupId) (size : Nat) : SizeIndex :=
  match ix.buckets.find? size with
  | none => ix
  | some bucket =>
    let rest := bucket.filter (·.1 != id)
    ⟨if rest.isEmpty then ix.buckets.erase size else ix.buckets.insert size rest⟩

/-! ## Search -/

/-- Outcome of comparing a probe with one bucket. -/
inductive BucketScan where
  | found (id : GroupId)
  /-- Nothing matched, but the next bucket still could. -/
  | keepScanning
  /-- The file is too far away in size; this direction has ended. -/
  | stop
  deriving DecidableEq, Repr

/-- Compares a probe with the groups of a bucket in turn. -/
def scanBucket (probe : Fingerprint) : Bucket → BucketScan
  | [] => .keepScanning
  | (id, f) :: rest =>
    match f.compareTo probe with
    | .identical => .found id
    | .different => .stop
    | .sameSizeDifferentName => scanBucket probe rest

/-- Compares a probe with buckets in turn until one has a match or ends the scan. -/
def scanBuckets (probe : Fingerprint) : List (Nat × Bucket) → Option GroupId
  | [] => none
  | (_, bucket) :: rest =>
    match scanBucket probe bucket with
    | .found id => some id
    | .stop => none
    | .keepScanning => scanBuckets probe rest

/-- A registered group whose fingerprint matches the probe. -/
def find? (ix : SizeIndex) (probe : Fingerprint) : Option GroupId :=
  (scanBuckets probe (ix.buckets.entries.filter (probe.size ≤ ·.1))).or
    (scanBuckets probe (ix.buckets.entries.filter (·.1 < probe.size)).reverse)

end SizeIndex

end PeerSearch
