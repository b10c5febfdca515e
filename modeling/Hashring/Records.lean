import Mathlib.Data.List.Lex
import Mathlib.Data.Prod.Lex
import Mathlib.Data.String.Basic
import Mathlib.Order.Fin.Basic
import Mathlib.Order.Lex
import Mathlib.Tactic.NormNum

/-! Keys, versions and records of crates/hashring-node. Counters and clocks of
the node are natural numbers: none of them wraps in the life of a process.
Numbers that are hashed are written as the eight bytes the source writes. The
hash functions of the xxhash and blake3 crates are parameters. -/
namespace Hashring

abbrev Byte := Fin 256
abbrev Bytes := List Byte

def byte (n : Nat) : Byte := ⟨n % 256, Nat.mod_lt n (by decide)⟩

abbrev Token := Nat

/-- Nanoseconds on a process's monotonic clock. -/
abbrev Instant := Nat

/-- The readings one critical section takes of the monotonic and the system
clock: the first one and the last one. -/
structure Clock where
  now : Instant
  later : Instant
  unixMillis : Nat
  unixLater : Nat
  ordered : now ≤ later

structure Hashing where
  xxh3 : Bytes → Nat → Token
  blake3 : Bytes → Bytes

def keyToken (hashing : Hashing) (key : Bytes) (hashSeed : Nat) : Token := hashing.xxh3 key hashSeed

def utf8 (text : String) : Bytes := text.toUTF8.data.toList.map UInt8.toFin

/-- `u64::to_be_bytes`. -/
def beBytes (n : Nat) : Bytes := (List.range 8).reverse.map fun i => byte (n / 256 ^ i)

structure RecordVersion where
  topologyEpoch : Nat
  ownerSequence : Nat
  ownerNodeId : String
  deriving DecidableEq

namespace RecordVersion

def rank (version : RecordVersion) : Nat ×ₗ Nat ×ₗ String :=
  toLex (version.topologyEpoch, toLex (version.ownerSequence, version.ownerNodeId))

theorem rank_injective : Function.Injective rank := by
  rintro ⟨epoch, sequence, node⟩ ⟨epoch', sequence', node'⟩ same
  simp only [rank, EmbeddingLike.apply_eq_iff_eq, Prod.mk.injEq] at same
  obtain ⟨rfl, rfl, rfl⟩ := same
  rfl

instance : LinearOrder RecordVersion := LinearOrder.lift' rank rank_injective

theorem lt_iff (left right : RecordVersion) :
    left < right ↔ left.topologyEpoch < right.topologyEpoch ∨
      left.topologyEpoch = right.topologyEpoch ∧
        (left.ownerSequence < right.ownerSequence ∨
          left.ownerSequence = right.ownerSequence ∧ left.ownerNodeId < right.ownerNodeId) := by
  change rank left < rank right ↔ _
  simp only [rank, Prod.Lex.toLex_lt_toLex]

end RecordVersion

/-- `compare_versions`: epoch, then sequence, then node. -/
def compareVersions (left right : RecordVersion) : Ordering := compare left right

/-- The deadline a stored record carries; zero on the wire says "none". -/
def storedDeadline (expiresAtUnixMillis : Option Nat) : Option Nat :=
  expiresAtUnixMillis.filter fun expiresAt => expiresAt != 0

theorem stored_deadline_ne_zero (deadline : Option Nat) : storedDeadline deadline ≠ some 0 := by
  intro stored
  simpa using (Option.filter_eq_some_iff.mp stored).2

/-- A stored record. Every writer of the source drops a zero deadline and a
tombstone's value before it stores one, so neither can be built here. -/
structure Record where
  value : Bytes
  version : RecordVersion
  deleted : Bool
  expiresAtUnixMillis : Option Nat
  deadlineNonzero : expiresAtUnixMillis ≠ some 0
  tombstoneEmpty : deleted = true → value = []
  deriving DecidableEq

/-- A record built from wire fields once a tombstone with a value was refused. -/
def Record.stored (value : Bytes) (version : RecordVersion) (deleted : Bool)
    (expiresAtUnixMillis : Option Nat) (clean : ¬(deleted = true ∧ value ≠ [])) : Record where
  value
  version
  deleted
  expiresAtUnixMillis := storedDeadline expiresAtUnixMillis
  deadlineNonzero := stored_deadline_ne_zero expiresAtUnixMillis
  tombstoneEmpty removed := by
    by_contra carried
    exact clean ⟨removed, carried⟩

def Record.isExpired (record : Record) (nowUnixMillis : Nat) : Bool :=
  record.expiresAtUnixMillis.any fun expiresAt => expiresAt ≤ nowUnixMillis

theorem stored_deadline_record (record : Record) :
    storedDeadline record.expiresAtUnixMillis = record.expiresAtUnixMillis := by
  have nonzero := record.deadlineNonzero
  cases deadline : record.expiresAtUnixMillis with
  | none => rfl
  | some expiresAt =>
      rw [deadline] at nonzero
      have different : expiresAt ≠ 0 := fun zero => nonzero (congrArg some zero)
      simp [storedDeadline, Option.filter, different]

theorem be_bytes_length (n : Nat) : (beBytes n).length = 8 := by
  simp [beBytes]

theorem mod_pow_of_digits {base a b : Nat} (count : Nat)
    (same : ∀ i < count, a / base ^ i % base = b / base ^ i % base) :
    a % base ^ count = b % base ^ count := by
  induction count with
  | zero => rw [Nat.pow_zero, Nat.mod_one, Nat.mod_one]
  | succ count ih =>
      rw [Nat.mod_pow_succ, Nat.mod_pow_succ, same count (Nat.lt_succ_self count)]
      rw [ih fun i bound => same i (bound.trans (Nat.lt_succ_self count))]

theorem be_bytes_injective (a b : Nat) (left : a < 2 ^ 64) (right : b < 2 ^ 64)
    (same : beBytes a = beBytes b) : a = b := by
  have digit : ∀ i < 8, a / 256 ^ i % 256 = b / 256 ^ i % 256 := by
    intro i bound
    have equal := List.map_inj_left.mp same i (by simpa using bound)
    simpa [byte, Fin.ext_iff] using equal
  have whole : a % 2 ^ 64 = b % 2 ^ 64 := mod_pow_of_digits 8 digit
  rwa [Nat.mod_eq_of_lt left, Nat.mod_eq_of_lt right] at whole

end Hashring
