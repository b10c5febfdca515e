import Hashring.Records

/-! The field encodings shared by the fingerprints of the node, and why each
can be read back: a field that carries its length, or a tag that announces
what follows, splits off the front of any byte string in one way only. -/
namespace Hashring

def flagByte (flag : Bool) : Byte := if flag then byte 1 else byte 0

def encodeBytes (bytes : Bytes) : Bytes := beBytes bytes.length ++ bytes

def encodeText (text : String) : Bytes := encodeBytes (utf8 text)

def encodeDeadline : Option Nat → Bytes
  | some expiresAt => byte 1 :: beBytes expiresAt
  | none => [byte 0]

def encodeVersion (version : RecordVersion) : Bytes :=
  beBytes version.topologyEpoch ++ beBytes version.ownerSequence ++ encodeText version.ownerNodeId

/-- A field encoding that can be read off the front of any byte string. -/
def Splits {α : Type} (encode : α → Bytes) (left right : α) : Prop :=
  ∀ early late, encode left ++ early = encode right ++ late → left = right ∧ early = late

theorem be_bytes_splits (a b : Nat) (left : a < 2 ^ 64) (right : b < 2 ^ 64) : Splits beBytes a b := by
  intro early late same
  have lengths : (beBytes a).length = (beBytes b).length := by rw [be_bytes_length, be_bytes_length]
  obtain ⟨head, tail⟩ := List.append_inj same lengths
  exact ⟨be_bytes_injective a b left right head, tail⟩

theorem flag_byte_injective (a b : Bool) (same : flagByte a = flagByte b) : a = b := by
  revert a b
  decide

theorem encode_bytes_splits (a b : Bytes) (left : a.length < 2 ^ 64) (right : b.length < 2 ^ 64) :
    Splits encodeBytes a b := by
  intro early late same
  simp only [encodeBytes, List.append_assoc] at same
  obtain ⟨lengths, rest⟩ := be_bytes_splits _ _ left right _ _ same
  exact List.append_inj rest lengths

theorem utf8_injective : Function.Injective utf8 := by
  intro a b same
  have bytes : a.toUTF8.data.toList = b.toUTF8.data.toList :=
    List.map_injective_iff.mpr (fun _ _ equal => UInt8.toFin_inj.mp equal) same
  have arrays : a.toUTF8 = b.toUTF8 := ByteArray.ext (Array.toList_inj.mp bytes)
  exact String.toByteArray_inj.mp arrays

theorem encode_text_splits (a b : String) (left : (utf8 a).length < 2 ^ 64)
    (right : (utf8 b).length < 2 ^ 64) :
    Splits encodeText a b := by
  intro early late same
  obtain ⟨texts, rest⟩ := encode_bytes_splits (utf8 a) (utf8 b) left right _ _ same
  exact ⟨utf8_injective texts, rest⟩

/-- A deadline the wire can carry. -/
def DeadlineFits (deadline : Option Nat) : Prop := ∀ expiresAt, deadline = some expiresAt →
    expiresAt < 2 ^ 64

theorem encode_deadline_splits (a b : Option Nat) (left : DeadlineFits a) (right : DeadlineFits b) :
    Splits encodeDeadline a b := by
  intro early late same
  cases a with
  | none =>
      cases b with
      | none => exact ⟨rfl, by simpa [encodeDeadline] using same⟩
      | some y => simp [encodeDeadline, byte] at same
  | some x =>
      cases b with
      | none => simp [encodeDeadline, byte] at same
      | some y =>
          simp only [encodeDeadline, List.cons_append, List.cons.injEq, true_and] at same
          obtain ⟨rfl, rest⟩ := be_bytes_splits x y (left x rfl) (right y rfl) _ _ same
          exact ⟨rfl, rest⟩

/-- A version the wire can carry. -/
structure VersionFits (version : RecordVersion) : Prop where
  topologyEpoch : version.topologyEpoch < 2 ^ 64
  ownerSequence : version.ownerSequence < 2 ^ 64
  ownerNodeId : (utf8 version.ownerNodeId).length < 2 ^ 64

theorem encode_version_splits (a b : RecordVersion) (left : VersionFits a) (right : VersionFits b) :
    Splits encodeVersion a b := by
  intro early late same
  obtain ⟨epoch, sequence, owner⟩ := a
  obtain ⟨epoch', sequence', owner'⟩ := b
  simp only [encodeVersion, List.append_assoc] at same
  obtain ⟨rfl, afterEpoch⟩ := be_bytes_splits _ _ left.topologyEpoch right.topologyEpoch _ _ same
  obtain ⟨rfl, afterSequence⟩ := be_bytes_splits _ _ left.ownerSequence right.ownerSequence _ _ afterEpoch
  obtain ⟨rfl, rest⟩ := encode_text_splits _ _ left.ownerNodeId right.ownerNodeId _ _ afterSequence
  exact ⟨rfl, rest⟩

end Hashring
