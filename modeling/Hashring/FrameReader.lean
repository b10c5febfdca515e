import Mathlib.Data.List.Flatten
import Mathlib.Order.Basic

/-! Frames taken off a stream that arrives in pieces. A parser looks at all that
has arrived and is not yet consumed: it takes a frame off the front, asks for
more, or gives up. What is taken goes to a consumer, whose state may decide how
the next frame is parsed. -/
namespace Hashring

inductive Frame (β ε : Type) where
  | taken (value : β) (length : Nat)
  | incomplete
  | invalid (error : ε)
  deriving DecidableEq

structure FrameReader (α β ε σ : Type) where
  parse : σ → List α → Frame β ε
  /-- The consumer's next state and whether it ends the stream. -/
  accept : σ → β → σ × Bool
  /-- Why this much unconsumed input is refused before anything in it is parsed. -/
  overflow : σ → List α → Option ε

/-- Where reading stands: short of input, ended by the consumer, or refused. -/
inductive Reading (α ε σ : Type) where
  | waiting (state : σ) (pending : List α)
  | closed (state : σ)
  | refused (state : σ) (error : ε)

def Reading.state {α ε σ : Type} : Reading α ε σ → σ
  | .waiting state _ | .closed state | .refused state _ => state

def Reading.isRefused {α ε σ : Type} : Reading α ε σ → Bool
  | .refused _ _ => true
  | .waiting _ _ | .closed _ => false

namespace FrameReader

variable {α β ε σ : Type} (reader : FrameReader α β ε σ)

/-- Takes the frame at the front, if there is one, and goes on after it. -/
def turn (goOn : σ → List α → Reading α ε σ) (state : σ) (buffer : List α) : Reading α ε σ :=
  match reader.parse state buffer with
  | .taken value length =>
      if (reader.accept state value).2 then .closed (reader.accept state value).1
      else goOn (reader.accept state value).1 (buffer.drop length)
  | .incomplete => .waiting state buffer
  | .invalid error => .refused state error

def takeFrames : Nat → σ → List α → Reading α ε σ
  | 0 => .waiting
  | turns + 1 => reader.turn (takeFrames turns)

/-- Takes frames until the input runs short. Every frame is at least one symbol
long, so as many turns as there are symbols are enough. -/
def drain (state : σ) (buffer : List α) : Reading α ε σ := reader.takeFrames buffer.length state buffer

def serve : σ → List α → List (List α) → Reading α ε σ
  | state, pending, [] => .waiting state pending
  | state, pending, piece :: rest =>
      match reader.overflow state (pending ++ piece) with
      | some error => .refused state error
      | none =>
          match reader.drain state (pending ++ piece) with
          | .waiting next kept => serve next kept rest
          | ended => ended

/-- The consumer states and remaining inputs that frame after frame leads to. -/
inductive Reached (state : σ) (stream : List α) : σ → List α → Prop where
  | start : Reached state stream state stream
  | step {before next : σ} {rest : List α} {value : β} {length : Nat}
      (reached : Reached state stream before rest)
      (parsed : reader.parse before rest = .taken value length)
        (accepted : reader.accept before value = (next, false)) :
      Reached state stream next (rest.drop length)

/-- What a parser owes so that where its input was cut cannot matter. -/
structure Lawful : Prop where
  empty : ∀ state, reader.parse state [] = .incomplete
  forward : ∀ {state buffer value length}, reader.parse state buffer = .taken value length →
    0 < length ∧ length ≤ buffer.length
  extended : ∀ {state buffer value length} (more : List α), reader.parse state buffer =
    .taken value length →
    reader.parse state (buffer ++ more) = .taken value length

/-- A refusal along this stream is never taken back when more of it arrives. -/
def Steady (state : σ) (stream : List α) : Prop :=
  ∀ before rest, reader.Reached state stream before rest →
    ∀ early late error, rest = early ++ late → reader.parse before early = .invalid error →
      reader.parse before rest = .invalid error

/-- No read along this stream brings more unconsumed input than is allowed. -/
def Roomy (state : σ) (stream : List α) (pieces : List (List α)) : Prop :=
  ∀ before pending piece late, reader.Reached state stream before (pending ++ piece ++ late) →
    reader.parse before pending = .incomplete → piece ∈ pieces →
      reader.overflow before (pending ++ piece) = none

variable {reader}

theorem Reached.trans {state middle last : σ} {stream rest final : List α}
    (early : reader.Reached state stream middle rest) (late : reader.Reached middle rest last final) :
    reader.Reached state stream last final := by
  induction late with
  | start => exact early
  | step _ parsed accepted ih => exact .step ih parsed accepted

theorem Steady.later {state next : σ} {stream rest : List α} (steady : reader.Steady state stream)
    (reached : reader.Reached state stream next rest) : reader.Steady next rest := by
  intro before final further
  exact steady before final (reached.trans further)

theorem take_frames_refused (turns : Nat) {state last : σ} {buffer : List α} {error : ε}
    (refused : reader.takeFrames turns state buffer = .refused last error) :
    ∃ rest, reader.parse last rest = .invalid error := by
  induction turns generalizing state buffer with
  | zero => exact absurd refused (by simp [takeFrames])
  | succ turns ih =>
      rw [takeFrames, turn] at refused
      split at refused
      · split at refused
        · exact absurd refused (by simp)
        · exact ih refused
      · exact absurd refused (by simp)
      · rename_i found
        obtain ⟨rfl, rfl⟩ := Reading.refused.inj refused
        exact ⟨buffer, found⟩

theorem serve_refused {state last : σ} {pending : List α} {pieces : List (List α)} {error : ε}
    (refused : reader.serve state pending pieces = .refused last error) :
    ∃ rest, reader.parse last rest = .invalid error ∨ reader.overflow last rest = some error := by
  induction pieces generalizing state pending with
  | nil => exact absurd refused (by simp [serve])
  | cons piece pieces ih =>
      rw [serve] at refused
      split at refused
      · rename_i full
        obtain ⟨rfl, rfl⟩ := Reading.refused.inj refused
        exact ⟨_, .inr full⟩
      · split at refused
        · exact ih refused
        · obtain ⟨rest, found⟩ := take_frames_refused _ refused
          exact ⟨rest, .inl found⟩

/-- What each frame taken from this stream keeps, the frames of a buffer keep; what
they leave unconsumed is still the stream's end. -/
theorem take_frames_invariant {holds : σ → Prop} {stream : List α}
    (keeps : ∀ {state buffer value length}, buffer <:+: stream → holds state →
      reader.parse state buffer = .taken value length → holds (reader.accept state value).1)
    (turns : Nat) {state : σ} {buffer late : List α} (inside : buffer ++ late <:+ stream)
    (start : holds state) :
    holds (reader.takeFrames turns state buffer).state ∧
      ∀ next kept, reader.takeFrames turns state buffer = .waiting next kept →
        kept ++ late <:+ stream := by
  induction turns generalizing state buffer with
  | zero => exact ⟨start, fun next kept same => (Reading.waiting.inj same).2 ▸ inside⟩
  | succ turns ih =>
      rw [takeFrames, turn]
      split
      · rename_i value length parsed
        have kept := keeps ((List.infix_append_left).trans inside.isInfix) start parsed
        split
        · exact ⟨kept, fun next left same => absurd same (by simp)⟩
        · apply ih _ kept
          exact ((List.suffix_append_self_iff).mpr (List.drop_suffix length buffer)).trans inside
      · exact ⟨start, fun next kept same => (Reading.waiting.inj same).2 ▸ inside⟩
      · exact ⟨start, fun next kept same => absurd same (by simp)⟩

theorem serve_invariant {holds : σ → Prop} {stream : List α}
    (keeps : ∀ {state buffer value length}, buffer <:+: stream → holds state →
      reader.parse state buffer = .taken value length → holds (reader.accept state value).1)
    {state : σ} {pending : List α} {pieces : List (List α)}
    (inside : pending ++ pieces.flatten <:+ stream)
    (start : holds state) : holds (reader.serve state pending pieces).state := by
  induction pieces generalizing state pending with
  | nil => exact start
  | cons piece pieces ih =>
      rw [List.flatten_cons, ← List.append_assoc] at inside
      obtain ⟨kept, left⟩ := take_frames_invariant keeps (pending ++ piece).length inside start
      rw [serve]
      split
      · exact start
      · split
        · rename_i next rest waits
          rw [drain] at waits
          rw [waits] at kept
          exact ih (left next rest waits) kept
        · exact kept

section Cuts

variable (lawful : reader.Lawful)
include lawful

theorem take_frames_enough (turns more : Nat) (state : σ) (buffer : List α)
    (enough : buffer.length ≤ turns)
    (plenty : buffer.length ≤ more) :
    reader.takeFrames turns state buffer = reader.takeFrames more state buffer := by
  induction turns generalizing more state buffer with
  | zero =>
      obtain rfl : buffer = [] := List.length_eq_zero_iff.mp (by omega)
      cases more with
      | zero => rfl
      | succ more => simp [takeFrames, turn, lawful.empty]
  | succ turns ih =>
      cases more with
      | zero =>
          obtain rfl : buffer = [] := List.length_eq_zero_iff.mp (by omega)
          simp [takeFrames, turn, lawful.empty]
      | succ more =>
          simp only [takeFrames, turn]
          cases parsed : reader.parse state buffer with
          | incomplete => rfl
          | invalid error => rfl
          | taken value length =>
              obtain ⟨positive, _⟩ := lawful.forward parsed
              have shorter : (buffer.drop length).length + length = buffer.length := by
                rw [List.length_drop]
                omega
              simp only
              rw [ih more _ _ (by omega) (by omega)]

theorem drain_turn (state : σ) (buffer : List α) :
    reader.drain state buffer = reader.turn reader.drain state buffer := by
  have once : reader.drain state buffer = reader.takeFrames (buffer.length + 1) state buffer :=
    take_frames_enough lawful _ _ state buffer (Nat.le_refl _) (Nat.le_succ _)
  rw [once, takeFrames, turn, turn]
  cases parsed : reader.parse state buffer with
  | incomplete => rfl
  | invalid error => rfl
  | taken value length =>
      obtain ⟨positive, _⟩ := lawful.forward parsed
      simp only [drain]
      rw [take_frames_enough lawful buffer.length (buffer.drop length).length _ _
        (by rw [List.length_drop]; omega) (Nat.le_refl _)]

theorem drain_waiting {state next : σ} {buffer kept : List α}
    (waits : reader.drain state buffer = .waiting next kept) :
    reader.parse next kept = .incomplete ∧ ∀ late, reader.Reached state (buffer ++ late) next
      (kept ++ late) := by
  -- On how much is unconsumed: a frame taken here is taken with any more input behind it.
  induction length : buffer.length using Nat.strongRecOn generalizing state buffer with
  | _ size ih =>
      rw [drain_turn lawful, turn] at waits
      cases parsed : reader.parse state buffer with
      | invalid error => simp [parsed] at waits
      | incomplete =>
          rw [parsed] at waits
          cases waits
          exact ⟨parsed, fun late => .start⟩
      | taken value taken =>
          obtain ⟨positive, bounded⟩ := lawful.forward parsed
          simp only [parsed] at waits
          split at waits
          · exact absurd waits (by simp)
          · rename_i open_
            obtain ⟨short, reached⟩ := ih _ (by rw [← length, List.length_drop]; omega) waits rfl
            refine ⟨short, fun late => ?_⟩
            have first : reader.Reached state (buffer ++ late) (reader.accept state value).1
                ((buffer ++ late).drop taken) :=
              .step .start (lawful.extended late parsed) (Prod.ext rfl (by simpa using open_))
            rw [List.drop_append_of_le_length bounded] at first
            exact first.trans (reached late)

theorem drain_append {state : σ} {buffer late : List α} (steady : reader.Steady state (buffer ++ late)) :
    reader.drain state (buffer ++ late) =
      match reader.drain state buffer with
      | .waiting next kept => reader.drain next (kept ++ late)
      | ended => ended := by
  induction length : buffer.length using Nat.strongRecOn generalizing state buffer with
  | _ size ih =>
      cases parsed : reader.parse state buffer with
      | incomplete =>
          have waits : reader.drain state buffer = .waiting state buffer := by
            rw [drain_turn lawful, turn, parsed]
          rw [waits]
      | invalid error =>
          have still := steady state _ .start buffer late error rfl parsed
          rw [drain_turn lawful, drain_turn lawful state buffer, turn, turn, still, parsed]
      | taken value taken =>
          obtain ⟨positive, bounded⟩ := lawful.forward parsed
          have still := lawful.extended late parsed
          rw [drain_turn lawful, drain_turn lawful state buffer, turn, turn, still, parsed]
          simp only
          split
          · rfl
          · rename_i open_
            have first : reader.Reached state (buffer ++ late) (reader.accept state value).1
                ((buffer ++ late).drop taken) :=
              .step .start still (Prod.ext rfl (by simpa using open_))
            rw [List.drop_append_of_le_length bounded] at first ⊢
            exact ih _ (by rw [← length, List.length_drop]; omega) (steady.later first) rfl

theorem serve_eq_drain {state : σ} {pending : List α} {pieces : List (List α)}
    (short : reader.parse state pending = .incomplete)
    (steady : reader.Steady state (pending ++ pieces.flatten))
    (roomy : reader.Roomy state (pending ++ pieces.flatten) pieces) :
    reader.serve state pending pieces = reader.drain state (pending ++ pieces.flatten) := by
  induction pieces generalizing state pending with
  | nil =>
      rw [serve, List.flatten_nil, List.append_nil, drain_turn lawful, turn, short]
  | cons piece rest ih =>
      rw [List.flatten_cons, ← List.append_assoc] at steady roomy ⊢
      have allowed := roomy state pending piece rest.flatten .start short List.mem_cons_self
      rw [serve, allowed, drain_append lawful steady]
      cases drained : reader.drain state (pending ++ piece) with
      | closed next => rfl
      | refused next error => rfl
      | waiting next kept =>
          obtain ⟨shortNext, reached⟩ := drain_waiting lawful drained
          refine ih shortNext (steady.later (reached _)) ?_
          intro before pending' piece' late further stays member
          exact roomy before pending' piece' late ((reached _).trans further) stays
            (List.mem_cons_of_mem _ member)

end Cuts

end FrameReader

end Hashring
