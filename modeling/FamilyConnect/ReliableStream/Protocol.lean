import FamilyConnect.Lib.BigEndian
import FamilyConnect.Lib.Clock

/-!
# Configuration and frames of the reliable stream

Source: `carrier/reliablestream/protocol.go`. A frame's numeric fields are
natural numbers; `Frame.WellFormed` states the ranges and the cross-field
rules that `decode` enforces, and `decode_wellFormed` that it does.
-/

namespace FamilyConnect.ReliableStream

open Lib

def headerSize : Nat := 64
def maxPayload : Nat := 32768
def maxWindow : Nat := 32

inductive Err where
  | protocol
  | exhausted
  | reset
  | nilDereference
  deriving DecidableEq

structure Config where
  payload : Int
  sendWindow : Int
  receiveWindow : Int
  rto : Duration
  maxRetries : Int
  maxAge : Duration
  deriving DecidableEq

def defaultConfig : Config :=
  { payload := 16384, sendWindow := 8, receiveWindow := 16, rto := Duration.second, maxRetries := 8,
    maxAge := 20 * Duration.second }

def Config.validate (config : Config) : Option Err :=
  if config.payload < 1 ∨ config.payload > maxPayload ∨ config.sendWindow < 1 ∨
      config.sendWindow > maxWindow ∨ config.receiveWindow < 1 ∨ config.receiveWindow > maxWindow ∨
      config.rto < 10 * Duration.millisecond ∨ config.rto > 10 * Duration.second ∨
      config.maxRetries < 1 ∨ config.maxRetries > 32 ∨ config.maxAge < config.rto ∨
      config.maxAge > Duration.minute then
    some .protocol
  else none

structure Config.Valid (config : Config) : Prop where
  payload_pos : 1 ≤ config.payload
  payload_le : config.payload ≤ 32768
  sendWindow_pos : 1 ≤ config.sendWindow
  sendWindow_le : config.sendWindow ≤ 32
  receiveWindow_pos : 1 ≤ config.receiveWindow
  receiveWindow_le : config.receiveWindow ≤ 32
  rto_pos : 10 * Duration.millisecond ≤ config.rto
  rto_le : config.rto ≤ 10 * Duration.second
  maxRetries_pos : 1 ≤ config.maxRetries
  maxRetries_le : config.maxRetries ≤ 32
  rto_le_maxAge : config.rto ≤ config.maxAge
  maxAge_le : config.maxAge ≤ Duration.minute

theorem Config.validate_eq_none_iff (config : Config) : config.validate = none ↔ config.Valid := by
  unfold Config.validate
  simp only [ite_eq_right_iff, reduceCtorEq, imp_false, not_or, not_lt, gt_iff_lt, maxPayload, maxWindow]
  constructor
  · rintro ⟨h1, h2, h3, h4, h5, h6, h7, h8, h9, h10, h11, h12⟩
    exact ⟨h1, h2, h3, h4, h5, h6, h7, h8, h9, h10, h11, h12⟩
  · rintro ⟨h1, h2, h3, h4, h5, h6, h7, h8, h9, h10, h11, h12⟩
    exact ⟨h1, h2, h3, h4, h5, h6, h7, h8, h9, h10, h11, h12⟩

abbrev Epoch := {bytes : List UInt8 // bytes.length = 16}

def Epoch.zero : Epoch := ⟨List.replicate 16 0, rfl⟩

inductive Kind where
  | openFrame
  | dataFrame
  | ackFrame
  | resetFrame
  deriving DecidableEq

def Kind.byte : Kind → UInt8
  | .openFrame => 1
  | .dataFrame => 2
  | .ackFrame => 3
  | .resetFrame => 4

def Kind.ofByte (b : UInt8) : Option Kind :=
  if b = 1 then some .openFrame
  else if b = 2 then some .dataFrame
  else if b = 3 then some .ackFrame
  else if b = 4 then some .resetFrame
  else none

structure Frame where
  kind : Kind
  source : Epoch
  target : Epoch
  seq : Nat := 0
  ack : Nat := 0
  bits : BitVec 32 := 0#32
  window : Int := 0
  payload : Int := 0
  data : List UInt8 := []
  deriving DecidableEq

def magic : List UInt8 := [0x46, 0x52, 0x53, 0x31]

def encode (packet : Frame) : List UInt8 :=
  magic ++ [packet.kind.byte, 0] ++ BigEndian.put 2 packet.data.length ++
    packet.source.val ++ packet.target.val ++ BigEndian.put 8 packet.seq ++ BigEndian.put 8 packet.ack ++
    BigEndian.put 4 packet.bits.toNat ++ BigEndian.put 2 (packet.window % 2 ^ 16).toNat ++
    BigEndian.put 2 (packet.payload % 2 ^ 16).toNat ++ packet.data

def slice (raw : List UInt8) (lo hi : Nat) : List UInt8 := (raw.drop lo).take (hi - lo)

variable {raw : List UInt8}

theorem length_slice {lo hi : Nat} (h : hi ≤ raw.length) : (slice raw lo hi).length = hi - lo := by
  rw [slice, List.length_take, List.length_drop]
  omega

def accepts (packet : Frame) : Bool :=
  packet.source ≠ Epoch.zero &&
  (if packet.kind = .dataFrame then
    packet.data.length ≠ 0 && packet.ack = 0 && packet.bits = 0#32
  else
    packet.data.length = 0 && packet.seq = 0 &&
      (packet.kind = .ackFrame || packet.ack = 0 && packet.bits = 0#32)) &&
  (if packet.kind = .openFrame then
    1 ≤ packet.window && packet.window ≤ maxWindow && 1 ≤ packet.payload && packet.payload ≤ maxPayload
  else
    packet.target ≠ Epoch.zero && packet.window = 0 && packet.payload = 0)

def decode (raw : List UInt8) : Except Err Frame :=
  if h : raw.length < headerSize ∨ raw.length > headerSize + maxPayload then .error .protocol
  else if raw.take 4 ≠ magic ∨ slice raw 5 6 ≠ [0] ∨
      BigEndian.get (slice raw 6 8) ≠ raw.length - headerSize then .error .protocol
  else
    match (slice raw 4 5).head?.bind Kind.ofByte with
    | none => .error .protocol
    | some kind =>
      have hLength : 64 ≤ raw.length := by simp only [headerSize] at h; omega
      let packet : Frame :=
        { kind := kind
          source := ⟨slice raw 8 24, length_slice (by omega)⟩
          target := ⟨slice raw 24 40, length_slice (by omega)⟩
          seq := BigEndian.get (slice raw 40 48)
          ack := BigEndian.get (slice raw 48 56)
          bits := BitVec.ofNat 32 (BigEndian.get (slice raw 56 60))
          window := BigEndian.get (slice raw 60 62)
          payload := BigEndian.get (slice raw 62 64)
          data := raw.drop headerSize }
      if accepts packet then .ok packet else .error .protocol

structure Frame.WellFormed (packet : Frame) : Prop where
  source_ne : packet.source ≠ Epoch.zero
  seq_lt : packet.seq < 2 ^ 64
  ack_lt : packet.ack < 2 ^ 64
  data_ne : packet.kind = .dataFrame → packet.data ≠ []
  data_le : packet.data.length ≤ maxPayload
  open_window : packet.kind = .openFrame →
    1 ≤ packet.window ∧ packet.window ≤ maxWindow ∧ 1 ≤ packet.payload ∧ packet.payload ≤ maxPayload
  target_ne : packet.kind ≠ .openFrame → packet.target ≠ Epoch.zero

theorem get_slice_lt (raw : List UInt8) (lo hi : Nat) (h : hi ≤ raw.length) :
    BigEndian.get (slice raw lo hi) < 256 ^ (hi - lo) :=
  length_slice h ▸ BigEndian.get_lt (slice raw lo hi)

variable {packet : Frame}

theorem accepts_wellFormed (h : accepts packet = true) (hSeq : packet.seq < 2 ^ 64)
    (hAck : packet.ack < 2 ^ 64) (hData : packet.data.length ≤ maxPayload) : packet.WellFormed := by
  simp only [accepts, Bool.and_eq_true, decide_eq_true_eq] at h
  obtain ⟨⟨hSource, hBody⟩, hOpen⟩ := h
  refine ⟨hSource, hSeq, hAck, ?_, hData, ?_, ?_⟩
  · intro hKind hEmpty
    rw [if_pos hKind] at hBody
    simp [hEmpty] at hBody
  · intro hKind
    rw [if_pos hKind] at hOpen
    simpa [and_assoc] using hOpen
  · intro hKind
    rw [if_neg hKind] at hOpen
    simp only [Bool.and_eq_true, decide_eq_true_eq] at hOpen
    exact hOpen.1.1

theorem decode_wellFormed (h : decode raw = .ok packet) : packet.WellFormed := by
  unfold decode at h
  split at h
  · cases h
  rename_i hBounds
  simp only [headerSize, maxPayload, not_or, not_lt, gt_iff_lt] at hBounds
  split at h
  · cases h
  split at h
  · cases h
  dsimp only at h
  split at h
  · rename_i hAccepts
    cases h
    apply accepts_wellFormed hAccepts
    · exact get_slice_lt raw 40 48 (by omega)
    · exact get_slice_lt raw 48 56 (by omega)
    · simp only [List.length_drop, headerSize, maxPayload]
      omega
  · cases h

end FamilyConnect.ReliableStream
