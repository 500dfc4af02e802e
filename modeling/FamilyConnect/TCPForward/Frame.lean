import FamilyConnect.Lib.BigEndian

/-!
# Frames of the mux

Source: `carrier/tcpforward/mux_protocol.go` with the frame kinds of
`protocol.go`. `Frame.Valid` says what `decodeMuxWindow` accepts, and
`decode_encode` that it reads back every valid frame that was encoded.
-/

namespace FamilyConnect.TCPForward

open Lib

abbrev Bytes := List UInt8

def maxData : Nat := 16 * 1024
def headerSize : Nat := 10
def muxWindow : Nat := 64 * 1024
def muxMaxStreams : Nat := 64
def muxMaxPendingOpens : Nat := 32
def muxMaxID : Nat := 2 ^ 31 - 1
def muxMaxDNS : Nat := 16
def muxMaxDNSMessage : Nat := 4096

inductive Kind where
  | openFrame
  | openOK
  | openError
  | dataFrame
  | finFrame
  | resetFrame
  | closeFrame
  | windowUpdate
  | dnsQuery
  | dnsResponse
  | dnsError
  | dnsCancel
  deriving DecidableEq

namespace Kind

def code : Kind → UInt8
  | .openFrame => 1
  | .openOK => 2
  | .openError => 3
  | .dataFrame => 4
  | .finFrame => 5
  | .resetFrame => 6
  | .closeFrame => 7
  | .windowUpdate => 8
  | .dnsQuery => 9
  | .dnsResponse => 10
  | .dnsError => 11
  | .dnsCancel => 12

def ofCode (code : UInt8) : Option Kind :=
  [openFrame, openOK, openError, dataFrame, finFrame, resetFrame, closeFrame, windowUpdate, dnsQuery, dnsResponse,
    dnsError, dnsCancel].find? fun kind => kind.code = code

theorem ofCode_code (kind : Kind) : ofCode kind.code = some kind := by cases kind <;> decide

def dns : Kind → Bool
  | .dnsQuery | .dnsResponse | .dnsError | .dnsCancel => true
  | _ => false

end Kind

structure Frame where
  kind : Kind
  id : Nat
  payload : Bytes := []
  deriving DecidableEq

namespace Frame

def encode (frame : Frame) : Bytes :=
  [2, frame.kind.code] ++ BigEndian.put 4 frame.id ++ BigEndian.put 4 frame.payload.length ++ frame.payload

def number (frame : Frame) : Nat := BigEndian.get (frame.payload.take 4)

/-- The rules of `decodeMuxWindow` for the contents of a frame. -/
def wellFormed (window : Nat) (frame : Frame) : Bool :=
  if frame.kind.dns then
    frame.id = 0 && 4 ≤ frame.payload.length && frame.number ≠ 0 && frame.number ≤ muxMaxID &&
      (if frame.kind = .dnsQuery ∨ frame.kind = .dnsResponse then
        decide (12 ≤ frame.payload.length - 4 ∧ frame.payload.length - 4 ≤ muxMaxDNSMessage)
      else frame.payload.length = 4)
  else
    frame.id ≠ 0 && frame.id ≤ muxMaxID && frame.id % 2 ≠ 0 &&
      (match frame.kind with
      | .openFrame | .openError => frame.payload ≠ [] && frame.payload.length ≤ 512
      | .dataFrame => frame.payload ≠ []
      | .windowUpdate => frame.payload.length = 4 && frame.number ≠ 0 && frame.number ≤ window
      | _ => frame.payload = [])

def Valid (window : Nat) (frame : Frame) : Prop := frame.payload.length ≤ maxData ∧ frame.wellFormed window = true

end Frame

def decodeMuxWindow (encoded : Bytes) (window : Nat) : Option Frame :=
  if window ≠ muxWindow ∧ window ≠ 131072 then none
  else if encoded.length < headerSize ∨ encoded.length > headerSize + maxData ∨ encoded[0]? ≠ some 2 ∨
      BigEndian.get ((encoded.drop 6).take 4) ≠ encoded.length - headerSize then none
  else
    match encoded[1]?.bind Kind.ofCode with
    | none => none
    | some kind =>
      let frame : Frame := ⟨kind, BigEndian.get ((encoded.drop 2).take 4), encoded.drop headerSize⟩
      if frame.wellFormed window then some frame else none

def MuxWindow (window : Nat) : Prop := window = muxWindow ∨ window = 131072

variable {frame : Frame} {window : Nat}

theorem id_lt_of_wellFormed (h : frame.wellFormed window = true) : frame.id ≤ muxMaxID := by
  unfold Frame.wellFormed at h
  split at h
  · simp only [Bool.and_eq_true, decide_eq_true_eq] at h
    rw [h.1.1.1.1]
    exact Nat.zero_le _
  · simp only [Bool.and_eq_true, decide_eq_true_eq] at h
    exact h.1.1.2

theorem decode_encode (hWindow : MuxWindow window) (h : frame.Valid window) :
    decodeMuxWindow frame.encode window = some frame := by
  have hId : frame.id % 256 ^ 4 = frame.id := by
    have hLe := id_lt_of_wellFormed h.2
    unfold muxMaxID at hLe
    exact Nat.mod_eq_of_lt (by omega)
  have hLength : frame.payload.length % 256 ^ 4 = frame.payload.length := by
    have hLe := h.1
    unfold maxData at hLe
    exact Nat.mod_eq_of_lt (by omega)
  have hEncoded : frame.encode.length = headerSize + frame.payload.length := by
    simp [Frame.encode, headerSize]
    omega
  have hIdBytes : (frame.encode.drop 2).take 4 = BigEndian.put 4 frame.id := by
    have hDrop : frame.encode.drop 2 =
        BigEndian.put 4 frame.id ++ (BigEndian.put 4 frame.payload.length ++ frame.payload) := by
      simp [Frame.encode]
    rw [hDrop, List.take_left' (BigEndian.length_put 4 _)]
  have hSizeBytes : (frame.encode.drop 6).take 4 = BigEndian.put 4 frame.payload.length := by
    have hSplit : frame.encode =
        ([2, frame.kind.code] ++ BigEndian.put 4 frame.id) ++
          (BigEndian.put 4 frame.payload.length ++ frame.payload) := by
      simp [Frame.encode]
    rw [hSplit, List.drop_left' (by simp), List.take_left' (BigEndian.length_put 4 _)]
  have hPayload : frame.encode.drop headerSize = frame.payload := by
    unfold Frame.encode
    exact List.drop_left' (by simp [headerSize])
  unfold decodeMuxWindow
  rw [if_neg (by unfold MuxWindow at hWindow; omega), if_neg]
  · have hKind : frame.encode[1]?.bind Kind.ofCode = some frame.kind := Kind.ofCode_code frame.kind
    rw [hKind]
    dsimp only
    rw [hIdBytes, BigEndian.get_put, hId, hPayload, if_pos h.2]
  · rw [hEncoded, hSizeBytes, BigEndian.get_put, hLength]
    have hLe := h.1
    simp only [not_or, not_lt, not_not]
    refine ⟨by omega, by omega, rfl, by omega⟩

end FamilyConnect.TCPForward
