import YlongHttp.Model.H3.Octets

/-! # HTTP/3 frames (`h3/frame.rs`, `h3/stream.rs`, `h3/parts.rs`) -/

namespace YlongHttp.H3

def dataFrameType : ℕ := 0x0
def headersFrameType : ℕ := 0x1
def cancelPushFrameType : ℕ := 0x3
def settingsFrameType : ℕ := 0x4
def pushPromiseFrameType : ℕ := 0x5
def goawayFrameType : ℕ := 0x7
def maxPushIdFrameType : ℕ := 0xD

def settingQpackMaxTableCapacity : ℕ := 0x1
def settingMaxFieldSectionSize : ℕ := 0x6
def settingQpackBlockedStreams : ℕ := 0x7
def settingEnableConnectProtocol : ℕ := 0x8
def settingH3Datagram : ℕ := 0x33

structure Settings where
  maxFieldSectionSize : Option ℕ
  qpackMaxTableCapacity : Option ℕ
  qpackBlockedStreams : Option ℕ
  connectProtocolEnabled : Option ℕ
  h3Datagram : Option ℕ
  additional : Option (List (ℕ × ℕ))
deriving DecidableEq

def Settings.default : Settings where
  maxFieldSectionSize := none
  qpackMaxTableCapacity := none
  qpackBlockedStreams := none
  connectProtocolEnabled := none
  h3Datagram := none
  additional := none

/-- The payload of a frame, with the instructions that the decoding of its header block has
led to. -/
inductive Payload where
  | headers (parts : Parts) (ins : Option Bytes)
  | data (data : Bytes)
  | settings (settings : Settings)
  | cancelPush (pushId : ℕ)
  | pushPromise (pushId : ℕ) (parts : Parts) (ins : Option Bytes)
  | goaway (id : ℕ)
  | maxPushId (pushId : ℕ)
  | unknown (rawType len : ℕ)
deriving DecidableEq

structure Frame where
  ty : ℕ
  payload : Payload
deriving DecidableEq

inductive FrameKind where
  | complete (frame : Frame)
  | incomplete
  | blocked

inductive StreamMessage where
  | request (frames : List FrameKind)
  | control (frames : List FrameKind)
  | push (id : ℕ) (frames : List FrameKind)
  | qpackEncoder (unblocked : List ℕ)
  | qpackDecoder (inst : Bytes)
  | unknown
  | waitingMore

def isBidirectional (id : ℕ) : Bool := id &&& 0x02 = 0

end YlongHttp.H3
