import YlongHttp.Model.H2.Error
import YlongHttp.Model.Headers

/-! # HTTP/2 frames (`h2/frame.rs`) -/

namespace YlongHttp

def endStreamMask : UInt8 := 0x01

def endHeadersMask : UInt8 := 0x04

def paddedMask : UInt8 := 0x08

def headersPriorityMask : UInt8 := 0x20

def ackMask : UInt8 := 0x1

structure FrameFlags where
  bits : UInt8
deriving DecidableEq

namespace FrameFlags

variable (self : FrameFlags)

def isEndStream : Bool := self.bits &&& endStreamMask = endStreamMask

def isEndHeaders : Bool := self.bits &&& endHeadersMask = endHeadersMask

def isPadded : Bool := self.bits &&& paddedMask = paddedMask

def isAck : Bool := self.bits &&& ackMask = ackMask

end FrameFlags

inductive Setting where
  | headerTableSize (size : UInt32)
  | enablePush (isEnable : Bool)
  | maxConcurrentStreams (num : UInt32)
  | initialWindowSize (size : UInt32)
  | maxFrameSize (size : UInt32)
  | maxHeaderListSize (size : UInt32)
deriving DecidableEq

def Setting.settingIdentifier : Setting → UInt16
  | .headerTableSize _ => 0x01
  | .enablePush _ => 0x02
  | .maxConcurrentStreams _ => 0x03
  | .initialWindowSize _ => 0x04
  | .maxFrameSize _ => 0x05
  | .maxHeaderListSize _ => 0x06

structure Priority where
  exclusive : Bool
  streamDependency : UInt32
  weight : UInt8
deriving DecidableEq

/-- The payload of a PING frame, an array of eight octets. -/
structure Ping where
  data : Bytes
  length_eq : data.length = 8
deriving DecidableEq

structure Goaway where
  errorCode : UInt32
  lastStreamId : StreamId
  debugData : Bytes
deriving DecidableEq

structure PushPromise where
  promisedStreamId : StreamId
  parts : Parts
deriving DecidableEq

/-- The payload of a frame. The structures of the source with a single field are that
field. -/
inductive Payload where
  | headers (parts : Parts)
  | data (data : Bytes)
  | priority (priority : Priority)
  | rstStream (errorCode : UInt32)
  | ping (ping : Ping)
  | settings (settings : List Setting)
  | goaway (goaway : Goaway)
  | windowUpdate (windowSizeIncrement : UInt32)
  | pushPromise (pushPromise : PushPromise)
deriving DecidableEq

structure Frame where
  id : StreamId
  flags : FrameFlags
  payload : Payload
deriving DecidableEq

end YlongHttp
