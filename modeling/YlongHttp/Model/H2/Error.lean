import YlongHttp.Model.Basic

/-! # HTTP/2 error codes (`h2/error.rs`) -/

namespace YlongHttp

inductive ErrorCode where
  | noError
  | protocolError
  | intervalError
  | flowControlError
  | settingsTimeout
  | streamClosed
  | frameSizeError
  | refusedStream
  | cancel
  | compressionError
  | connectError
  | enhanceYourCalm
  | inadequateSecurity
  | http11Required
deriving DecidableEq

abbrev StreamId := UInt32

inductive H2Error where
  | streamError (id : StreamId) (code : ErrorCode)
  | connectionError (code : ErrorCode)
deriving DecidableEq

end YlongHttp
