import Mathlib.Tactic

/-! # Common vocabulary of the models

A Rust byte slice, `Vec<u8>` or `String` is a list of octets: the repository builds
strings with `from_utf8_unchecked`, so nothing more than octets may be assumed of
them. -/

namespace YlongHttp

abbrev Bytes := List UInt8

/-- The octets of a string literal of the source. -/
def str (s : String) : Bytes := s.toByteArray.data.toList

/-- How a call can fail: with the error value it returns, or by a panic (an index out
of range, a subtraction below zero, an `unwrap` of an error). -/
inductive Fault (ε : Type) where
  | error (e : ε)
  | panic
deriving DecidableEq

/-- The number of values of the source's `usize`, on a 64-bit target. -/
def usizeBound : ℕ := 2 ^ 64

end YlongHttp
