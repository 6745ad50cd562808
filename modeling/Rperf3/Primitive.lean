import Rperf3.Library.BigEndian
import Mathlib.Data.Rat.Defs

/-!
# Primitive types of the program

Byte strings, the network byte order of `u32`, time and floating point, and the
error type of the crate (`error.rs`). Plain `u64` and `usize` values are natural
numbers; `u16` and `u32`, whose wrapping the program relies on, are fixed width.
-/

namespace Rperf3

abbrev Bytes := List UInt8

/-- `f64`, with its arithmetic taken to be exact. -/
abbrev F64 := ℚ

/-- `std::time::Duration` in nanoseconds. -/
abbrev Duration := ℕ

/-- `std::time::Instant`, a reading of the monotonic clock in nanoseconds. -/
abbrev Instant := ℕ

def Duration.fromSecs (s : ℕ) : Duration := s * 1000000000
def Duration.asSecs (d : Duration) : ℕ := d / 1000000000
def Duration.asSecsF64 (d : Duration) : F64 := (d : ℚ) / 1000000000

def toBeBytes (x : UInt32) : Bytes := BigEndian.encode 4 x.toNat

def fromBeBytes (bs : Bytes) : UInt32 := UInt32.ofNat (BigEndian.decode bs)

@[simp] theorem length_toBeBytes (x : UInt32) : (toBeBytes x).length = 4 :=
  BigEndian.length_encode 4 x.toNat

@[simp] theorem fromBeBytes_toBeBytes (x : UInt32) : fromBeBytes (toBeBytes x) = x := by
  have hlt : x.toNat < 256 ^ 4 := x.toNat_lt
  simp only [fromBeBytes, toBeBytes, BigEndian.decode_encode_of_lt hlt, UInt32.ofNat_toNat]

inductive ErrorKind where
  | unexpectedEof
  | wouldBlock
  | other
  deriving DecidableEq, Repr

/-- The crate's error type (`error.rs:19-57`). -/
inductive Error where
  | io (kind : ErrorKind)
  | json (message : String)
  | connection (message : String)
  | protocol (message : String)
  | config (message : String)
  | test (message : String)
  deriving DecidableEq, Repr

end Rperf3
