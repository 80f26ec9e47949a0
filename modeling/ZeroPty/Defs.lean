import ZeroPty.Lib.Memory

/-!
# What the modules share: errors, buffers, constants and frames

The constants and message types of `protocol.h`, and the two kinds of argument the functions of `protocol.c` and `ring.c` take
besides numbers: a pointer with a length, and a C string. Sizes and sequence numbers are 64-bit words (`size_t` and `uint64_t` of
the supported target); a length that is never stored in a word is a natural number.
-/

namespace ZeroPty

/-- The values of `errno` the modelled functions set or compare with; `other` is any other error a system call reports. -/
inductive Errno where
  | eintr | einval | emsgsize | econnreset | eproto | enospc | enomem | eio | epipe
  | other (n : Nat)
  deriving DecidableEq, Repr

/-- A `(pointer, length)` argument: NULL with a length, or the bytes pointed to. -/
inductive Buf where
  | null (len : Nat)
  | mem (bytes : List UInt8)
  deriving DecidableEq, Repr

/-- The length that goes with the pointer. -/
def Buf.len : Buf → Nat
  | .null n => n
  | .mem bytes => bytes.length

/-- The bytes pointed to; none through NULL. -/
def Buf.bytes : Buf → List UInt8
  | .null _ => []
  | .mem bytes => bytes

/-- The pointer is NULL. -/
def Buf.isNull : Buf → Bool
  | .null _ => true
  | .mem _ => false

/-- A C string, by its bytes before the terminator: none of them is NUL. -/
structure CString where
  bytes : List UInt8
  noNul : (0 : UInt8) ∉ bytes

/-- `SIZE_MAX`. -/
def sizeMax : Nat := 2 ^ 64 - 1

def optyVersion : UInt8 := 1
def optyDefaultRingSize : Nat := 1024 * 1024
def optyMaxFrame : Nat := 16 * 1024 * 1024
def optyMaxToken : Nat := 255
def optyMaxGracefulInput : Nat := 4096
def optyMaxUnauthPayload : Nat := 1 + 1 + optyMaxToken + 2 + optyMaxGracefulInput

/-! The message types of `enum opty_msg_type`: a frame carries a byte, which need not be one of them. -/

def msgHello : UInt8 := 1
def msgReconnect : UInt8 := 2
def msgWelcome : UInt8 := 3
def msgStdin : UInt8 := 4
def msgStdout : UInt8 := 5
def msgResize : UInt8 := 6
def msgAck : UInt8 := 7
def msgReplay : UInt8 := 8
def msgError : UInt8 := 9
def msgControlShutdown : UInt8 := 10

/-- `struct opty_frame`: its `len` is the length of the payload. -/
@[ext] structure Frame where
  type : UInt8
  payload : List UInt8
  deriving DecidableEq, Repr

end ZeroPty
