import ZeroPty.Defs
import ZeroPty.Lib.Circular

/-!
# The ring buffer of `ring.c`

The functions as the source computes them: 64-bit words that wrap, two-part copies through `memcpy`. A result `none` is a copy
outside a block, which C leaves undefined. The mutex is not part of the value: each function is one critical section of
`ring->mu`, taken whole, and its lock is assumed to succeed.

`Represents` says what a ring is for: it is the end of an append-only log of everything that was ever appended.
-/

namespace ZeroPty

open Memory

/-- `struct opty_ring` between `opty_ring_init` and `opty_ring_destroy`: a buffer of `cap` bytes, `cap` not zero. -/
structure Ring where
  cap : UInt64
  cap_pos : 0 < cap.toNat
  buf : Block UInt8 cap.toNat
  baseSeq : UInt64
  nextSeq : UInt64

/-- `opty_min_size`. -/
def optyMinSize (a b : UInt64) : UInt64 := if a < b then a else b

/-- `opty_ring_init`: the buffer is what `malloc` returned, its contents are not set. -/
def optyRingInit (malloc : Alloc UInt8) (mutexInit : Except Errno Unit) (capacity : UInt64) : Except Errno Ring :=
  if h : capacity.toNat = 0 then .error .einval
  else
    match malloc capacity.toNat with
    | none => .error .enomem
    | some buf =>
      match mutexInit with
      | .error rc => .error rc
      | .ok () => .ok { cap := capacity, cap_pos := Nat.pos_of_ne_zero h, buf := buf, baseSeq := 0, nextSeq := 0 }

/-- `opty_ring_append`: the ring afterwards and `*start_seq`. -/
def optyRingAppend (ring : Ring) (data : Buf) : Option (Ring × UInt64) :=
  let oldNext := ring.nextSeq
  let oldBase := ring.baseSeq
  match data with
  | .null _ => some (ring, oldNext)
  | .mem bytes =>
    let len := UInt64.ofNat bytes.length
    if len = 0 then some (ring, oldNext)
    else
      let newNext := oldNext + len
      let window := oldNext - oldBase
      let keep := optyMinSize len ring.cap
      let srcOff := len - keep
      let dest := (oldNext + srcOff) % ring.cap
      let first := optyMinSize (ring.cap - dest) keep
      (memcpy ring.buf dest.toNat bytes srcOff.toNat first.toNat).bind fun buf1 =>
        (if first < keep then memcpy buf1 0 bytes (srcOff + first).toNat (keep - first).toNat else some buf1).bind fun buf2 =>
          let base := if ring.cap < window + len then newNext - ring.cap else ring.baseSeq
          some ({ ring with buf := buf2, nextSeq := newNext, baseSeq := base }, oldNext)

/-- What `opty_ring_snapshot_window` leaves in its output arguments, and the block it returns (`none` for NULL). -/
structure Snapshot where
  baseSeq : UInt64
  fromSeq : UInt64
  nextSeq : UInt64
  len : UInt64
  out : Option (List UInt8)
  deriving DecidableEq, Repr

/-- The replayed bytes: none through NULL. -/
def Snapshot.bytes (s : Snapshot) : List UInt8 := s.out.getD []

/-- The requested position moved into the bounds of the ring, as `opty_ring_snapshot_window` does first. -/
def Ring.clampSeq (ring : Ring) (requestedSeq : UInt64) : UInt64 :=
  if requestedSeq < ring.baseSeq then ring.baseSeq
  else if ring.nextSeq < requestedSeq then ring.nextSeq
  else requestedSeq

/-- `opty_ring_snapshot_window`. -/
def optyRingSnapshotWindow (malloc : Alloc UInt8) (ring : Ring) (requestedSeq : UInt64) : Option Snapshot :=
  let fromSeq := ring.clampSeq requestedSeq
  let outLen := ring.nextSeq - fromSeq
  let bounds : Snapshot :=
    { baseSeq := ring.baseSeq, fromSeq := fromSeq, nextSeq := ring.nextSeq, len := outLen, out := none }
  if outLen = 0 then some bounds
  else
    match malloc outLen.toNat with
    | none => some bounds
    | some out =>
      let startIdx := fromSeq % ring.cap
      let first := optyMinSize (ring.cap - startIdx) outLen
      (memcpy out 0 ring.buf.cells startIdx.toNat first.toNat).bind fun out1 =>
        (if first < outLen then memcpy out1 first.toNat ring.buf.cells 0 (outLen - first).toNat else some out1).bind fun out2 =>
          some { bounds with out := some out2.cells }

/-- `opty_ring_append` called once for each chunk, in order; the reported start sequences. -/
def optyRingAppendAll : Ring → List Buf → Option (Ring × List UInt64)
  | ring, [] => some (ring, [])
  | ring, chunk :: chunks =>
    (optyRingAppend ring chunk).bind fun r =>
      (optyRingAppendAll r.1 chunks).bind fun rs => some (rs.1, r.2 :: rs.2)

/-! ## The log a ring is the end of -/

/-- The ring holds the end of the log: everything from `|log| - cap` on, and its bounds are those of that part. -/
structure Ring.Represents (ring : Ring) (log : List UInt8) : Prop where
  short : log.length < 2 ^ 64
  next : ring.nextSeq.toNat = log.length
  base : ring.baseSeq.toNat = log.length - ring.cap.toNat
  holds : Circular.Holds ring.buf.cells log (log.length - ring.cap.toNat)

end ZeroPty
