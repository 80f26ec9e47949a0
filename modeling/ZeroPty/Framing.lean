import ZeroPty.Defs
import ZeroPty.Lib.Stream
import ZeroPty.Lib.ByteOrder

/-!
# Framing: the transfers of `protocol.c`

`opty_read_full`, `opty_write_full` and `opty_writev_full` are loops over one system call; `opty_send_frame` and
`opty_recv_frame_limited` are the frame codec on top of them. A frame on the wire is a four-byte big-endian length, which counts
the type byte, the type byte and the payload (`frameBytes`).

An `errno` is a value here: `.error e` is a return of -1 with `errno` set to `e`.
-/

namespace ZeroPty

open Stream

/-! ## Full transfers -/

/-- The loop of `opty_read_full`; `buf` is what was read so far. -/
def optyReadFullLoop (fd : Source Errno) (buf : List UInt8) (len : Nat) : Except Errno (List UInt8) × Source Errno :=
  if h : buf.length < len then
    match hr : fd.read (len - buf.length) with
    | (.got bs, fd') => optyReadFullLoop fd' (buf ++ bs) len
    | (.eof, fd') => if buf.length = 0 then (.ok [], fd') else (.error .econnreset, fd')
    | (.error e, fd') => if e = .eintr then optyReadFullLoop fd' buf len else (.error e, fd')
  else (.ok buf, fd)
termination_by fd.measure
decreasing_by
  · exact Source.read_measure (by omega) hr (by simp)
  · exact Source.read_measure (by omega) hr (by simp)

/-- `opty_read_full`: the bytes read, none of them at the end of the stream (the return of 0). -/
def optyReadFull (fd : Source Errno) (len : Nat) : Except Errno (List UInt8) × Source Errno := optyReadFullLoop fd [] len

/-- The loop of `opty_write_full`; `total` bytes of the data were written so far. -/
def optyWriteFullLoop (fd : Sink Errno) (data : List UInt8) (total : Nat) : Except Errno Nat × Sink Errno :=
  if h : total < data.length then
    match hw : fd.write .epipe (data.drop total) with
    | (.ok n, fd') => if hn : 0 < n then optyWriteFullLoop fd' data (total + n) else (.error .eio, fd')
    | (.error e, fd') => if he : e = .eintr then optyWriteFullLoop fd' data total else (.error e, fd')
  else (.ok total, fd)
termination_by fd.sched.length + (data.length - total)
decreasing_by
  · have hp := (fd.write_progress .epipe _).2 n (by rw [hw]) hn
    rw [hw, List.length_drop] at hp
    simp only at hp
    omega
  · have hp := (fd.write_progress .epipe _).1 e (by rw [hw]) (by rw [he]; decide)
    rw [hw] at hp
    simp only at hp
    omega

/-- `opty_write_full`: the length of the data, once all of it was written. -/
def optyWriteFull (fd : Sink Errno) (data : List UInt8) : Except Errno Nat × Sink Errno := optyWriteFullLoop fd data 0

/-- The inner loop of `opty_writev_full`: the segments left after `written` bytes of them were taken. -/
def iovAdvance : List (List UInt8) → Nat → List (List UInt8)
  | [], _ => []
  | seg :: segs, written =>
    if seg.length ≤ written then iovAdvance segs (written - seg.length)
    else if 0 < written then seg.drop written :: segs
    else seg :: segs

/-- The segments left hold the bytes left. -/
theorem flatten_iovAdvance (segs : List (List UInt8)) (n : Nat) : (iovAdvance segs n).flatten = segs.flatten.drop n := by
  induction segs generalizing n with
  | nil => simp [iovAdvance]
  | cons seg segs ih =>
    rw [iovAdvance, List.flatten_cons, List.drop_append]
    by_cases h : seg.length ≤ n
    · rw [if_pos h, ih, List.drop_of_length_le h, List.nil_append]
    · rw [if_neg h, Nat.sub_eq_zero_of_le (by omega), List.drop_zero]
      by_cases h0 : 0 < n
      · rw [if_pos h0, List.flatten_cons]
      · rw [if_neg h0, List.flatten_cons, show n = 0 by omega, List.drop_zero]

/-- The outer loop of `opty_writev_full`: `cur` are the segments left, `total` the bytes written so far. -/
def optyWritevFullLoop (fd : Sink Errno) (cur : List (List UInt8)) (total : Nat) : Except Errno Nat × Sink Errno :=
  if cur = [] then (.ok total, fd)
  else
    match hw : fd.write .epipe cur.flatten with
    | (.ok n, fd') => if hn : 0 < n then optyWritevFullLoop fd' (iovAdvance cur n) (total + n) else (.error .eio, fd')
    | (.error e, fd') => if he : e = .eintr then optyWritevFullLoop fd' cur total else (.error e, fd')
termination_by fd.sched.length + cur.flatten.length
decreasing_by
  · have hp := (fd.write_progress .epipe _).2 n (by rw [hw]) hn
    rw [hw] at hp
    rw [flatten_iovAdvance, List.length_drop]
    exact hp.2
  · have hp := (fd.write_progress .epipe _).1 e (by rw [hw]) (by rw [he]; decide)
    rw [hw] at hp
    simp only at hp
    omega

/-- `opty_writev_full`: the total length, once all of it was written. -/
def optyWritevFull (fd : Sink Errno) (iov : List (List UInt8)) : Except Errno Nat × Sink Errno :=
  if 3 < iov.length then (.error .einval, fd)
  else if iov.length = 0 then (.ok 0, fd)
  else optyWritevFullLoop fd iov 0

/-! ## Frames -/

/-- The four bytes of a length, as `opty_send_frame` shifts and masks them. -/
def wirePrefix (wireLen : UInt32) : List UInt8 :=
  [((wireLen >>> 24) &&& 0xff).toUInt8, ((wireLen >>> 16) &&& 0xff).toUInt8, ((wireLen >>> 8) &&& 0xff).toUInt8,
    (wireLen &&& 0xff).toUInt8]

/-- The length four bytes stand for, as `opty_recv_frame_limited` puts them together. -/
def wireLenOf (p0 p1 p2 p3 : UInt8) : UInt32 :=
  (p0.toUInt32 <<< 24) ||| (p1.toUInt32 <<< 16) ||| (p2.toUInt32 <<< 8) ||| p3.toUInt32

/-- The bytes of a frame on the wire. -/
def frameBytes (f : Frame) : List UInt8 := wirePrefix (UInt32.ofNat (f.payload.length + 1)) ++ f.type :: f.payload

/-- The bytes of frames sent one after another. -/
def wireBytes (frames : List Frame) : List UInt8 := frames.flatMap frameBytes

/-- `opty_send_frame`. -/
def optySendFrame (fd : Sink Errno) (type : UInt8) (payload : Buf) : Except Errno Unit × Sink Errno :=
  if optyMaxFrame - 1 < payload.len then (.error .emsgsize, fd)
  else
    match payload with
    | .null len =>
      if 0 < len then (.error .einval, fd)
      else
        let r := optyWritevFull fd [wirePrefix (UInt32.ofNat (len + 1)), [type]]
        (r.1.map fun _ => (), r.2)
    | .mem bytes =>
      let head := [wirePrefix (UInt32.ofNat (bytes.length + 1)), [type]]
      let r := optyWritevFull fd (if 0 < bytes.length then head ++ [bytes] else head)
      (r.1.map fun _ => (), r.2)

/-- `opty_recv_frame_limited`: `.ok (some f)` is a return of 0 with the frame, `.ok none` the return of 1 at the end of the stream;
`malloc` says whether the payload could be allocated. -/
def optyRecvFrameLimited (malloc : Bool) (fd : Source Errno) (maxPayloadLen : Nat) :
    Except Errno (Option Frame) × Source Errno :=
  let payloadCap := if optyMaxFrame - 1 < maxPayloadLen then optyMaxFrame - 1 else maxPayloadLen
  match optyReadFull fd 4 with
  | (.error e, fd1) => (.error e, fd1)
  | (.ok [p0, p1, p2, p3], fd1) =>
    let wireLen := (wireLenOf p0 p1 p2 p3).toNat
    if wireLen < 1 ∨ optyMaxFrame < wireLen ∨ payloadCap < wireLen - 1 then (.error .emsgsize, fd1)
    else
      match optyReadFull fd1 1 with
      | (.ok [type], fd2) =>
        let payloadLen := wireLen - 1
        if 0 < payloadLen then
          if malloc then
            match optyReadFull fd2 payloadLen with
            | (.ok payload, fd3) =>
              if payload.length = payloadLen then (.ok (some ⟨type, payload⟩), fd3) else (.error .econnreset, fd3)
            | (.error _, fd3) => (.error .econnreset, fd3)
          else (.error .enomem, fd2)
        else (.ok (some ⟨type, []⟩), fd2)
      | (_, fd2) => (.error .econnreset, fd2)
  | (.ok _, fd1) => (.ok none, fd1)

/-- `opty_recv_frame`. -/
def optyRecvFrame (malloc : Bool) (fd : Source Errno) : Except Errno (Option Frame) × Source Errno :=
  optyRecvFrameLimited malloc fd (optyMaxFrame - 1)

end ZeroPty
