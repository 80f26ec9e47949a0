import ZeroPty.Lemmas.Server
import ZeroPty.Pipe
import ZeroPty.Theorems.Framing

/-!
# When the byte pipe cannot deadlock
-/

namespace ZeroPty

open Transition Stream

/-- The socket to the server has room for the whole frame that the client is about to send: an ACK of 13 bytes for the frame that is
complete with the next byte, or a STDIN frame with the bytes that are read. -/
def roomForFrame (caps : PipeCaps) (s : Pipe) : PipeAct → Bool
  | .client _ n =>
    match s.client, s.toClient with
    | .readStdin, _ => s.toServer.length + (5 + n) ≤ caps.toServer
    | .recv got _, b :: _ =>
      match receipt (got ++ [b]) with
      | .frame _ => s.toServer.length + 13 ≤ caps.toServer
      | _ => true
    | _, _ => true
  | _ => true

namespace PipeAux

/-! ## Receiving byte by byte -/

/-- Nothing goes wrong on what has come in. -/
theorem benign_got (got : List UInt8) : (Source.mk got [] : Source Errno).Benign .eintr := by rintro _ ⟨⟩

theorem receipt_nil : receipt [] = .more := by
  obtain ⟨fd, hfd⟩ := FramingAux.recv_empty (optyMaxFrame - 1) (benign_got []) rfl
  unfold receipt optyRecvFrame
  rw [hfd]

/-- A whole frame has come in. -/
theorem receipt_frame {f : Frame} (hf : f.payload.length ≤ optyMaxFrame - 1) (rest : List UInt8) :
    receipt (frameBytes f ++ rest) = .frame f := by
  have hcap : f.payload.length ≤ payloadCap (optyMaxFrame - 1) := by
    rw [payloadCap, Nat.min_self]
    exact hf
  obtain ⟨fd, hfd, -⟩ := FramingAux.recv_whole (benign_got (frameBytes f ++ rest)) rfl hcap
  unfold receipt optyRecvFrame
  rw [hfd]

/-- A part of a frame has come in. -/
theorem receipt_cut {f : Frame} (hf : f.payload.length ≤ optyMaxFrame - 1) {c : Nat} (h0 : 0 < c) (hc : c < (frameBytes f).length) :
    receipt ((frameBytes f).take c) = .more := by
  have hbig : payloadCap (optyMaxFrame - 1) < f.payload.length → c < 4 := by
    rw [payloadCap, Nat.min_self]
    omega
  have hsmall : f.payload.length < 2 ^ 24 := by
    unfold optyMaxFrame at hf
    omega
  have hbytes : (frameBytes f).take c = (frameBytes f ++ []).take c := by rw [List.append_nil]
  obtain ⟨fd, hfd⟩ := FramingAux.recv_cut (optyMaxFrame - 1) (benign_got ((frameBytes f).take c)) hbytes h0 hc hsmall hbig
  unfold receipt optyRecvFrame
  rw [hfd]

/-- With the next byte of a stream of frames, the first of them is complete or not yet. -/
theorem receipt_next {frames : List Frame} (hfit : ∀ f ∈ frames, f.payload.length ≤ optyMaxFrame - 1) {got rest : List UInt8}
    {b : UInt8} (hgot : receipt got = .more) (h : got ++ b :: rest = wireBytes frames) :
    receipt (got ++ [b]) = .more ∨ ∃ f fs, frames = f :: fs ∧ receipt (got ++ [b]) = .frame f ∧ rest = wireBytes fs := by
  cases frames with
  | nil =>
    rw [wireBytes_nil] at h
    exact absurd (congrArg List.length h) (by simp)
  | cons f fs =>
    have hf := hfit f List.mem_cons_self
    rw [wireBytes_cons] at h
    have h' : (got ++ [b]) ++ rest = frameBytes f ++ wireBytes fs := by simpa using h
    rcases List.append_eq_append_iff.1 h' with ⟨x, hx, hrest⟩ | ⟨x, hx, hrest⟩
    · cases x with
      | nil =>
        rw [List.append_nil] at hx
        refine .inr ⟨f, fs, rfl, ?_, by simpa using hrest⟩
        rw [← hx]
        simpa using receipt_frame hf []
      | cons y x =>
        refine .inl ?_
        have htake : got ++ [b] = (frameBytes f).take (got ++ [b]).length := by rw [hx, List.take_left]
        rw [htake]
        refine receipt_cut hf (by simp) ?_
        rw [hx, List.length_append, List.length_append]
        simp
    · -- Otherwise the frame was complete before this byte.
      rcases List.eq_nil_or_concat x with rfl | ⟨y, c, rfl⟩
      · refine .inr ⟨f, fs, rfl, ?_, by simpa using hrest.symm⟩
        rw [hx]
        exact receipt_frame hf []
      · rw [List.concat_eq_append, ← List.append_assoc] at hx
        have hgot' := (List.append_inj' hx rfl).1
        rw [hgot', receipt_frame hf y] at hgot
        cases hgot

/-- With nothing to come, no frame is under way. -/
theorem receipt_end {frames : List Frame} (hfit : ∀ f ∈ frames, f.payload.length ≤ optyMaxFrame - 1) {got : List UInt8}
    (hgot : receipt got = .more) (h : got = wireBytes frames) : frames = [] := by
  cases frames with
  | nil => rfl
  | cons f fs =>
    rw [h, wireBytes_cons, receipt_frame (hfit f List.mem_cons_self)] at hgot
    cases hgot

/-! ## What is under way -/

/-- What the client sends: a chunk of its standard input, or an ACK. -/
inductive Request where
  | stdin (data : List UInt8)
  | ack (seq : UInt64)

def Request.frame : Request → Frame
  | .stdin data => ⟨msgStdin, data⟩
  | .ack seq => (Msg.ack seq).frame

def Request.data : Request → List UInt8
  | .stdin data => data
  | .ack _ => []

/-- What the server sends: a chunk of output at its sequence number. -/
def responseFrame (r : UInt64 × List UInt8) : Frame := (Msg.stdout r.1 r.2).frame

theorem request_fits {q : Request} (h : q.data.length ≤ chunkSize) : q.frame.payload.length ≤ optyMaxFrame - 1 := by
  have hmax : chunkSize ≤ optyMaxFrame - 1 := by decide
  cases q with
  | stdin data => exact Nat.le_trans h hmax
  | ack seq =>
    simp [Request.frame, Msg.frame]
    decide

theorem response_fits {r : UInt64 × List UInt8} (h : r.2.length ≤ chunkSize) :
    (responseFrame r).payload.length ≤ optyMaxFrame - 1 := by
  have hmax : chunkSize + 8 ≤ optyMaxFrame - 1 := by decide
  simp only [responseFrame, Msg.frame, List.length_append, length_optyPutU64]
  omega

end PipeAux

/-- What the client has of the frame it receives, and what it has left to send. -/
def PipeClient.got : PipeClient → List UInt8
  | .recv got _ => got
  | _ => []

def PipeClient.sending : PipeClient → List UInt8
  | .send left _ => left
  | _ => []

/-- What the client thread has of the frame it receives, and what it has left to write. -/
def PipeThread.got : PipeThread → List UInt8
  | .recv got => got
  | _ => []

def PipeThread.writing : PipeThread → List UInt8
  | .write left => left
  | _ => []

def PipePty.sending : PipePty → List UInt8
  | .send left => left
  | .read => []

def PipeChild.held : PipeChild → List UInt8
  | .echo b => [b]
  | .read => []

namespace PipeAux

/-- The client counts on its standard input only when there is some, has never a whole frame in hand, begins a receive only when
something has come in, and does not leave its loop. -/
def ClientOk (s : Pipe) : Prop :=
  match s.client with
  | .poll => True
  | .recv got stdinReady => receipt got = .more ∧ (got = [] → s.toClient ≠ []) ∧ (stdinReady = true → s.stdin ≠ [])
  | .send _ (.ack stdinReady) => stdinReady = true → s.stdin ≠ []
  | .send _ .stdin => True
  | .readStdin => s.stdin ≠ []
  | .exited => False

/-- The client thread has never a whole frame in hand, and does not leave its loop. -/
def ThreadOk (s : Pipe) : Prop :=
  match s.thread with
  | .recv got => receipt got = .more
  | .write _ => True
  | .exited => False

/-- All that was typed is printed, or under way in its order: in the responses, in the terminal and the child, in the requests, or
still to be read. -/
structure PipeInv (input : List UInt8) (responses : List (UInt64 × List UInt8)) (requests : List Request) (s : Pipe) : Prop where
  responseSizes : ∀ r ∈ responses, r.2.length ≤ chunkSize
  requestSizes : ∀ q ∈ requests, q.data.length ≤ chunkSize
  toClient : s.client.got ++ s.toClient ++ s.pty.sending = wireBytes (responses.map responseFrame)
  toServer : s.thread.got ++ s.toServer ++ s.client.sending = wireBytes (requests.map Request.frame)
  flow : input = s.printed ++ responses.flatMap Prod.snd ++ s.ptyOut ++ s.child.held ++ s.ptyIn ++ s.thread.writing ++
    requests.flatMap Request.data ++ s.stdin
  client : ClientOk s
  thread : ThreadOk s

theorem pipeInv_init (input : List UInt8) (seq : UInt64) : PipeInv input [] [] (Pipe.init input seq) where
  responseSizes := by rintro _ ⟨⟩
  requestSizes := by rintro _ ⟨⟩
  toClient := rfl
  toServer := rfl
  flow := by simp [Pipe.init, PipeChild.held, PipeThread.writing]
  client := trivial
  thread := receipt_nil

/-- A write that goes on only moves bytes to the end of the queue. -/
theorem offer_moves {cap : Nat} {queue left queue' left' : List UInt8} (h : offer cap queue left = some (queue', left')) :
    ∃ moved, queue' = queue ++ moved ∧ left = moved ++ left' := by
  cases left with
  | nil =>
    cases h
    exact ⟨[], (List.append_nil _).symm, rfl⟩
  | cons b left =>
    simp only [offer] at h
    split at h
    · cases h
      exact ⟨[b], rfl, rfl⟩
    · cases h

theorem offer_append {cap : Nat} {queue left queue' left' : List UInt8} (h : offer cap queue left = some (queue', left')) :
    queue' ++ left' = queue ++ left := by
  obtain ⟨moved, rfl, rfl⟩ := offer_moves h
  exact List.append_assoc _ _ _

/-- A write never empties its queue. -/
theorem offer_ne_nil {cap : Nat} {queue left queue' left' : List UInt8} (h : offer cap queue left = some (queue', left'))
    (hne : queue ≠ []) : queue' ≠ [] := by
  obtain ⟨moved, rfl, -⟩ := offer_moves h
  exact List.append_ne_nil_of_left_ne_nil hne moved

/-- After a send the client neither receives nor sends. -/
theorem next_idle (k : ClientSend) : k.next.got = [] ∧ k.next.sending = [] := by
  cases k with
  | ack stdinReady => cases stdinReady <;> exact ⟨rfl, rfl⟩
  | stdin => exact ⟨rfl, rfl⟩

/-- A frame that is begun comes after all that is under way. -/
theorem wireBytes_push {α : Type} (frame : α → Frame) {l : List α} {bytes : List UInt8} (h : bytes ++ [] = wireBytes (l.map frame))
    (x : α) : bytes ++ frameBytes (frame x) = wireBytes ((l ++ [x]).map frame) := by
  rw [List.append_nil] at h
  rw [h, List.map_append, wireBytes_append, List.map_singleton, wireBytes_cons, wireBytes_nil, List.append_nil]

variable {caps : PipeCaps} {input : List UInt8} {responses : List (UInt64 × List UInt8)} {requests : List Request} {s s' : Pipe}

theorem PipeInv.responses_fit (h : PipeInv input responses requests s) :
    ∀ f ∈ responses.map responseFrame, f.payload.length ≤ optyMaxFrame - 1 := by
  intro f hf
  obtain ⟨r, hr, rfl⟩ := List.mem_map.1 hf
  exact response_fits (h.responseSizes r hr)

theorem PipeInv.requests_fit (h : PipeInv input responses requests s) :
    ∀ f ∈ requests.map Request.frame, f.payload.length ≤ optyMaxFrame - 1 := by
  intro f hf
  obtain ⟨q, hq, rfl⟩ := List.mem_map.1 hf
  exact request_fits (h.requestSizes q hq)

/-! ## The steps of the client -/

/-- A response is printed and acknowledged. -/
theorem processFrame_response (s : Pipe) (r : UInt64 × List UInt8) (stdinReady : Bool) :
    ∃ lastSeq, s.processFrame (responseFrame r) stdinReady = { s with
      printed := s.printed ++ r.2, lastSeq := lastSeq
      client := .send (frameBytes (Msg.ack lastSeq).frame) (.ack stdinReady) } := by
  obtain ⟨parsed, hparse, hiff⟩ := optyParseStream_spec (responseFrame r)
  have hparsed : parsed = .ok (r.1, r.2) := (hiff r.1 r.2).2 (.inl rfl)
  subst hparsed
  have htype : (responseFrame r).type = msgStdout := rfl
  unfold Pipe.processFrame
  rw [if_neg (by rw [htype]; decide), if_pos (.inl htype), hparse]
  exact ⟨_, rfl⟩

/-- The client takes the frame that is complete: it prints the first response, and sends its ACK. -/
theorem PipeInv.take_response (h : PipeInv input responses requests s) {got rest : List UInt8} {b : UInt8} {stdinReady : Bool}
    (hc : s.client = .recv got stdinReady) (hto : s.toClient = b :: rest) {f : Frame} (hf : receipt (got ++ [b]) = .frame f) :
    ∃ responses' requests', PipeInv input responses' requests' (({ s with toClient := rest } : Pipe).processFrame f stdinReady) := by
  have hok := h.client
  simp only [ClientOk, hc] at hok
  have hwire := h.toClient
  have hreq := h.toServer
  rw [hc, hto] at hwire
  rw [hc] at hreq
  simp only [PipeClient.got, List.append_assoc, List.cons_append] at hwire
  rcases receipt_next h.responses_fit hok.1 hwire with hmore | ⟨g, gs, hframes, hg, hrest⟩
  · rw [hmore] at hf
    cases hf
  · rw [hg] at hf
    cases hf
    obtain ⟨r, rs, rfl, rfl, rfl⟩ := List.map_eq_cons_iff.1 hframes
    obtain ⟨lastSeq, hprocess⟩ := processFrame_response { s with toClient := rest } r stdinReady
    rw [hprocess]
    refine ⟨rs, requests ++ [.ack lastSeq], fun r hr => h.responseSizes r (List.mem_cons_of_mem _ hr), ?_, ?_, ?_, ?_, ?_, h.thread⟩
    · intro q hq
      rcases List.mem_append.1 hq with hq | hq
      · exact h.requestSizes q hq
      · rw [List.mem_singleton.1 hq]
        exact Nat.zero_le _
    · simpa [PipeClient.got] using hrest
    · exact wireBytes_push Request.frame hreq (.ack lastSeq)
    · have hflow := h.flow
      simp only [List.flatMap_cons] at hflow
      simpa [Request.data] using hflow
    · exact hok.2.2

/-- A step of the client. -/
theorem PipeInv.client_step (h : PipeInv input responses requests s) {typed : Bool} {n : Nat}
    (hstep : pipeClientStep caps s typed n = .next s') : ∃ responses' requests', PipeInv input responses' requests' s' := by
  have hok := h.client
  have hwire := h.toClient
  have hreq := h.toServer
  cases hc : s.client with
  | poll =>
    simp only [pipeClientStep, hc] at hstep
    rw [hc] at hwire hreq
    split at hstep
    · rename_i hto
      cases hstep
      refine ⟨responses, requests, h.responseSizes, h.requestSizes, hwire, hreq, h.flow, ⟨receipt_nil, fun _ => ?_, fun hr => ?_⟩,
        h.thread⟩
      · simpa using hto
      · simp only [Bool.and_eq_true] at hr
        simpa using hr.2
    · split at hstep
      · rename_i hready
        cases hstep
        refine ⟨responses, requests, h.responseSizes, h.requestSizes, hwire, hreq, h.flow, ?_, h.thread⟩
        simp only [Bool.and_eq_true] at hready
        simpa [ClientOk] using hready.2
      · cases hstep
  | recv got stdinReady =>
    simp only [pipeClientStep, hc] at hstep
    split at hstep
    · cases hstep
    · rename_i b rest hto
      split at hstep
      · rename_i hmore
        cases hstep
        simp only [ClientOk, hc] at hok
        rw [hc, hto] at hwire
        rw [hc] at hreq
        refine ⟨responses, requests, h.responseSizes, h.requestSizes, ?_, hreq, h.flow, ⟨hmore, ?_, hok.2.2⟩, h.thread⟩
        · simpa [PipeClient.got] using hwire
        · intro hnil
          exact absurd hnil (by simp)
      · rename_i f hf
        cases hstep
        exact h.take_response hc hto hf
      · -- The frames of the server are never refused.
        rename_i hfailed
        exfalso
        simp only [ClientOk, hc] at hok
        rw [hc, hto] at hwire
        simp only [PipeClient.got, List.append_assoc, List.cons_append] at hwire
        rcases receipt_next h.responses_fit hok.1 hwire with hmore | ⟨g, gs, -, hg, -⟩
        · rw [hmore] at hfailed
          cases hfailed
        · rw [hg] at hfailed
          cases hfailed
  | send left k =>
    simp only [pipeClientStep, hc] at hstep
    rw [hc] at hwire hreq
    split at hstep
    · cases hstep
    · rename_i queue hoffer
      cases hstep
      have hsame := offer_append hoffer
      refine ⟨responses, requests, h.responseSizes, h.requestSizes, ?_, ?_, h.flow, ?_, h.thread⟩
      · rw [(next_idle k).1]
        exact hwire
      · rw [(next_idle k).2, List.append_assoc, hsame]
        simpa [PipeClient.sending] using hreq
      · simp only [ClientOk, hc] at hok
        cases k with
        | ack r =>
          cases r with
          | true => exact hok rfl
          | false => exact trivial
        | stdin => exact trivial
    · rename_i queue left' _ hoffer
      cases hstep
      have hsame := offer_append hoffer
      refine ⟨responses, requests, h.responseSizes, h.requestSizes, hwire, ?_, h.flow, ?_, h.thread⟩
      · simp only [PipeClient.sending] at hreq ⊢
        rw [List.append_assoc, hsame, ← List.append_assoc]
        exact hreq
      · simp only [ClientOk, hc] at hok
        cases k with
        | ack r => exact hok
        | stdin => exact trivial
  | readStdin =>
    simp only [pipeClientStep, hc] at hstep
    rw [hc] at hwire hreq
    split at hstep
    · rename_i hn
      cases hstep
      refine ⟨responses, requests ++ [.stdin (s.stdin.take n)], h.responseSizes, ?_, hwire, ?_, ?_, trivial, h.thread⟩
      · intro q hq
        rcases List.mem_append.1 hq with hq | hq
        · exact h.requestSizes q hq
        · rw [List.mem_singleton.1 hq]
          simp only [Request.data, List.length_take]
          omega
      · exact wireBytes_push Request.frame hreq (.stdin (s.stdin.take n))
      · have hflow := h.flow
        rw [← List.take_append_drop n s.stdin] at hflow
        simpa [Request.data] using hflow
    · cases hstep
  | exited =>
    simp only [pipeClientStep, hc] at hstep
    cases hstep

/-! ## The steps of the server and the child -/

/-- The loop of the client thread writes what was typed and goes on after an ACK. -/
theorem loopMove_request (q : Request) : ∃ m, loopMove (.ok (some q.frame)) = some m ∧ m.pipeThread.got = [] ∧
    m.pipeThread.writing = q.data ∧ m.pipeThread ≠ .exited := by
  cases q with
  | stdin data =>
    refine ⟨.write data, rfl, ?_⟩
    cases data with
    | nil => exact ⟨rfl, rfl, by rintro ⟨⟩⟩
    | cons b data => exact ⟨rfl, rfl, by rintro ⟨⟩⟩
  | ack seq =>
    obtain ⟨parsed, hparse, hiff⟩ := optyParseAck_spec (Msg.ack seq).frame
    have hparsed : parsed = .ok seq := (hiff seq).2 rfl
    subst hparsed
    refine ⟨.again, ?_, rfl, rfl, by rintro ⟨⟩⟩
    have htype : (Msg.ack seq).frame.type = msgAck := rfl
    change loopMove (.ok (some (Msg.ack seq).frame)) = some .again
    simp only [loopMove]
    rw [if_neg (by rw [htype]; decide), if_neg (by rw [htype]; decide), if_pos htype, hparse]
    rfl

/-- A step of the client thread. -/
theorem PipeInv.thread_step (h : PipeInv input responses requests s) (hstep : pipeThreadStep caps s = .next s') :
    ∃ requests', PipeInv input responses requests' s' := by
  have hok := h.thread
  have hreq := h.toServer
  have hflow := h.flow
  cases ht : s.thread with
  | recv got =>
    simp only [pipeThreadStep, ht] at hstep
    simp only [ThreadOk, ht] at hok
    rw [ht] at hreq hflow
    split at hstep
    · cases hstep
    · rename_i b rest hto
      rw [hto] at hreq
      simp only [PipeThread.got, List.append_assoc, List.cons_append] at hreq
      rcases receipt_next h.requests_fit hok hreq with hmore | ⟨f, fs, hframes, hf, hrest⟩
      · rw [hmore] at hstep
        cases hstep
        refine ⟨requests, h.responseSizes, h.requestSizes, h.toClient, ?_, hflow, h.client, hmore⟩
        simpa [PipeThread.got] using hreq
      · rw [hf] at hstep
        obtain ⟨q, qs, rfl, rfl, rfl⟩ := List.map_eq_cons_iff.1 hframes
        obtain ⟨m, hm, hgot, hwriting, hstays⟩ := loopMove_request q
        simp only [hm, Option.map_some, Outcome.ofOption_some] at hstep
        cases hstep
        refine ⟨qs, h.responseSizes, fun r hr => h.requestSizes r (List.mem_cons_of_mem _ hr), h.toClient, ?_, ?_, h.client, ?_⟩
        · simpa [hgot] using hrest
        · simp only [hwriting]
          simpa [PipeThread.writing] using hflow
        · cases hp : m.pipeThread with
          | recv got' =>
            rw [hp] at hgot
            simp only [ThreadOk]
            rw [show got' = [] from hgot]
            exact receipt_nil
          | write left => simp only [ThreadOk]
          | exited => exact absurd hp hstays
  | write left =>
    simp only [pipeThreadStep, ht] at hstep
    rw [ht] at hreq hflow
    split at hstep
    · cases hstep
    · rename_i queue hoffer
      cases hstep
      refine ⟨requests, h.responseSizes, h.requestSizes, h.toClient, hreq, ?_, h.client, receipt_nil⟩
      have hsame := offer_append hoffer
      rw [List.append_nil] at hsame
      rw [hsame]
      simpa [PipeThread.writing] using hflow
    · rename_i queue left' _ hoffer
      cases hstep
      refine ⟨requests, h.responseSizes, h.requestSizes, h.toClient, hreq, ?_, h.client, trivial⟩
      have hsame := offer_append hoffer
      simp only [PipeThread.writing] at hflow ⊢
      rw [List.append_assoc _ queue left', hsame, ← List.append_assoc]
      exact hflow
  | exited =>
    simp only [pipeThreadStep, ht] at hstep
    cases hstep

/-- The output only grows until the client reads it. -/
theorem clientOk_of_toClient (h : ClientOk s) {queue : List UInt8} (hne : s.toClient ≠ [] → queue ≠ []) {ptyOut : List UInt8}
    {pty : PipePty} {seq : UInt64} : ClientOk { s with toClient := queue, ptyOut := ptyOut, pty := pty, nextSeq := seq } := by
  unfold ClientOk at h ⊢
  split at h
  all_goals simp_all

/-- A step of the PTY thread. -/
theorem PipeInv.pty_step (h : PipeInv input responses requests s) {n : Nat} (hstep : pipePtyStep caps s n = .next s') :
    ∃ responses', PipeInv input responses' requests s' := by
  have hwire := h.toClient
  have hflow := h.flow
  cases hp : s.pty with
  | read =>
    simp only [pipePtyStep, hp] at hstep
    rw [hp] at hwire
    split at hstep
    · rename_i hn
      cases hstep
      refine ⟨responses ++ [(s.nextSeq, s.ptyOut.take n)], ?_, h.requestSizes, ?_, h.toServer, ?_,
        clientOk_of_toClient h.client fun hne => hne, h.thread⟩
      · intro r hr
        rcases List.mem_append.1 hr with hr | hr
        · exact h.responseSizes r hr
        · rw [List.mem_singleton.1 hr]
          simp only [List.length_take]
          omega
      · exact wireBytes_push responseFrame hwire (s.nextSeq, s.ptyOut.take n)
      · rw [← List.take_append_drop n s.ptyOut] at hflow
        simpa using hflow
    · cases hstep
  | send left =>
    simp only [pipePtyStep, hp] at hstep
    rw [hp] at hwire
    simp only [PipePty.sending, List.append_assoc] at hwire
    split at hstep
    · cases hstep
    · rename_i queue hoffer
      cases hstep
      have hsame := offer_append hoffer
      refine ⟨responses, h.responseSizes, h.requestSizes, ?_, h.toServer, hflow, clientOk_of_toClient h.client (offer_ne_nil hoffer),
        h.thread⟩
      simp only [PipePty.sending, List.append_assoc]
      rw [hsame]
      exact hwire
    · rename_i queue left' _ hoffer
      cases hstep
      have hsame := offer_append hoffer
      refine ⟨responses, h.responseSizes, h.requestSizes, ?_, h.toServer, hflow, clientOk_of_toClient h.client (offer_ne_nil hoffer),
        h.thread⟩
      simp only [PipePty.sending, List.append_assoc]
      rw [hsame]
      exact hwire

/-- A step of the child. -/
theorem PipeInv.child_step (h : PipeInv input responses requests s) (hstep : pipeChildStep caps s = .next s') :
    PipeInv input responses requests s' := by
  have hflow := h.flow
  cases hc : s.child with
  | read =>
    simp only [pipeChildStep, hc] at hstep
    split at hstep
    · cases hstep
    · rename_i b rest hin
      cases hstep
      refine ⟨h.responseSizes, h.requestSizes, h.toClient, h.toServer, ?_, h.client, h.thread⟩
      rw [hc, hin] at hflow
      simpa [PipeChild.held] using hflow
  | echo b =>
    simp only [pipeChildStep, hc] at hstep
    split at hstep
    · cases hstep
    · rename_i queue left hoffer
      cases hstep
      simp only [offer] at hoffer
      split at hoffer
      · cases hoffer
        refine ⟨h.responseSizes, h.requestSizes, h.toClient, h.toServer, ?_, h.client, h.thread⟩
        rw [hc] at hflow
        simpa [PipeChild.held] using hflow
      · cases hoffer

/-- A step of any party. -/
theorem PipeInv.step (h : PipeInv input responses requests s) {a : PipeAct} (hstep : pipeStep caps s a = .next s') :
    ∃ responses' requests', PipeInv input responses' requests' s' := by
  cases a with
  | client typed n => exact h.client_step hstep
  | thread =>
    obtain ⟨requests', h'⟩ := h.thread_step hstep
    exact ⟨responses, requests', h'⟩
  | pty n =>
    obtain ⟨responses', h'⟩ := h.pty_step hstep
    exact ⟨responses', requests, h'⟩
  | child => exact ⟨responses, requests, h.child_step hstep⟩

/-! ## Room -/

/-- What the client has left to send has room in the socket. -/
def Room (caps : PipeCaps) (s : Pipe) : Prop := s.toServer.length + s.client.sending.length ≤ caps.toServer

/-- The frame that completes a receive is answered by an ACK, or by nothing. -/
theorem length_sending_processFrame (s : Pipe) (f : Frame) (stdinReady : Bool) :
    (s.processFrame f stdinReady).toServer = s.toServer ∧ (s.processFrame f stdinReady).client.sending.length ≤ 13 := by
  unfold Pipe.processFrame
  split
  · cases stdinReady <;> exact ⟨rfl, Nat.zero_le _⟩
  · split
    · split
      · refine ⟨rfl, ?_⟩
        simp only [PipeClient.sending, length_frameBytes, Msg.frame, length_optyPutU64]
        omega
      · exact ⟨rfl, Nat.zero_le _⟩
    · exact ⟨rfl, Nat.zero_le _⟩

/-- The client keeps its room: it begins a send only with room for all of it, and then only moves bytes. -/
theorem Room.client_step (h : Room caps s) {typed : Bool} {n : Nat} (hroom : roomForFrame caps s (.client typed n) = true)
    (hstep : pipeClientStep caps s typed n = .next s') : Room caps s' := by
  unfold Room at h ⊢
  have hzero : s.toServer.length + 0 ≤ caps.toServer := by omega
  cases hc : s.client with
  | poll =>
    simp only [pipeClientStep, hc] at hstep
    split at hstep
    · cases hstep
      exact hzero
    · split at hstep
      · cases hstep
        exact hzero
      · cases hstep
  | recv got stdinReady =>
    simp only [pipeClientStep, hc] at hstep
    split at hstep
    · cases hstep
    · rename_i b rest hto
      split at hstep
      · cases hstep
        exact hzero
      · rename_i f hf
        cases hstep
        simp only [roomForFrame, hc, hto, hf, decide_eq_true_eq] at hroom
        obtain ⟨hsame, hlen⟩ := length_sending_processFrame
          { s with toClient := rest, client := .recv got stdinReady } f stdinReady
        rw [hsame]
        simp only
        omega
      · cases hstep
        exact hzero
  | send left k =>
    simp only [pipeClientStep, hc] at hstep
    rw [hc] at h
    simp only [PipeClient.sending] at h
    split at hstep
    · cases hstep
    · rename_i queue hoffer
      cases hstep
      have hlen := congrArg List.length (offer_append hoffer)
      simp only [List.length_append, List.length_nil] at hlen
      simp only [(next_idle k).2, List.length_nil]
      omega
    · rename_i queue left' _ hoffer
      cases hstep
      have hlen := congrArg List.length (offer_append hoffer)
      simp only [List.length_append] at hlen
      simp only [PipeClient.sending]
      omega
  | readStdin =>
    simp only [pipeClientStep, hc] at hstep
    split at hstep
    · cases hstep
      simp only [roomForFrame, hc, decide_eq_true_eq] at hroom
      simp only [PipeClient.sending, length_frameBytes, List.length_take]
      omega
    · cases hstep
  | exited =>
    simp only [pipeClientStep, hc] at hstep
    cases hstep

/-- The others only take from the socket to the server. -/
theorem Room.thread_step (h : Room caps s) (hstep : pipeThreadStep caps s = .next s') : Room caps s' := by
  unfold Room at h ⊢
  cases ht : s.thread with
  | recv got =>
    simp only [pipeThreadStep, ht] at hstep
    split at hstep
    · cases hstep
    · rename_i b rest hto
      rw [hto, List.length_cons] at h
      split at hstep
      · cases hstep
        simp only
        omega
      · obtain ⟨m, -, hm⟩ := ofOption_map_eq_next hstep
        rw [← hm]
        simp only
        omega
      · cases hstep
        simp only
        omega
  | write left =>
    simp only [pipeThreadStep, ht] at hstep
    split at hstep <;> cases hstep <;> exact h
  | exited =>
    simp only [pipeThreadStep, ht] at hstep
    cases hstep

theorem Room.step (h : Room caps s) {a : PipeAct} (hroom : roomForFrame caps s a = true) (hstep : pipeStep caps s a = .next s') :
    Room caps s' := by
  cases a with
  | client typed n => exact h.client_step hroom hstep
  | thread => exact h.thread_step hstep
  | pty n =>
    simp only [pipeStep, pipePtyStep] at hstep
    split at hstep
    · split at hstep <;> cases hstep
      exact h
    · split at hstep <;> cases hstep <;> exact h
  | child =>
    simp only [pipeStep, pipeChildStep] at hstep
    split at hstep
    · split at hstep <;> cases hstep
      exact h
    · split at hstep <;> cases hstep
      exact h

/-! ## Somebody goes on -/

/-- A write into a queue that is not full goes on. -/
theorem offer_ne_none (cap : Nat) (queue left : List UInt8) (h : left ≠ [] → queue.length < cap) :
    ∃ queue' left', offer cap queue left = some (queue', left') := by
  cases left with
  | nil => exact ⟨queue, [], rfl⟩
  | cons b left => exact ⟨queue ++ [b], left, if_pos (h (List.cons_ne_nil b left))⟩

/-- A client that is not waiting for the server goes on. -/
theorem PipeInv.client_goes_on (h : PipeInv input responses requests s) (hroom : Room caps s)
    (hbusy : s.toClient ≠ [] ∨ (s.client.got = [] ∧ (s.client = .poll → s.stdin ≠ []))) :
    ∃ a s', pipeStep caps s a = .next s' := by
  have hok := h.client
  cases hc : s.client with
  | poll =>
    rw [hc] at hbusy
    refine ⟨.client true 0, ?_⟩
    simp only [pipeStep, pipeClientStep, hc]
    by_cases hto : s.toClient = []
    · have hin : s.stdin ≠ [] := by
        rcases hbusy with hne | ⟨-, hin⟩
        · exact absurd hto hne
        · exact hin rfl
      simp [hto, hin]
    · simp [hto]
  | recv got stdinReady =>
    simp only [ClientOk, hc] at hok
    have hto : s.toClient ≠ [] := by
      rcases hbusy with hne | ⟨hgot, -⟩
      · exact hne
      · rw [hc] at hgot
        exact hok.2.1 hgot
    obtain ⟨b, rest, hcons⟩ := List.exists_cons_of_ne_nil hto
    refine ⟨.client true 0, ?_⟩
    simp only [pipeStep, pipeClientStep, hc, hcons]
    cases receipt (got ++ [b]) with
    | more => exact ⟨_, rfl⟩
    | frame f => exact ⟨_, rfl⟩
    | failed => exact ⟨_, rfl⟩
  | send left k =>
    unfold Room at hroom
    rw [hc] at hroom
    simp only [PipeClient.sending] at hroom
    have hfree : left ≠ [] → s.toServer.length < caps.toServer := fun hne => by
      have := List.length_pos_iff.2 hne
      omega
    obtain ⟨queue, left', hoffer⟩ := offer_ne_none caps.toServer s.toServer left hfree
    refine ⟨.client true 0, ?_⟩
    simp only [pipeStep, pipeClientStep, hc, hoffer]
    cases left' with
    | nil => exact ⟨_, rfl⟩
    | cons b left' => exact ⟨_, rfl⟩
  | readStdin =>
    simp only [ClientOk, hc] at hok
    have hlen := List.length_pos_iff.2 hok
    refine ⟨.client true 1, ?_⟩
    simp only [pipeStep, pipeClientStep, hc]
    rw [if_pos ⟨Nat.le_refl 1, by decide, hlen⟩]
    exact ⟨_, rfl⟩
  | exited =>
    simp only [ClientOk, hc] at hok

/-- With an empty queue to the client, the PTY thread goes on or waits for output. -/
theorem pty_goes_on (hcap : 1 ≤ caps.toClient) (hto : s.toClient = []) :
    (∃ a s', pipeStep caps s a = .next s') ∨ (s.pty = .read ∧ s.ptyOut = []) := by
  cases hp : s.pty with
  | read =>
    by_cases hout : s.ptyOut = []
    · exact .inr ⟨rfl, hout⟩
    · refine .inl ⟨.pty 1, ?_⟩
      have hlen := List.length_pos_iff.2 hout
      simp only [pipeStep, pipePtyStep, hp]
      rw [if_pos ⟨Nat.le_refl 1, by decide, hlen⟩]
      exact ⟨_, rfl⟩
  | send left =>
    obtain ⟨queue, left', hoffer⟩ := offer_ne_none caps.toClient s.toClient left (fun _ => by rw [hto]; exact hcap)
    refine .inl ⟨.pty 0, ?_⟩
    simp only [pipeStep, pipePtyStep, hp, hoffer]
    cases left' with
    | nil => exact ⟨_, rfl⟩
    | cons b left' => exact ⟨_, rfl⟩

/-- With an empty output, the child goes on or waits for input. -/
theorem child_goes_on (hcap : 1 ≤ caps.ptyOut) (hout : s.ptyOut = []) :
    (∃ a s', pipeStep caps s a = .next s') ∨ (s.child = .read ∧ s.ptyIn = []) := by
  cases hc : s.child with
  | read =>
    cases hin : s.ptyIn with
    | nil => exact .inr ⟨rfl, rfl⟩
    | cons b rest =>
      refine .inl ⟨.child, ?_⟩
      simp only [pipeStep, pipeChildStep, hc, hin]
      exact ⟨_, rfl⟩
  | echo b =>
    have hfree : s.ptyOut.length < caps.ptyOut := by rw [hout]; exact hcap
    refine .inl ⟨.child, ?_⟩
    simp only [pipeStep, pipeChildStep, hc, offer, if_pos hfree]
    exact ⟨_, rfl⟩

/-- With an empty input, the client thread goes on or waits for the client. -/
theorem PipeInv.thread_goes_on (h : PipeInv input responses requests s) (hcap : 1 ≤ caps.ptyIn) (hin : s.ptyIn = []) :
    (∃ a s', pipeStep caps s a = .next s') ∨ (∃ got, s.thread = .recv got ∧ s.toServer = []) := by
  have hok := h.thread
  cases ht : s.thread with
  | recv got =>
    cases hto : s.toServer with
    | nil => exact .inr ⟨got, rfl, rfl⟩
    | cons b rest =>
      refine .inl ⟨.thread, ?_⟩
      simp only [pipeStep, pipeThreadStep, ht, hto]
      cases receipt (got ++ [b]) with
      | more => exact ⟨_, rfl⟩
      | frame f =>
        obtain ⟨m, hm⟩ := loopMove_total (.ok (some f))
        simp only [hm, Option.map_some, Outcome.ofOption_some]
        exact ⟨_, rfl⟩
      | failed => exact ⟨_, rfl⟩
  | write left =>
    obtain ⟨queue, left', hoffer⟩ := offer_ne_none caps.ptyIn s.ptyIn left (fun _ => by rw [hin]; exact hcap)
    refine .inl ⟨.thread, ?_⟩
    simp only [pipeStep, pipeThreadStep, ht, hoffer]
    cases left' with
    | nil => exact ⟨_, rfl⟩
    | cons b left' => exact ⟨_, rfl⟩
  | exited =>
    simp only [ThreadOk, ht] at hok

/-- Everything is printed, or somebody goes on. -/
theorem PipeInv.progress (h : PipeInv input responses requests s) (hroom : Room caps s) (h1 : 1 ≤ caps.toClient)
    (h2 : 1 ≤ caps.ptyOut) (h3 : 1 ≤ caps.ptyIn) : s.printed = input ∨ ∃ a s', pipeStep caps s a = .next s' := by
  by_cases hto : s.toClient = []
  · rcases pty_goes_on h1 hto with hgo | ⟨hpty, hout⟩
    · exact .inr hgo
    rcases child_goes_on h2 hout with hgo | ⟨hchild, hin⟩
    · exact .inr hgo
    rcases h.thread_goes_on h3 hin with hgo | ⟨got, hthread, hserver⟩
    · exact .inr hgo
    -- The client has received every response to its end.
    have hwire := h.toClient
    rw [hto, hpty] at hwire
    simp only [PipePty.sending, List.append_nil] at hwire
    have hok := h.client
    have hmore : receipt s.client.got = .more := by
      unfold ClientOk at hok
      cases hc : s.client with
      | recv got stdinReady =>
        simp only [hc] at hok
        exact hok.1
      | poll => exact receipt_nil
      | send left k => exact receipt_nil
      | readStdin => exact receipt_nil
      | exited => exact receipt_nil
    have hresponses := receipt_end h.responses_fit hmore hwire
    rw [hresponses, wireBytes_nil] at hwire
    by_cases hidle : s.client = .poll ∧ s.stdin = []
    · -- The client thread has received every request to its end.
      have hreq := h.toServer
      rw [hthread, hserver, hidle.1] at hreq
      simp only [PipeThread.got, PipeClient.sending, List.append_nil] at hreq
      have hgot := h.thread
      simp only [ThreadOk, hthread] at hgot
      have hrequests := receipt_end h.requests_fit hgot hreq
      have hflow := h.flow
      rw [List.map_eq_nil_iff] at hresponses hrequests
      rw [hresponses, hrequests, hout, hchild, hin, hthread, hidle.2] at hflow
      refine .inl ?_
      simpa [PipeChild.held, PipeThread.writing] using hflow.symm
    · exact .inr (h.client_goes_on hroom (.inr ⟨hwire, fun hpoll hnil => hidle ⟨hpoll, hnil⟩⟩))
  · exact .inr (h.client_goes_on hroom (.inl hto))

end PipeAux

open PipeAux

/-- In every run in which the client begins each of its frames with room for the whole frame in the socket to the server, no state is
reached in which a byte of input or of its echo is still to be delivered and the client, the client thread, the PTY thread and the child
all wait, for all capacities and all that is typed. -/
theorem pipe_goes_on (caps : PipeCaps) (h1 : 1 ≤ caps.toClient) (h2 : 1 ≤ caps.ptyOut) (h3 : 1 ≤ caps.ptyIn) (input : List UInt8)
    (seq : UInt64) {run : List PipeAct} {s : Pipe}
    (hroom : Meets (pipeStep caps) (fun s a => roomForFrame caps s a = true) (Pipe.init input seq) run)
    (hrun : exec (pipeStep caps) (Pipe.init input seq) run = .next s) :
    s.printed = input ∨ ∃ a s', pipeStep caps s a = .next s' := by
  have hinit : (∃ responses requests, PipeInv input responses requests (Pipe.init input seq)) ∧ Room caps (Pipe.init input seq) :=
    ⟨⟨[], [], pipeInv_init input seq⟩, Nat.zero_le _⟩
  obtain ⟨⟨responses, requests, hinv⟩, hfree⟩ := invariant_of_meets
    (P := fun s => (∃ responses requests, PipeInv input responses requests s) ∧ Room caps s)
    (fun s a s' hs hok hstep => by
      obtain ⟨⟨responses, requests, hinv⟩, hfree⟩ := hs
      exact ⟨hinv.step hstep, hfree.step hok hstep⟩) hinit hroom hrun
  exact hinv.progress hfree h1 h2 h3

/-- Five keys are sent, received and echoed as far as the first, of which the PTY thread has begun to send the echo. -/
def fiveKeysRun : List PipeAct :=
  [.client true 0, .client true 5] ++ (List.replicate 10 [PipeAct.client true 0, .thread]).flatten ++
    [.thread, .child, .child, .pty 1, .pty 0]

theorem pipe_goes_on_five_keys : ∃ s, exec (pipeStep ⟨64, 1, 1, 1⟩) (Pipe.init [97, 98, 99, 100, 101] 0) fiveKeysRun = .next s ∧
    s.printed = [] ∧ ∃ a s', pipeStep ⟨64, 1, 1, 1⟩ s a = .next s' := by
  have hroom : checks (pipeStep ⟨64, 1, 1, 1⟩) (roomForFrame ⟨64, 1, 1, 1⟩) (Pipe.init [97, 98, 99, 100, 101] 0) fiveKeysRun =
      true := by
    decide +kernel
  have hrun : (exec (pipeStep ⟨64, 1, 1, 1⟩) (Pipe.init [97, 98, 99, 100, 101] 0) fiveKeysRun).passes (fun s =>
      s.printed == []) = true := by
    decide +kernel
  obtain ⟨s, hs, htest⟩ := Outcome.passes_iff.1 hrun
  rw [beq_iff_eq] at htest
  refine ⟨s, hs, htest, ?_⟩
  rcases pipe_goes_on ⟨64, 1, 1, 1⟩ (by decide) (by decide) (by decide) _ 0 (.of_checks hroom) hs with hall | hgo
  · rw [htest] at hall
    cases hall
  · exact hgo

/-- Every party is in the middle of a write, into a queue that is full. -/
def Pipe.allFull (caps : PipeCaps) (s : Pipe) : Bool :=
  match s.client, s.thread, s.pty, s.child with
  | .send left _, .write left', .send left'', .echo b =>
    (offer caps.toServer s.toServer left).isNone && (offer caps.ptyIn s.ptyIn left').isNone &&
      (offer caps.toClient s.toClient left'').isNone && (offer caps.ptyOut s.ptyOut [b]).isNone
  | _, _, _, _ => false

theorem blocked_of_allFull {caps : PipeCaps} {s : Pipe} (h : s.allFull caps = true) (a : PipeAct) : pipeStep caps s a = .blocked := by
  unfold Pipe.allFull at h
  split at h
  · rename_i left k left' left'' b hclient hthread hpty hchild
    simp only [Bool.and_eq_true, Option.isNone_iff_eq_none] at h
    obtain ⟨⟨⟨h1, h2⟩, h3⟩, h4⟩ := h
    cases a with
    | client typed n => simp only [pipeStep, pipeClientStep, hclient, h1]
    | thread => simp only [pipeStep, pipeThreadStep, hthread, h2]
    | pty n => simp only [pipeStep, pipePtyStep, hpty, h3]
    | child => simp only [pipeStep, pipeChildStep, hchild, h4]
  · cases h

/-- Five keys are sent and received, a sixth is being sent, and the echo of the five fills every queue. -/
def sixKeysRun : List PipeAct :=
  [.client true 0, .client true 5] ++ (List.replicate 10 [PipeAct.client true 0, .thread]).flatten ++
    [.client true 0, .client true 1, .client true 0] ++ [.thread, .child, .child, .pty 1, .pty 0] ++ [.thread, .child, .child] ++
    [.thread, .child] ++ [.thread]

/-- With queues of one byte, six keys bring the pipe to a stand with nothing printed. -/
theorem pipe_deadlocks : ∃ s, exec (pipeStep ⟨1, 1, 1, 1⟩) (Pipe.init [97, 98, 99, 100, 101, 102] 0) sixKeysRun = .next s ∧
    s.printed ≠ [97, 98, 99, 100, 101, 102] ∧ ∀ a, pipeStep ⟨1, 1, 1, 1⟩ s a = .blocked := by
  have hrun : (exec (pipeStep ⟨1, 1, 1, 1⟩) (Pipe.init [97, 98, 99, 100, 101, 102] 0) sixKeysRun).passes (fun s =>
      s.printed == [] && s.allFull ⟨1, 1, 1, 1⟩) = true := by
    decide +kernel
  obtain ⟨s, hs, htest⟩ := Outcome.passes_iff.1 hrun
  rw [Bool.and_eq_true, beq_iff_eq] at htest
  refine ⟨s, hs, ?_, blocked_of_allFull htest.2⟩
  rw [htest.1]
  rintro ⟨⟩

end ZeroPty
