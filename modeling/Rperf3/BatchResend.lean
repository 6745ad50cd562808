import Rperf3.BatchSocket

/-!
# Sending one by one (`batch_socket.rs:133-162`)

Without `sendmmsg`, `send` hands the packets of a batch to the socket one after
the other. A socket that would block ends the loop and the packets sent are
drained; any other error returns at once and drains nothing. `retry` repeats
`send` on what a call leaves in the batch.
-/

namespace Rperf3

inductive SendReply where
  | sent (n : ℕ)
  | failed (kind : ErrorKind)
  deriving DecidableEq

/-- The replies of a socket to the `send_to` calls of one `send`, by position. -/
abbrev SendReplies := ℕ → SendReply

/-- The loop over the packets, from position `i` on, with the totals so far. -/
def sendToEach (socket : SendReplies) (i totalBytes packetsSent : ℕ) :
    List (Bytes × SocketAddr) → Except ErrorKind (ℕ × ℕ)
  | [] => .ok (totalBytes, packetsSent)
  | _ :: rest =>
    match socket i with
    | .sent n => sendToEach socket (i + 1) (totalBytes + n) (packetsSent + 1) rest
    | .failed .wouldBlock => .ok (totalBytes, packetsSent)
    | .failed kind => .error kind

namespace UdpSendBatch

/-- `send` on systems other than Linux. -/
def sendEach (b : UdpSendBatch) (socket : SendReplies) :
    Except ErrorKind (ℕ × ℕ) × UdpSendBatch :=
  if b.isEmpty then (.ok (0, 0), b)
  else
    match sendToEach socket 0 0 0 b.messages with
    | .error kind => (.error kind, b)
    | .ok (totalBytes, packetsSent) => (.ok (totalBytes, packetsSent), b.drain packetsSent)

end UdpSendBatch

/-- How many of the first `n` packets from position `i` on the socket takes before it refuses
one. -/
def SendReplies.taken (socket : SendReplies) (i : ℕ) : ℕ → ℕ
  | 0 => 0
  | n + 1 =>
    match socket i with
    | .sent _ => socket.taken (i + 1) n + 1
    | .failed _ => 0

namespace UdpSendBatch

def handedEach (b : UdpSendBatch) (socket : SendReplies) : List (Bytes × SocketAddr) :=
  b.messages.take (socket.taken 0 b.messages.length)

/-- `send` repeated on what is left in the batch: all packets handed over, and the batch. -/
def retry (b : UdpSendBatch) : List SendReplies → List (Bytes × SocketAddr) × UdpSendBatch
  | [] => ([], b)
  | socket :: sockets =>
    let rest := (b.sendEach socket).2.retry sockets
    (b.handedEach socket ++ rest.1, rest.2)

/-- What was handed over and what is left make up the batch. -/
def Accounted (b : UdpSendBatch) (sockets : List SendReplies) : Prop :=
  (b.retry sockets).1 ++ (b.retry sockets).2.messages = b.messages

end UdpSendBatch

/-- Of `n` packets, the first one refused is refused because the socket would block, or it is the
first of all. -/
def SendReplies.ErrorsFirst (socket : SendReplies) (n : ℕ) : Prop :=
  ∀ k < n, (∀ j < k, ∃ len, socket j = .sent len) →
    ∀ kind, socket k = .failed kind → kind ≠ .wouldBlock → k = 0

namespace UdpSendBatch

/-- No call of the run fails after a packet it has handed over. -/
def NoLateError (b : UdpSendBatch) : List SendReplies → Prop
  | [] => True
  | socket :: sockets =>
    socket.ErrorsFirst b.messages.length ∧ (b.sendEach socket).2.NoLateError sockets

end UdpSendBatch

/-! ### One call -/

/-- The reply that ends the loop, if it does not reach the end of `n` packets. -/
def SendReplies.refusal (socket : SendReplies) (i : ℕ) : ℕ → Option ErrorKind
  | 0 => none
  | n + 1 =>
    match socket i with
    | .sent _ => socket.refusal (i + 1) n
    | .failed kind => some kind

theorem sendToEach_error {socket : SendReplies} {kind : ErrorKind}
    {msgs : List (Bytes × SocketAddr)} {i totalBytes packetsSent : ℕ}
    (h : socket.refusal i msgs.length = some kind) (hkind : kind ≠ .wouldBlock) :
    sendToEach socket i totalBytes packetsSent msgs = .error kind := by
  induction msgs generalizing i totalBytes packetsSent with
  | nil => exact nomatch h
  | cons msg rest ih =>
    rw [List.length_cons, SendReplies.refusal] at h
    rw [sendToEach]
    cases hreply : socket i with
    | sent n =>
      rw [hreply] at h
      exact ih h
    | failed kind' =>
      rw [hreply] at h
      cases h
      cases kind with
      | wouldBlock => exact absurd rfl hkind
      | unexpectedEof => rfl
      | other => rfl

theorem sendToEach_ok {socket : SendReplies} {msgs : List (Bytes × SocketAddr)} {i : ℕ}
    (totalBytes packetsSent : ℕ)
    (h : ∀ kind, socket.refusal i msgs.length = some kind → kind = .wouldBlock) :
    ∃ bytes, sendToEach socket i totalBytes packetsSent msgs =
      .ok (bytes, packetsSent + socket.taken i msgs.length) := by
  induction msgs generalizing i totalBytes packetsSent with
  | nil => exact ⟨totalBytes, rfl⟩
  | cons msg rest ih =>
    rw [List.length_cons, SendReplies.refusal] at h
    rw [sendToEach, List.length_cons, SendReplies.taken]
    cases hreply : socket i with
    | sent n =>
      rw [hreply] at h
      obtain ⟨bytes, hbytes⟩ := ih (totalBytes + n) (packetsSent + 1) h
      exact ⟨bytes, hbytes.trans (by rw [Nat.add_assoc, Nat.add_comm 1])⟩
    | failed kind =>
      rw [hreply] at h
      obtain rfl := h kind rfl
      exact ⟨totalBytes, rfl⟩

/-! ### Which packet is refused -/

namespace SendReplies

variable {socket : SendReplies} {i n k : ℕ}

theorem taken_sent : ∀ j < socket.taken i n, ∃ len, socket (i + j) = .sent len := by
  induction n generalizing i with
  | zero => exact fun j hj => absurd hj (Nat.not_lt_zero j)
  | succ n ih =>
    intro j hj
    rw [taken] at hj
    cases hreply : socket i with
    | sent len =>
      rw [hreply] at hj
      cases j with
      | zero => exact ⟨len, hreply⟩
      | succ j =>
        rw [← Nat.succ_add_eq_add_succ]
        exact ih j (Nat.lt_of_succ_lt_succ hj)
    | failed kind =>
      rw [hreply] at hj
      exact absurd hj (Nat.not_lt_zero j)

theorem refusal_eq_some {kind : ErrorKind} (h : socket.refusal i n = some kind) :
    socket.taken i n < n ∧ socket (i + socket.taken i n) = .failed kind := by
  induction n generalizing i with
  | zero => exact nomatch h
  | succ n ih =>
    rw [refusal] at h
    rw [taken]
    cases hreply : socket i with
    | sent len =>
      rw [hreply] at h
      obtain ⟨hlt, hfailed⟩ := ih h
      refine ⟨Nat.succ_lt_succ hlt, ?_⟩
      rwa [← Nat.succ_add_eq_add_succ]
    | failed kind' =>
      rw [hreply] at h
      cases h
      exact ⟨Nat.succ_pos n, hreply⟩

theorem refusal_of_sent {kind : ErrorKind} (hlt : k < n)
    (hsent : ∀ j < k, ∃ len, socket (i + j) = .sent len) (hfailed : socket (i + k) = .failed kind) :
    socket.refusal i n = some kind ∧ socket.taken i n = k := by
  induction n generalizing i k with
  | zero => exact absurd hlt (Nat.not_lt_zero k)
  | succ n ih =>
    rw [refusal, taken]
    cases k with
    | zero =>
      rw [Nat.add_zero] at hfailed
      rw [hfailed]
      exact ⟨rfl, rfl⟩
    | succ k =>
      obtain ⟨len, hfirst⟩ := hsent 0 (Nat.succ_pos k)
      rw [Nat.add_zero] at hfirst
      rw [← Nat.succ_add_eq_add_succ] at hfailed
      obtain ⟨hrefusal, htaken⟩ := ih (Nat.lt_of_succ_lt_succ hlt)
        (fun j hj => by
          rw [Nat.succ_add_eq_add_succ]
          exact hsent (j + 1) (Nat.succ_lt_succ hj))
        hfailed
      rw [hfirst]
      exact ⟨hrefusal, congrArg (· + 1) htaken⟩

theorem errorsFirst_iff : socket.ErrorsFirst n ↔
    ∀ kind, socket.refusal 0 n = some kind → kind ≠ .wouldBlock → socket.taken 0 n = 0 := by
  constructor
  · intro h kind hrefusal hkind
    obtain ⟨hlt, hfailed⟩ := refusal_eq_some hrefusal
    rw [Nat.zero_add] at hfailed
    refine h _ hlt (fun j hj => ?_) kind hfailed hkind
    obtain ⟨len, hlen⟩ := taken_sent j hj
    exact ⟨len, by rwa [Nat.zero_add] at hlen⟩
  · intro h k hlt hsent kind hfailed hkind
    obtain ⟨hrefusal, htaken⟩ := refusal_of_sent (i := 0) hlt
      (fun j hj => by
        rw [Nat.zero_add]
        exact hsent j hj)
      (by rwa [Nat.zero_add])
    exact htaken.symm.trans (h kind hrefusal hkind)

end SendReplies

/-! ### What a call leaves in the batch -/

section Run

variable {b : UdpSendBatch} {socket : SendReplies} {sockets : List SendReplies}

theorem messages_drain (b : UdpSendBatch) (n : ℕ) : (b.drain n).messages = b.messages.drop n :=
  List.drop_zipWith.symm

theorem messages_of_isEmpty (h : b.isEmpty = true) : b.messages = [] := by
  have hpackets : b.packets = [] := List.isEmpty_iff.mp h
  rw [UdpSendBatch.messages, hpackets, List.zip_nil_left]

theorem sendEach_late {kind : ErrorKind}
    (h : socket.refusal 0 b.messages.length = some kind) (hkind : kind ≠ .wouldBlock) :
    b.sendEach socket = (.error kind, b) := by
  unfold UdpSendBatch.sendEach
  split
  · next hempty =>
    rw [messages_of_isEmpty hempty] at h
    exact nomatch h
  · rw [sendToEach_error h hkind]

theorem sendEach_drained
    (h : ∀ kind, socket.refusal 0 b.messages.length = some kind → kind = .wouldBlock) :
    (b.sendEach socket).2 = b.drain (socket.taken 0 b.messages.length) := by
  unfold UdpSendBatch.sendEach
  split
  · next hempty =>
    rw [messages_of_isEmpty hempty]
    exact (drain_zero b).symm
  · obtain ⟨bytes, hbytes⟩ := sendToEach_ok 0 0 h
    rw [hbytes, Nat.zero_add]

theorem sendEach_accounted_iff :
    b.handedEach socket ++ (b.sendEach socket).2.messages = b.messages ↔
      socket.ErrorsFirst b.messages.length := by
  rw [SendReplies.errorsFirst_iff]
  by_cases hclean : ∀ kind, socket.refusal 0 b.messages.length = some kind → kind = .wouldBlock
  · refine iff_of_true ?_ (fun kind hrefusal hkind => absurd (hclean kind hrefusal) hkind)
    rw [sendEach_drained hclean, messages_drain, UdpSendBatch.handedEach,
      List.take_append_drop]
  · push Not at hclean
    obtain ⟨kind, hrefusal, hkind⟩ := hclean
    have hlt := (SendReplies.refusal_eq_some hrefusal).1
    rw [sendEach_late hrefusal hkind, UdpSendBatch.handedEach, List.append_left_eq_self]
    constructor
    · intro htake kind' _ _
      have hlength := congrArg List.length htake
      rw [List.length_take, List.length_nil] at hlength
      omega
    · intro h
      rw [h kind hrefusal hkind, List.take_zero]

theorem accounted_cons (h : b.handedEach socket ++ (b.sendEach socket).2.messages = b.messages) :
    b.Accounted (socket :: sockets) ↔ (b.sendEach socket).2.Accounted sockets := by
  unfold UdpSendBatch.Accounted
  rw [UdpSendBatch.retry, List.append_assoc]
  constructor
  · intro hall
    exact List.append_cancel_left (hall.trans h.symm)
  · intro hrest
    rw [hrest]
    exact h

theorem noLateError_of_accounted (h : ∀ k, b.Accounted (sockets.take k)) :
    b.NoLateError sockets := by
  induction sockets generalizing b with
  | nil => trivial
  | cons socket sockets ih =>
    have hone : b.handedEach socket ++ (b.sendEach socket).2.messages = b.messages := by
      simpa only [UdpSendBatch.Accounted, List.take_succ_cons, List.take_zero,
        UdpSendBatch.retry, List.append_nil] using h 1
    refine ⟨sendEach_accounted_iff.mp hone, ih (fun k => ?_)⟩
    exact (accounted_cons hone).mp (h (k + 1))

theorem accounted_of_noLateError (h : b.NoLateError sockets) : b.Accounted sockets := by
  induction sockets generalizing b with
  | nil => rfl
  | cons socket sockets ih =>
    have hone := sendEach_accounted_iff.mpr h.1
    exact (accounted_cons hone).mpr (ih h.2)

theorem noLateError_take (h : b.NoLateError sockets) (k : ℕ) :
    b.NoLateError (sockets.take k) := by
  induction sockets generalizing b k with
  | nil => rwa [List.take_nil]
  | cons socket sockets ih =>
    cases k with
    | zero => trivial
    | succ k => exact ⟨h.1, ih h.2 k⟩

/-- A run without late errors hands over a part of the batch from its front, in order and without
a repetition. -/
theorem retry_prefix (h : b.NoLateError sockets) : (b.retry sockets).1 <+: b.messages :=
  ⟨_, accounted_of_noLateError h⟩

end Run

/-- The runs of `send` in which, after every call, the packets handed over and those left make up
the batch. -/
theorem retry_accounted_iff (b : UdpSendBatch) (sockets : List SendReplies) :
    (∀ k, b.Accounted (sockets.take k)) ↔ b.NoLateError sockets :=
  ⟨noLateError_of_accounted, fun h k => accounted_of_noLateError (noLateError_take h k)⟩

def twoPackets : UdpSendBatch :=
  let addr := .v4 (Vector.replicate 4 127) 5201
  ⟨[[1], [2]], [addr, addr], rfl⟩

def secondRefused : SendReplies
  | 0 => .sent 1
  | _ => .failed .other

theorem retry_secondRefused : ¬ ∀ (b : UdpSendBatch) (sockets : List SendReplies) (k : ℕ),
    b.Accounted (sockets.take k) := by
  intro h
  have hone : (twoPackets.retry [secondRefused]).1 ++
      (twoPackets.retry [secondRefused]).2.messages = twoPackets.messages :=
    h twoPackets [secondRefused] 1
  exact absurd hone (by decide)

end Rperf3
