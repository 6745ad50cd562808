import Rperf3.Primitive
import Mathlib.Data.List.Basic

/-!
# Batched sending (`batch_socket.rs:20-310`, Linux)

A batch keeps packets and addresses in two parallel vectors. `send` hands a
prefix of the batch to the kernel with one `sendmmsg` and drains it. The kernel
is a parameter: for the messages of a batch it answers how many of them it sent,
with the length of each, or fails.
-/

namespace Rperf3

inductive SocketAddr where
  | v4 (ip : Vector UInt8 4) (port : UInt16)
  | v6 (ip : Vector UInt8 16) (port : UInt16) (flowinfo scopeId : UInt32)
  deriving DecidableEq

def maxBatchSize : ℕ := 64

structure UdpSendBatch where
  packets : List Bytes
  addresses : List SocketAddr
  paired : packets.length = addresses.length

/-- The return of `sendmmsg`: the `msg_len` of every message sent, or `errno`. -/
inductive MmsgReply where
  | sent (msgLens : List ℕ)
  | failed (kind : ErrorKind)

/-- A kernel: it never sends more messages than it is given. -/
structure Kernel where
  sendmmsg : List (Bytes × SocketAddr) → MmsgReply
  bounded : ∀ msgs lens, sendmmsg msgs = .sent lens → lens.length ≤ msgs.length

namespace UdpSendBatch

def new : UdpSendBatch := ⟨[], [], rfl⟩

def add (b : UdpSendBatch) (packet : Bytes) (addr : SocketAddr) : Bool × UdpSendBatch :=
  if b.packets.length ≥ maxBatchSize then (false, b)
  else (true,
    { packets := b.packets ++ [packet]
      addresses := b.addresses ++ [addr]
      paired := by rw [List.length_append, List.length_append, b.paired]; rfl })

def len (b : UdpSendBatch) : ℕ := b.packets.length
def isEmpty (b : UdpSendBatch) : Bool := b.packets.isEmpty
def isFull (b : UdpSendBatch) : Bool := b.packets.length ≥ maxBatchSize

def drain (b : UdpSendBatch) (n : ℕ) : UdpSendBatch :=
  { packets := b.packets.drop n
    addresses := b.addresses.drop n
    paired := by rw [List.length_drop, List.length_drop, b.paired] }

def messages (b : UdpSendBatch) : List (Bytes × SocketAddr) := b.packets.zip b.addresses

end UdpSendBatch

/-- `send_mmsg_sync` (`batch_socket.rs:192-300`): total bytes and packets sent; a socket that
would block counts as nothing sent. -/
def sendMmsgSync (kernel : Kernel) (msgs : List (Bytes × SocketAddr)) :
    Except ErrorKind (ℕ × ℕ) :=
  match kernel.sendmmsg msgs with
  | .sent msgLens => .ok (msgLens.sum, msgLens.length)
  | .failed .wouldBlock => .ok (0, 0)
  | .failed kind => .error kind

/-- `send` and `send_mmsg` (`batch_socket.rs:117-188`). -/
def UdpSendBatch.send (b : UdpSendBatch) (kernel : Kernel) :
    Except ErrorKind (ℕ × ℕ) × UdpSendBatch :=
  if b.isEmpty then (.ok (0, 0), b)
  else
    match sendMmsgSync kernel b.messages with
    | .error kind => (.error kind, b)
    | .ok result => (.ok result, if result.2 > 0 then b.drain result.2 else b)

structure Handed where
  packet : Bytes
  addr : SocketAddr
  msgLen : ℕ

def handed : List (Bytes × SocketAddr) → List ℕ → List Handed :=
  List.zipWith (fun msg msgLen => ⟨msg.1, msg.2, msgLen⟩)

/-- The datagrams a `send` hands to the kernel: as many of the first ones as it answers. -/
def UdpSendBatch.handedBy (b : UdpSendBatch) (kernel : Kernel) : List Handed :=
  if b.isEmpty then []
  else
    match kernel.sendmmsg b.messages with
    | .sent msgLens => handed b.messages msgLens
    | .failed _ => []

/-! ### One send -/

theorem drain_zero (b : UdpSendBatch) : b.drain 0 = b := rfl

theorem map_fst_messages (b : UdpSendBatch) : b.messages.map Prod.fst = b.packets :=
  List.map_fst_zip b.paired.le

theorem map_snd_messages (b : UdpSendBatch) : b.messages.map Prod.snd = b.addresses :=
  List.map_snd_zip b.paired.ge

theorem drain_of_sent (b : UdpSendBatch) (n : ℕ) :
    (if n > 0 then b.drain n else b) = b.drain n := by
  split
  · rfl
  · have hn : n = 0 := by omega
    rw [hn, drain_zero]

theorem handed_spec (msgs : List (Bytes × SocketAddr)) (msgLens : List ℕ)
    (h : msgLens.length ≤ msgs.length) :
    (handed msgs msgLens).map Handed.packet = (msgs.map Prod.fst).take msgLens.length ∧
    (handed msgs msgLens).map Handed.addr = (msgs.map Prod.snd).take msgLens.length ∧
    (handed msgs msgLens).map Handed.msgLen = msgLens := by
  induction msgLens generalizing msgs with
  | nil =>
    cases msgs <;> exact ⟨rfl, rfl, rfl⟩
  | cons len lens ih =>
    cases msgs with
    | nil => exact absurd h (Nat.not_succ_le_zero _)
    | cons msg msgs =>
      obtain ⟨hp, ha, hl⟩ := ih msgs (Nat.le_of_succ_le_succ h)
      exact ⟨congrArg (msg.1 :: ·) hp, congrArg (msg.2 :: ·) ha, congrArg (len :: ·) hl⟩

/-- Everything a successful `send` does: it hands over a prefix of the batch, keeps the rest, and
returns the total length and the number of what it handed over. -/
theorem send_ok {b b' : UdpSendBatch} {kernel : Kernel} {result : ℕ × ℕ}
    (h : b.send kernel = (.ok result, b')) :
    (b.handedBy kernel).map Handed.packet ++ b'.packets = b.packets ∧
    (b.handedBy kernel).map Handed.addr ++ b'.addresses = b.addresses ∧
    result.1 = ((b.handedBy kernel).map Handed.msgLen).sum ∧
    result.2 = (b.handedBy kernel).length := by
  unfold UdpSendBatch.send at h
  unfold UdpSendBatch.handedBy
  by_cases hempty : b.isEmpty = true
  · rw [if_pos hempty] at h ⊢
    cases h
    exact ⟨rfl, rfl, rfl, rfl⟩
  · rw [if_neg hempty] at h ⊢
    unfold sendMmsgSync at h
    cases hk : kernel.sendmmsg b.messages with
    | sent msgLens =>
      rw [hk] at h
      simp only [drain_of_sent] at h
      cases h
      obtain ⟨hp, ha, hl⟩ := handed_spec b.messages msgLens (kernel.bounded _ _ hk)
      rw [map_fst_messages] at hp
      rw [map_snd_messages] at ha
      refine ⟨?_, ?_, ?_, ?_⟩
      · rw [hp]
        exact List.take_append_drop ..
      · rw [ha]
        exact List.take_append_drop ..
      · rw [hl]
      · rw [← congrArg List.length hl, List.length_map]
    | failed kind =>
      rw [hk] at h
      cases kind with
      | wouldBlock =>
        cases h
        exact ⟨rfl, rfl, rfl, rfl⟩
      | unexpectedEof => exact nomatch (Prod.mk.inj h).1
      | other => exact nomatch (Prod.mk.inj h).1

theorem send_error {b b' : UdpSendBatch} {kernel : Kernel} {kind : ErrorKind}
    (h : b.send kernel = (.error kind, b')) : b' = b ∧ b.handedBy kernel = [] := by
  unfold UdpSendBatch.send at h
  unfold UdpSendBatch.handedBy
  by_cases hempty : b.isEmpty = true
  · rw [if_pos hempty] at h
    exact nomatch (Prod.mk.inj h).1
  · rw [if_neg hempty] at h ⊢
    unfold sendMmsgSync at h
    cases hk : kernel.sendmmsg b.messages with
    | sent msgLens =>
      rw [hk] at h
      exact nomatch (Prod.mk.inj h).1
    | failed kind =>
      rw [hk] at h
      cases kind with
      | wouldBlock => exact nomatch (Prod.mk.inj h).1
      | unexpectedEof => exact ⟨(Prod.mk.inj h).2.symm, rfl⟩
      | other => exact ⟨(Prod.mk.inj h).2.symm, rfl⟩

end Rperf3
