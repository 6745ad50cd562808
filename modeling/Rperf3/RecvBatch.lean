import Rperf3.BatchSocket
import Mathlib.Data.List.Chain
import Mathlib.Data.List.TakeDrop

/-!
# Batched receiving without `recvmmsg` (`batch_socket.rs:313-453`)

A batch has 64 buffers that are used again by every call. `recv` takes datagrams
from the socket one by one, each into the buffer of its slot, and cuts the buffer
to the length received; it never gives a buffer its length back, and a datagram
that is longer than its buffer loses its end.
-/

namespace Rperf3

abbrev Datagram := Bytes × SocketAddr

structure UdpRecvBatch where
  packets : Vector Bytes maxBatchSize
  addresses : Vector SocketAddr maxBatchSize
  count : ℕ
  count_le : count ≤ maxBatchSize

inductive RecvReply where
  | datagram (d : Datagram)
  | failed (kind : ErrorKind)

/-- The replies of the socket in one call: to the non-blocking attempts, by position, and to the
blocking one. -/
structure RecvCall where
  tries : ℕ → RecvReply
  blocking : RecvReply

/-- `Vec::truncate`. -/
def truncate (buffer : Bytes) (n : ℕ) : Bytes := buffer.take n

/-- A datagram in a buffer: what does not fit is discarded, and the rest of the buffer stays. -/
def receiveInto (buffer bytes : Bytes) : Bytes × ℕ :=
  (bytes.take buffer.length ++ buffer.drop bytes.length, min bytes.length buffer.length)

namespace UdpRecvBatch

def new : UdpRecvBatch where
  packets := Vector.replicate maxBatchSize (List.replicate 65536 0)
  addresses := Vector.replicate maxBatchSize (.v4 (Vector.replicate 4 0) 0)
  count := 0
  count_le := Nat.zero_le _

def len (b : UdpRecvBatch) : ℕ := b.count
def isEmpty (b : UdpRecvBatch) : Bool := b.count = 0

def get (b : UdpRecvBatch) (index : ℕ) : Option Datagram :=
  if h : index < b.count then
    have hslot : index < maxBatchSize := Nat.lt_of_lt_of_le h b.count_le
    some (b.packets[index], b.addresses[index])
  else none

def iter (b : UdpRecvBatch) : List Datagram :=
  (b.packets.toList.take b.count).zip (b.addresses.toList.take b.count)

/-- A datagram for the next slot: its buffer filled and truncated, its address, the count. -/
def push (b : UdpRecvBatch) (h : b.count < maxBatchSize) (d : Datagram) : UdpRecvBatch :=
  let filled := receiveInto b.packets[b.count] d.1
  { packets := b.packets.set b.count (truncate filled.1 filled.2)
    addresses := b.addresses.set b.count d.2
    count := b.count + 1
    count_le := h }

/-- The loop over the last `n` slots; its index is the count. -/
def tryRecv (tries : ℕ → RecvReply) :
    (n : ℕ) → (b : UdpRecvBatch) → b.count + n = maxBatchSize → Except ErrorKind Unit × UdpRecvBatch
  | 0, b, _ => (.ok (), b)
  | n + 1, b, h =>
    match tries b.count with
    | .datagram d => tryRecv tries n (b.push (by omega) d) ((Nat.succ_add_eq_add_succ ..).trans h)
    | .failed .wouldBlock => (.ok (), b)
    | .failed kind => (.error kind, b)

def cleared (b : UdpRecvBatch) : UdpRecvBatch := { b with count := 0, count_le := Nat.zero_le _ }

/-- `recv` on systems other than Linux. -/
def recv (b : UdpRecvBatch) (call : RecvCall) : Except ErrorKind ℕ × UdpRecvBatch :=
  match tryRecv call.tries maxBatchSize b.cleared (Nat.zero_add _) with
  | (.error kind, b) => (.error kind, b)
  | (.ok (), b) =>
    if h : b.count = 0 then
      match call.blocking with
      | .datagram d => (.ok 1, b.push (by rw [h]; decide) d)
      | .failed kind => (.error kind, b)
    else (.ok b.count, b)

end UdpRecvBatch

/-! ### What is received and what is shown -/

/-- The datagrams of the attempts from position `i` on, up to the first failure. -/
def leading (tries : ℕ → RecvReply) (i : ℕ) : ℕ → List Datagram
  | 0 => []
  | n + 1 =>
    match tries i with
    | .datagram d => d :: leading tries (i + 1) n
    | .failed _ => []

def RecvCall.received (call : RecvCall) : List Datagram :=
  match leading call.tries 0 maxBatchSize, call.blocking with
  | [], .datagram d => [d]
  | [], .failed _ => []
  | ds, _ => ds

namespace UdpRecvBatch

def ErrorFree (b : UdpRecvBatch) : List RecvCall → Prop
  | [] => True
  | call :: calls => (∃ n, (b.recv call).1 = .ok n) ∧ (b.recv call).2.ErrorFree calls

/-- After every call of the run, `get` shows the datagrams received in that call. -/
def ShowsReceived (b : UdpRecvBatch) : List RecvCall → Prop
  | [] => True
  | call :: calls =>
    (∀ index, (b.recv call).2.get index = call.received[index]?) ∧
      (b.recv call).2.ShowsReceived calls

end UdpRecvBatch

/-- The lengths of the datagrams that successive calls receive in one slot. -/
def slotLengths (slot : ℕ) (calls : List RecvCall) : List ℕ :=
  calls.filterMap (fun call => call.received[slot]?.map (fun d => d.1.length))

/-! ### One datagram -/

theorem truncate_receiveInto (buffer bytes : Bytes) :
    truncate (receiveInto buffer bytes).1 (receiveInto buffer bytes).2 =
      bytes.take buffer.length := by
  have hlength : (bytes.take buffer.length).length = min bytes.length buffer.length := by
    rw [List.length_take, min_comm]
  rw [truncate, receiveInto, List.take_left' hlength]

section Slots

variable {α δ : Type} {put : α → δ → α} {start : ℕ} {slots slots' : Vector α maxBatchSize}
  {d : δ} {ds : List δ}

/-- The slots of a vector after some messages were put into those from `start` on. -/
def FilledFrom (put : α → δ → α) (start : ℕ) (slots : Vector α maxBatchSize) (ds : List δ)
    (slots' : Vector α maxBatchSize) : Prop :=
  ∀ i (h : i < maxBatchSize), slots'[i] =
    if i < start then slots[i] else (ds[i - start]?).elim slots[i] (put slots[i])

theorem FilledFrom.nil : FilledFrom put start slots [] slots := fun i h => by split <;> rfl

theorem FilledFrom.cons (hstart : start < maxBatchSize)
    (h : FilledFrom put (start + 1) (slots.set start (put slots[start] d)) ds slots') :
    FilledFrom put start slots (d :: ds) slots' := by
  intro i hi
  rw [h i hi, Vector.getElem_set]
  rcases Nat.lt_trichotomy i start with hlt | rfl | hgt
  · rw [if_pos (Nat.lt_succ_of_lt hlt), if_neg hlt.ne', if_pos hlt]
  · rw [if_pos (Nat.lt_succ_self i), if_pos rfl, if_neg (Nat.lt_irrefl i), Nat.sub_self]
    rfl
  · have hindex : i - start = i - (start + 1) + 1 := by omega
    rw [if_neg (by omega), if_neg hgt.ne, if_neg (Nat.lt_asymm hgt), hindex,
      List.getElem?_cons_succ]

theorem FilledFrom.apply (h : FilledFrom put 0 slots ds slots') {i : ℕ} (hi : i < maxBatchSize) :
    slots'[i] = (ds[i]?).elim slots[i] (put slots[i]) :=
  (h i hi).trans (if_neg (Nat.not_lt_zero i))

end Slots

/-- The batch after some datagrams were pushed: each is cut to the length of its buffer. -/
structure Filled (b : UdpRecvBatch) (ds : List Datagram) (b' : UdpRecvBatch) : Prop where
  count : b'.count = b.count + ds.length
  packets : FilledFrom (fun buffer d => d.1.take buffer.length) b.count b.packets ds b'.packets
  addresses : FilledFrom (fun _ d => d.2) b.count b.addresses ds b'.addresses

namespace Filled

variable {b b' : UdpRecvBatch} {ds : List Datagram}

theorem refl (b : UdpRecvBatch) : Filled b [] b where
  count := rfl
  packets := FilledFrom.nil
  addresses := FilledFrom.nil

theorem push {d : Datagram} {h : b.count < maxBatchSize} (hf : Filled (b.push h d) ds b') :
    Filled b (d :: ds) b' where
  count := hf.count.trans (Nat.succ_add_eq_add_succ ..)
  packets := by
    refine FilledFrom.cons h ?_
    rw [← truncate_receiveInto]
    exact hf.packets
  addresses := FilledFrom.cons h hf.addresses

end Filled

/-! ### One call -/

variable {tries : ℕ → RecvReply}

theorem length_leading_le (tries : ℕ → RecvReply) (i n : ℕ) : (leading tries i n).length ≤ n := by
  induction n generalizing i with
  | zero => exact le_rfl
  | succ n ih =>
    rw [leading]
    cases tries i with
    | datagram d => exact Nat.succ_le_succ (ih (i + 1))
    | failed kind => exact Nat.zero_le _

theorem tryRecv_filled {n : ℕ} {b b' : UdpRecvBatch} {h : b.count + n = maxBatchSize}
    (hrun : UdpRecvBatch.tryRecv tries n b h = (.ok (), b')) :
    Filled b (leading tries b.count n) b' := by
  induction n generalizing b with
  | zero =>
    obtain rfl := (Prod.mk.inj hrun).2
    exact Filled.refl b
  | succ n ih =>
    rw [UdpRecvBatch.tryRecv] at hrun
    rw [leading]
    cases hreply : tries b.count with
    | datagram d =>
      rw [hreply] at hrun
      exact (ih hrun).push
    | failed kind =>
      rw [hreply] at hrun
      cases kind with
      | wouldBlock =>
        obtain rfl := (Prod.mk.inj hrun).2
        exact Filled.refl b
      | unexpectedEof => exact nomatch (Prod.mk.inj hrun).1
      | other => exact nomatch (Prod.mk.inj hrun).1

theorem tryRecv_of_leading_nil {n : ℕ} {b b' : UdpRecvBatch} {h : b.count + n = maxBatchSize}
    (hrun : UdpRecvBatch.tryRecv tries n b h = (.ok (), b'))
    (hnone : leading tries b.count n = []) : b' = b := by
  cases n with
  | zero => exact (Prod.mk.inj hrun).2.symm
  | succ n =>
    rw [UdpRecvBatch.tryRecv] at hrun
    rw [leading] at hnone
    cases hreply : tries b.count with
    | datagram d =>
      rw [hreply] at hnone
      exact nomatch hnone
    | failed kind =>
      rw [hreply] at hrun
      cases kind with
      | wouldBlock => exact (Prod.mk.inj hrun).2.symm
      | unexpectedEof => exact nomatch (Prod.mk.inj hrun).1
      | other => exact nomatch (Prod.mk.inj hrun).1

namespace UdpRecvBatch

variable {b : UdpRecvBatch} {call : RecvCall}

theorem recv_filled {n : ℕ} (h : (b.recv call).1 = .ok n) :
    Filled b.cleared call.received (b.recv call).2 ∧ call.received.length ≤ maxBatchSize := by
  unfold recv at h ⊢
  cases htry : tryRecv call.tries maxBatchSize b.cleared (Nat.zero_add _) with
  | mk result b' =>
    cases result with
    | error kind =>
      rw [htry] at h
      exact nomatch h
    | ok u =>
      have hfilled := tryRecv_filled htry
      have hle := length_leading_le call.tries 0 maxBatchSize
      rw [htry] at h
      simp only at h ⊢
      rw [RecvCall.received]
      change Filled b.cleared (leading call.tries 0 maxBatchSize) b' at hfilled
      cases hleading : leading call.tries 0 maxBatchSize with
      | nil =>
        obtain rfl := tryRecv_of_leading_nil htry hleading
        have hzero : b.cleared.count = 0 := rfl
        rw [dif_pos hzero] at h ⊢
        cases hblocking : call.blocking with
        | datagram d => exact ⟨(Filled.refl _).push, (by decide : 1 ≤ maxBatchSize)⟩
        | failed kind =>
          rw [hblocking] at h
          exact nomatch h
      | cons d ds =>
        rw [hleading] at hfilled hle
        have hcount : b'.count ≠ 0 := by
          rw [hfilled.count, List.length_cons]
          omega
        rw [dif_neg hcount] at h ⊢
        exact ⟨hfilled, hle⟩

theorem get_of_lt {i : ℕ} (h : i < b.count) (hi : i < maxBatchSize) :
    b.get i = some (b.packets[i], b.addresses[i]) :=
  dif_pos h

theorem get_of_ge {i : ℕ} (h : b.count ≤ i) : b.get i = none := dif_neg h.not_gt

section Received

variable {n i : ℕ} {d : Datagram}

theorem recv_count (h : (b.recv call).1 = .ok n) :
    (b.recv call).2.count = call.received.length :=
  (recv_filled h).1.count.trans (Nat.zero_add _)

theorem recv_packet_none (h : (b.recv call).1 = .ok n) (hi : i < maxBatchSize)
    (hnone : call.received[i]? = none) : (b.recv call).2.packets[i] = b.packets[i] := by
  have hslot := FilledFrom.apply (recv_filled h).1.packets hi
  rw [hnone] at hslot
  exact hslot

theorem recv_packet_some (h : (b.recv call).1 = .ok n) (hi : i < maxBatchSize)
    (hsome : call.received[i]? = some d) :
    (b.recv call).2.packets[i] = d.1.take b.packets[i].length := by
  have hslot := FilledFrom.apply (recv_filled h).1.packets hi
  rw [hsome] at hslot
  exact hslot

theorem recv_address_some (h : (b.recv call).1 = .ok n) (hi : i < maxBatchSize)
    (hsome : call.received[i]? = some d) : (b.recv call).2.addresses[i] = d.2 := by
  have hslot := FilledFrom.apply (recv_filled h).1.addresses hi
  rw [hsome] at hslot
  exact hslot

theorem lt_of_received (h : (b.recv call).1 = .ok n) (hsome : call.received[i]? = some d) :
    i < call.received.length ∧ i < maxBatchSize := by
  obtain ⟨hlt, -⟩ := List.getElem?_eq_some_iff.mp hsome
  exact ⟨hlt, hlt.trans_le (recv_filled h).2⟩

theorem get_recv (h : (b.recv call).1 = .ok n) (hi : i < maxBatchSize)
    (hsome : call.received[i]? = some d) :
    (b.recv call).2.get i = some (d.1.take b.packets[i].length, d.2) := by
  have hlt := (lt_of_received h hsome).1
  rw [← recv_count h] at hlt
  rw [get_of_lt hlt hi, recv_packet_some h hi hsome, recv_address_some h hi hsome]

theorem recv_shows_iff (h : (b.recv call).1 = .ok n) :
    (∀ i, (b.recv call).2.get i = call.received[i]?) ↔
      ∀ i (hi : i < maxBatchSize) (d : Datagram), call.received[i]? = some d →
        d.1.length ≤ b.packets[i].length := by
  constructor
  · intro hshows i hi d hsome
    have hget := (hshows i).symm.trans (get_recv h hi hsome)
    rw [hsome] at hget
    have hbytes := (Prod.mk.inj (Option.some.inj hget)).1
    exact (List.take_eq_self_iff _).mp hbytes.symm
  · intro hfits i
    cases hreceived : call.received[i]? with
    | none =>
      refine get_of_ge ?_
      rw [recv_count h]
      exact List.getElem?_eq_none_iff.mp hreceived
    | some d =>
      have hi := (lt_of_received h hreceived).2
      rw [get_recv h hi hreceived, List.take_of_length_le (hfits i hi d hreceived)]

end Received

/-! ### A run of calls -/

theorem slotLengths_cons (slot : ℕ) (call : RecvCall) (calls : List RecvCall) :
    slotLengths slot (call :: calls) =
      (call.received[slot]?).elim (slotLengths slot calls)
        (fun d => d.1.length :: slotLengths slot calls) := by
  unfold slotLengths
  cases hreceived : call.received[slot]? with
  | none => rw [List.filterMap_cons_none (by rw [hreceived]; rfl)]; rfl
  | some d => rw [List.filterMap_cons_some (by rw [hreceived]; rfl)]; rfl

theorem slotLengths_of_ge {slot : ℕ} {calls : List RecvCall} (h : b.ErrorFree calls)
    (hslot : maxBatchSize ≤ slot) : slotLengths slot calls = [] := by
  induction calls generalizing b with
  | nil => rfl
  | cons call calls ih =>
    obtain ⟨⟨n, hok⟩, hrest⟩ := h
    have hnone : call.received[slot]? = none :=
      List.getElem?_eq_none_iff.mpr ((recv_filled hok).2.trans hslot)
    rw [slotLengths_cons, hnone, Option.elim_none, ih hrest]

/-- A run shows what it receives if in every slot the lengths start within the buffer and never
grow. -/
theorem showsReceived_iff_isChain {calls : List RecvCall} (h : b.ErrorFree calls) :
    b.ShowsReceived calls ↔ ∀ i (hi : i < maxBatchSize),
      (b.packets[i].length :: slotLengths i calls).IsChain (· ≥ ·) := by
  induction calls generalizing b with
  | nil => exact iff_of_true trivial (fun i hi => List.isChain_singleton _)
  | cons call calls ih =>
    obtain ⟨⟨n, hok⟩, hrest⟩ := h
    rw [ShowsReceived, recv_shows_iff hok, ih hrest]
    constructor
    · rintro ⟨hfits, hchain⟩ i hi
      have hnext := hchain i hi
      rw [slotLengths_cons]
      cases hreceived : call.received[i]? with
      | none =>
        rw [recv_packet_none hok hi hreceived] at hnext
        exact hnext
      | some d =>
        have hfit := hfits i hi d hreceived
        rw [recv_packet_some hok hi hreceived, List.take_of_length_le hfit] at hnext
        exact List.isChain_cons_cons.mpr ⟨hfit, hnext⟩
    · intro hchain
      have hfits : ∀ i (hi : i < maxBatchSize) (d : Datagram), call.received[i]? = some d →
          d.1.length ≤ b.packets[i].length := by
        intro i hi d hreceived
        have hslot := hchain i hi
        rw [slotLengths_cons, hreceived] at hslot
        exact (List.isChain_cons_cons.mp hslot).1
      refine ⟨hfits, fun i hi => ?_⟩
      have hslot := hchain i hi
      rw [slotLengths_cons] at hslot
      cases hreceived : call.received[i]? with
      | none =>
        rw [hreceived] at hslot
        rw [recv_packet_none hok hi hreceived]
        exact hslot
      | some d =>
        rw [hreceived] at hslot
        rw [recv_packet_some hok hi hreceived, List.take_of_length_le (hfits i hi d hreceived)]
        exact (List.isChain_cons_cons.mp hslot).2

end UdpRecvBatch

/-- The datagrams that successive calls receive in one slot never get longer. -/
def NeverLonger (slot : ℕ) (calls : List RecvCall) : Prop :=
  (slotLengths slot calls).IsChain (· ≥ ·)

def Sized (calls : List RecvCall) : Prop :=
  ∀ call ∈ calls, ∀ d ∈ call.received, d.1.length ≤ 65535

theorem slotLengths_le {slot : ℕ} {calls : List RecvCall} (h : Sized calls) :
    ∀ n ∈ slotLengths slot calls, n ≤ 65535 := by
  intro n hn
  obtain ⟨call, hcall, hlength⟩ := List.mem_filterMap.mp hn
  obtain ⟨d, hd, rfl⟩ := Option.map_eq_some_iff.mp hlength
  exact h call hcall d (List.mem_of_getElem? hd)

theorem length_new_packet {i : ℕ} (h : i < maxBatchSize) :
    UdpRecvBatch.new.packets[i].length = 65536 := by
  simp only [UdpRecvBatch.new, Vector.getElem_replicate, List.length_replicate]

/-- The runs of error-free calls on a new batch after each of which `get` shows exactly the
datagrams received in the call. -/
theorem recv_showsReceived_iff {calls : List RecvCall} (hfree : UdpRecvBatch.new.ErrorFree calls)
    (hsized : Sized calls) :
    UdpRecvBatch.new.ShowsReceived calls ↔ ∀ slot, NeverLonger slot calls := by
  rw [UdpRecvBatch.showsReceived_iff_isChain hfree]
  constructor
  · intro hchain slot
    by_cases hslot : slot < maxBatchSize
    · exact (hchain slot hslot).tail
    · rw [NeverLonger, UdpRecvBatch.slotLengths_of_ge hfree (Nat.le_of_not_lt hslot)]
      exact List.isChain_nil
  · intro hnever slot hslot
    rw [length_new_packet hslot]
    refine List.isChain_cons.mpr ⟨fun n hn => ?_, hnever slot⟩
    have hle := slotLengths_le hsized n (List.mem_of_mem_head? hn)
    omega

def oneWaiting (bytes : Bytes) : RecvCall where
  tries
    | 0 => .datagram (bytes, .v4 (Vector.replicate 4 127) 5201)
    | _ => .failed .wouldBlock
  blocking := .failed .wouldBlock

theorem errorFree_oneWaiting (b : UdpRecvBatch) (waiting : List Bytes) :
    b.ErrorFree (waiting.map oneWaiting) := by
  induction waiting generalizing b with
  | nil => trivial
  | cons bytes waiting ih => exact ⟨⟨1, rfl⟩, ih _⟩

theorem sized_oneWaiting {waiting : List Bytes} (h : ∀ bytes ∈ waiting, bytes.length ≤ 65535) :
    Sized (waiting.map oneWaiting) := by
  intro call hcall d hd
  obtain ⟨bytes, hbytes, rfl⟩ := List.mem_map.mp hcall
  obtain rfl := List.mem_singleton.mp hd
  exact h bytes hbytes

theorem recv_showsReceived_shorter :
    UdpRecvBatch.new.ShowsReceived ([[1, 2], [3]].map oneWaiting) := by
  refine (recv_showsReceived_iff (errorFree_oneWaiting _ _) (sized_oneWaiting (by decide))).mpr ?_
  intro slot
  cases slot with
  | zero => exact (by decide : [2, 1].IsChain (· ≥ ·))
  | succ slot => exact List.isChain_nil

theorem recv_showsReceived_longer : ¬ ∀ calls : List RecvCall,
    UdpRecvBatch.new.ErrorFree calls → Sized calls → UdpRecvBatch.new.ShowsReceived calls := by
  intro h
  have hfree := errorFree_oneWaiting UdpRecvBatch.new [[1], [2, 3]]
  have hshows := h _ hfree (sized_oneWaiting (by decide))
  have hchain := (UdpRecvBatch.showsReceived_iff_isChain hfree).mp hshows 0 (by decide)
  exact absurd hchain.tail (by decide : ¬ [1, 2].IsChain (· ≥ ·))

end Rperf3
