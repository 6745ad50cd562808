import Rperf3.RecvBatch
import Rperf3.SockAddr

/-!
# Batched receiving on Linux (`batch_socket.rs:393-425`, `490-566`)

`recv_mmsg` first gives all 64 buffers their full length, then asks the kernel
for messages, a second time if there are none yet. A failed call returns after
the buffers were changed, and leaves the count as it was.
-/

namespace Rperf3

/-- A message in the kernel: its bytes, and the memory of its source address. -/
structure MmsgIn where
  payload : Bytes
  storage : Bytes

/-- The return of `recvmmsg`: the messages received, as many as there are buffers at most, or
`errno`. -/
inductive RecvmmsgReply where
  | received (msgs : List MmsgIn) (h : msgs.length ≤ maxBatchSize)
  | failed (kind : ErrorKind)

/-- What a call finds: the reply to the first `recvmmsg`, an error of `readable`, and the reply to
the second one. -/
structure MmsgCall where
  first : RecvmmsgReply
  readable : Option ErrorKind
  second : RecvmmsgReply

/-- `Vec::resize` with zeros. -/
def resize (buffer : Bytes) (n : ℕ) : Bytes :=
  buffer.take n ++ List.replicate (n - buffer.length) 0

namespace UdpRecvBatch

def resized (b : UdpRecvBatch) : UdpRecvBatch :=
  { b with packets := b.packets.map (fun buffer => resize buffer 65536) }

/-- The buffers as the kernel leaves them. -/
def filled (b : UdpRecvBatch) (msgs : List MmsgIn) : UdpRecvBatch :=
  { b with
    packets := b.packets.mapIdx (fun i buffer =>
      (msgs[i]?).elim buffer (fun msg => (receiveInto buffer msg.payload).1)) }

/-- The loop that truncates the buffers to `msg_len` and reads the addresses. A buffer still has
the length that was given to the kernel. -/
def extract : (msgs : List MmsgIn) → (i : ℕ) → (b : UdpRecvBatch) →
    i + msgs.length ≤ maxBatchSize → Except ErrorKind Unit × UdpRecvBatch
  | [], _, b, _ => (.ok (), b)
  | msg :: msgs, i, b, h =>
    have hi : i < maxBatchSize := Nat.lt_of_lt_of_le (Nat.lt_add_of_pos_right (Nat.succ_pos _)) h
    let msgLen := min msg.payload.length b.packets[i].length
    let packets := b.packets.set i (truncate b.packets[i] msgLen)
    match sockaddrToSocketaddr msg.storage with
    | .error kind => (.error kind, { b with packets := packets })
    | .ok addr =>
      extract msgs (i + 1) { b with packets := packets, addresses := b.addresses.set i addr }
        ((Nat.succ_add_eq_add_succ ..).trans_le h)

def recvMmsgSync (b : UdpRecvBatch) : RecvmmsgReply → Except ErrorKind { n // n ≤ maxBatchSize } ×
    UdpRecvBatch
  | .failed kind => (.error kind, b)
  | .received msgs h =>
    match extract msgs 0 (b.filled msgs) ((Nat.zero_add _).trans_le h) with
    | (.error kind, b) => (.error kind, b)
    | (.ok (), b) => (.ok ⟨msgs.length, h⟩, b)

/-- The wait for the socket to be readable, and the second attempt. -/
def recvReadable (b : UdpRecvBatch) (call : MmsgCall) : Except ErrorKind ℕ × UdpRecvBatch :=
  match call.readable with
  | some kind => (.error kind, b)
  | none =>
    match b.recvMmsgSync call.second with
    | (.error kind, b) => (.error kind, b)
    | (.ok count, b) => (.ok count, { b with count := count.1, count_le := count.2 })

def recvMmsg (b : UdpRecvBatch) (call : MmsgCall) : Except ErrorKind ℕ × UdpRecvBatch :=
  match b.resized.recvMmsgSync call.first with
  | (.ok count, b) =>
    if count.1 > 0 then (.ok count, { b with count := count.1, count_le := count.2 })
    else b.recvReadable call
  | (.error .wouldBlock, b) => b.recvReadable call
  | (.error kind, b) => (.error kind, b)

/-- The batch after a run of successful calls. -/
def recvAll (b : UdpRecvBatch) : List MmsgCall → Option UdpRecvBatch
  | [] => some b
  | call :: calls =>
    match b.recvMmsg call with
    | (.ok _, b) => b.recvAll calls
    | (.error _, _) => none

/-- `len`, `get` and `iter` show no packets, or what they showed before. -/
def Consistent (b b' : UdpRecvBatch) : Prop :=
  (b'.len = 0 ∧ (∀ i, b'.get i = none) ∧ b'.iter = []) ∨
    (b'.len = b.len ∧ (∀ i, b'.get i = b.get i) ∧ b'.iter = b.iter)

end UdpRecvBatch

namespace RecvmmsgReply

/-- No message, but no failure that ends the call either. -/
def Waits : RecvmmsgReply → Prop
  | .received msgs _ => msgs = []
  | .failed kind => kind = .wouldBlock

def messages : RecvmmsgReply → List MmsgIn
  | .received msgs _ => msgs
  | .failed _ => []

end RecvmmsgReply

namespace MmsgCall

def RecvmmsgFails (call : MmsgCall) : Prop :=
  (∃ kind, call.first = .failed kind ∧ kind ≠ .wouldBlock) ∨
    (call.first.Waits ∧ call.readable = none ∧ ∃ kind, call.second = .failed kind)

def received (call : MmsgCall) : List MmsgIn :=
  match call.first.messages with
  | [] => call.second.messages
  | msgs => msgs

end MmsgCall

def lastReceived (calls : List MmsgCall) : List MmsgIn :=
  (calls.getLast?).elim [] MmsgCall.received

/-! ### What is shown -/

namespace UdpRecvBatch

variable {b b' : UdpRecvBatch}

theorem length_iter (b : UdpRecvBatch) : b.iter.length = b.count := by
  rw [iter, List.length_zip, List.length_take, List.length_take, Vector.length_toList,
    Vector.length_toList, min_self, min_eq_left b.count_le]

theorem getElem?_iter {i : ℕ} (h : i < b.count) (hi : i < maxBatchSize) :
    b.iter[i]? = some (b.packets[i], b.addresses[i]) := by
  refine List.getElem?_zip_eq_some.mpr ⟨?_, ?_⟩
  · rw [List.getElem?_take_of_lt h, Vector.getElem?_toList, Vector.getElem?_eq_getElem hi]
  · rw [List.getElem?_take_of_lt h, Vector.getElem?_toList, Vector.getElem?_eq_getElem hi]

theorem get_eq_iter (b : UdpRecvBatch) (i : ℕ) : b.get i = b.iter[i]? := by
  by_cases h : i < b.count
  · have hi := h.trans_le b.count_le
    rw [get_of_lt h hi, getElem?_iter h hi]
  · rw [get_of_ge (Nat.le_of_not_lt h), List.getElem?_eq_none_iff.mpr]
    rw [length_iter]
    exact Nat.le_of_not_lt h

theorem consistent_iff : Consistent b b' ↔ b'.iter = [] ∨ b'.iter = b.iter := by
  constructor
  · rintro (⟨-, -, hnone⟩ | ⟨-, -, hsame⟩)
    · exact .inl hnone
    · exact .inr hsame
  · rintro (hnone | hsame)
    · refine .inl ⟨?_, fun i => ?_, hnone⟩
      · rw [len, ← length_iter, hnone, List.length_nil]
      · rw [get_eq_iter, hnone, List.getElem?_nil]
    · refine .inr ⟨?_, fun i => ?_, hsame⟩
      · rw [len, len, ← length_iter, ← length_iter, hsame]
      · rw [get_eq_iter, get_eq_iter, hsame]

/-! ### A successful call -/

def readAddress (old : SocketAddr) (msg : MmsgIn) : SocketAddr :=
  match sockaddrToSocketaddr msg.storage with
  | .ok addr => addr
  | .error _ => old

theorem readAddress_ok {old addr : SocketAddr} {msg : MmsgIn}
    (h : sockaddrToSocketaddr msg.storage = .ok addr) : readAddress old msg = addr := by
  rw [readAddress, h]

def truncateTo (buffer : Bytes) (msg : MmsgIn) : Bytes :=
  truncate buffer (min msg.payload.length buffer.length)

theorem extract_ok {msgs : List MmsgIn} {i : ℕ} {h : i + msgs.length ≤ maxBatchSize}
    (hrun : extract msgs i b h = (.ok (), b')) :
    FilledFrom truncateTo i b.packets msgs b'.packets ∧
      FilledFrom readAddress i b.addresses msgs b'.addresses ∧
      ∀ msg ∈ msgs, ∃ addr, sockaddrToSocketaddr msg.storage = .ok addr := by
  induction msgs generalizing i b with
  | nil =>
    obtain rfl := (Prod.mk.inj hrun).2
    exact ⟨FilledFrom.nil, FilledFrom.nil, fun msg hmsg => absurd hmsg List.not_mem_nil⟩
  | cons msg msgs ih =>
    have hi : i < maxBatchSize := Nat.lt_of_lt_of_le (Nat.lt_add_of_pos_right (Nat.succ_pos _)) h
    rw [extract] at hrun
    cases haddr : sockaddrToSocketaddr msg.storage with
    | error kind =>
      simp only [haddr] at hrun
      exact nomatch (Prod.mk.inj hrun).1
    | ok addr =>
      simp only [haddr] at hrun
      obtain ⟨hpackets, haddresses, hdecoded⟩ := ih hrun
      refine ⟨FilledFrom.cons hi hpackets, FilledFrom.cons hi ?_, ?_⟩
      · rw [readAddress_ok haddr]
        exact haddresses
      · exact List.forall_mem_cons.mpr ⟨⟨addr, haddr⟩, hdecoded⟩

theorem length_receiveInto (buffer bytes : Bytes) :
    (receiveInto buffer bytes).1.length = buffer.length := by
  simp only [receiveInto, List.length_append, List.length_take, List.length_drop]
  omega

theorem truncateTo_receiveInto (buffer : Bytes) (msg : MmsgIn) :
    truncateTo (receiveInto buffer msg.payload).1 msg = msg.payload.take buffer.length := by
  rw [truncateTo, length_receiveInto]
  exact truncate_receiveInto buffer msg.payload

theorem filled_packet {msgs : List MmsgIn} {i : ℕ} (hi : i < maxBatchSize) :
    (b.filled msgs).packets[i] =
      (msgs[i]?).elim b.packets[i] (fun msg => (receiveInto b.packets[i] msg.payload).1) :=
  Vector.getElem_mapIdx ..

theorem length_resize (buffer : Bytes) (n : ℕ) : (resize buffer n).length = n := by
  simp only [resize, List.length_append, List.length_take, List.length_replicate]
  omega

theorem length_resized {i : ℕ} (hi : i < maxBatchSize) :
    b.resized.packets[i].length = 65536 := by
  simp only [resized, Vector.getElem_map, length_resize]

/-- The batch shows messages: their bytes up to the length of a buffer, and their addresses. -/
structure Shows (b : UdpRecvBatch) (msgs : List MmsgIn) : Prop where
  count : b.count = msgs.length
  get : ∀ i msg, msgs[i]? = some msg → ∃ addr, sockaddrToSocketaddr msg.storage = .ok addr ∧
    b.get i = some (msg.payload.take 65536, addr)

theorem recvMmsgSync_shows {reply : RecvmmsgReply} {count : { n // n ≤ maxBatchSize }}
    (hlength : ∀ i (hi : i < maxBatchSize), b.packets[i].length = 65536)
    (hrun : b.recvMmsgSync reply = (.ok count, b')) :
    count.1 = reply.messages.length ∧
      Shows { b' with count := count.1, count_le := count.2 } reply.messages := by
  cases reply with
  | failed kind => exact nomatch (Prod.mk.inj hrun).1
  | received msgs h =>
    rw [recvMmsgSync] at hrun
    cases hextract : extract msgs 0 (b.filled msgs) ((Nat.zero_add _).trans_le h) with
    | mk result b₁ =>
      cases result with
      | error kind =>
        rw [hextract] at hrun
        exact nomatch (Prod.mk.inj hrun).1
      | ok u =>
        rw [hextract] at hrun
        obtain ⟨hcount, rfl⟩ := Prod.mk.inj hrun
        obtain rfl := Except.ok.inj hcount
        obtain ⟨hpackets, haddresses, hdecoded⟩ := extract_ok hextract
        refine ⟨rfl, rfl, fun i msg hmsg => ?_⟩
        change msgs[i]? = some msg at hmsg
        obtain ⟨hlt, hget⟩ := List.getElem?_eq_some_iff.mp hmsg
        have hi : i < maxBatchSize := hlt.trans_le h
        obtain ⟨addr, haddr⟩ := hdecoded msg (List.mem_of_getElem? hmsg)
        have hpacket := hpackets.apply hi
        rw [hmsg, filled_packet hi, hmsg, Option.elim_some, Option.elim_some,
          truncateTo_receiveInto, hlength i hi] at hpacket
        have haddress := haddresses.apply hi
        rw [hmsg, Option.elim_some, readAddress_ok haddr] at haddress
        refine ⟨addr, haddr, ?_⟩
        rw [← hpacket, ← haddress]
        exact get_of_lt hlt hi

theorem filled_nil (b : UdpRecvBatch) : b.filled [] = b := by
  have hpackets : b.packets.mapIdx (fun i buffer =>
      (([] : List MmsgIn)[i]?).elim buffer (fun msg => (receiveInto buffer msg.payload).1)) =
        b.packets := by
    ext i hi
    rw [Vector.getElem_mapIdx]
    rfl
  rw [filled, hpackets]

theorem recvMmsgSync_waits {reply : RecvmmsgReply} (h : reply.Waits) :
    b.recvMmsgSync reply = (.ok ⟨0, Nat.zero_le _⟩, b) ∨
      b.recvMmsgSync reply = (.error .wouldBlock, b) := by
  cases reply with
  | received msgs hle =>
    obtain rfl : msgs = [] := h
    refine .inl ?_
    rw [recvMmsgSync, filled_nil]
    rfl
  | failed kind =>
    obtain rfl : kind = .wouldBlock := h
    exact .inr rfl

theorem sockaddrToSocketaddr_error {storage : Bytes} {kind : ErrorKind}
    (h : sockaddrToSocketaddr storage = .error kind) : kind = .other := by
  unfold sockaddrToSocketaddr at h
  split at h
  · exact nomatch h
  · split at h
    · exact nomatch h
    · exact (Except.error.inj h).symm

theorem extract_error {msgs : List MmsgIn} {i : ℕ} {h : i + msgs.length ≤ maxBatchSize}
    {kind : ErrorKind} (hrun : extract msgs i b h = (.error kind, b')) : kind = .other := by
  induction msgs generalizing i b with
  | nil => exact nomatch (Prod.mk.inj hrun).1
  | cons msg msgs ih =>
    rw [extract] at hrun
    cases haddr : sockaddrToSocketaddr msg.storage with
    | error kind' =>
      simp only [haddr] at hrun
      obtain rfl := Except.error.inj (Prod.mk.inj hrun).1
      exact sockaddrToSocketaddr_error haddr
    | ok addr =>
      simp only [haddr] at hrun
      exact ih hrun

/-- Only the kernel lets a call wait: an address that cannot be read is another error. -/
theorem waits_of_wouldBlock {reply : RecvmmsgReply}
    (h : b.recvMmsgSync reply = (.error .wouldBlock, b')) : reply.Waits := by
  cases reply with
  | received msgs hle =>
    rw [recvMmsgSync] at h
    cases hextract : extract msgs 0 (b.filled msgs) ((Nat.zero_add _).trans_le hle) with
    | mk result b₁ =>
      rw [hextract] at h
      cases result with
      | error kind =>
        have hkind := Except.error.inj (Prod.mk.inj h).1
        exact nomatch hkind.symm.trans (extract_error hextract)
      | ok u => exact nomatch (Prod.mk.inj h).1
  | failed kind => exact Except.error.inj (Prod.mk.inj h).1

theorem waits_of_empty {reply : RecvmmsgReply} {count : { n // n ≤ maxBatchSize }}
    (h : b.recvMmsgSync reply = (.ok count, b')) (hempty : reply.messages = []) :
    reply.Waits := by
  cases reply with
  | received msgs hle => exact hempty
  | failed kind => exact nomatch (Prod.mk.inj h).1

theorem received_of_waits {call : MmsgCall} (h : call.first.Waits) :
    call.received = call.second.messages := by
  have hempty : call.first.messages = [] := by
    cases hfirst : call.first with
    | received msgs hle =>
      rw [hfirst] at h
      exact h
    | failed kind => rfl
  rw [MmsgCall.received, hempty]

theorem recvMmsg_waits {call : MmsgCall} (h : call.first.Waits) :
    b.recvMmsg call = b.resized.recvReadable call := by
  unfold recvMmsg
  rcases recvMmsgSync_waits (b := b.resized) h with hsync | hsync
  · rw [hsync]
    rfl
  · rw [hsync]

theorem recvReadable_shows {call : MmsgCall} {n : ℕ}
    (hlength : ∀ i (hi : i < maxBatchSize), b.packets[i].length = 65536)
    (hrun : b.recvReadable call = (.ok n, b')) : Shows b' call.second.messages := by
  unfold recvReadable at hrun
  cases hreadable : call.readable with
  | some kind =>
    rw [hreadable] at hrun
    exact nomatch (Prod.mk.inj hrun).1
  | none =>
    rw [hreadable] at hrun
    cases hsync : b.recvMmsgSync call.second with
    | mk result b₁ =>
      rw [hsync] at hrun
      cases result with
      | error kind => exact nomatch (Prod.mk.inj hrun).1
      | ok count =>
        obtain rfl := (Prod.mk.inj hrun).2
        exact (recvMmsgSync_shows hlength hsync).2

/-- A call that returns without an error shows what the kernel had, whatever the buffers held. -/
theorem recvMmsg_shows {call : MmsgCall} {n : ℕ} (hrun : b.recvMmsg call = (.ok n, b')) :
    Shows b' call.received := by
  by_cases hwaits : call.first.Waits
  · rw [recvMmsg_waits hwaits] at hrun
    rw [received_of_waits hwaits]
    exact recvReadable_shows (fun i hi => length_resized hi) hrun
  · unfold recvMmsg at hrun
    cases hsync : b.resized.recvMmsgSync call.first with
    | mk result b₁ =>
      rw [hsync] at hrun
      cases result with
      | error kind =>
        cases kind with
        | wouldBlock => exact absurd (waits_of_wouldBlock hsync) hwaits
        | unexpectedEof => exact nomatch (Prod.mk.inj hrun).1
        | other => exact nomatch (Prod.mk.inj hrun).1
      | ok count =>
        obtain ⟨hcount, hshows⟩ := recvMmsgSync_shows (fun i hi => length_resized hi) hsync
        cases hmessages : call.first.messages with
        | nil => exact absurd (waits_of_empty hsync hmessages) hwaits
        | cons msg msgs =>
          have hpos : count.1 > 0 := by
            rw [hcount, hmessages]
            exact Nat.succ_pos _
          simp only [if_pos hpos] at hrun
          obtain rfl := (Prod.mk.inj hrun).2
          rw [hmessages] at hshows
          rw [MmsgCall.received, hmessages]
          exact hshows

/-! ### A failed call -/

/-- A call whose `recvmmsg` fails has changed the buffers and nothing else. -/
theorem recvMmsg_fails {call : MmsgCall} (h : call.RecvmmsgFails) :
    ∃ kind, b.recvMmsg call = (.error kind, b.resized) := by
  rcases h with ⟨kind, hfirst, hkind⟩ | ⟨hwaits, hreadable, kind, hsecond⟩
  · refine ⟨kind, ?_⟩
    rw [recvMmsg, hfirst]
    cases kind with
    | wouldBlock => exact absurd rfl hkind
    | unexpectedEof => rfl
    | other => rfl
  · refine ⟨kind, ?_⟩
    rw [recvMmsg_waits hwaits, recvReadable, hreadable, hsecond]
    rfl

theorem iter_resized (b : UdpRecvBatch) :
    b.resized.iter = b.iter.map (fun d => (resize d.1 65536, d.2)) := by
  refine List.ext_getElem? (fun i => ?_)
  rw [List.getElem?_map, ← get_eq_iter, ← get_eq_iter]
  by_cases h : i < b.count
  · have hi := h.trans_le b.count_le
    rw [get_of_lt h hi, get_of_lt (b := b.resized) h hi]
    simp only [resized, Vector.getElem_map, Option.map_some]
  · have hge := Nat.le_of_not_lt h
    rw [get_of_ge hge, get_of_ge (b := b.resized) hge, Option.map_none]

theorem resize_eq_iff (buffer : Bytes) (n : ℕ) : resize buffer n = buffer ↔ buffer.length = n := by
  constructor
  · intro h
    rw [← h, length_resize]
  · rintro rfl
    rw [resize, List.take_length, Nat.sub_self, List.replicate_zero, List.append_nil]

theorem map_eq_self_iff {α : Type} {f : α → α} {l : List α} :
    l.map f = l ↔ ∀ a ∈ l, f a = a := by
  have hinj := List.map_inj_left (l := l) (f := f) (g := id)
  rwa [List.map_id] at hinj

theorem consistent_resized_iff : Consistent b b.resized ↔ ∀ d ∈ b.iter, d.1.length = 65536 := by
  rw [consistent_iff, iter_resized, List.map_eq_nil_iff, map_eq_self_iff]
  constructor
  · rintro (hnone | hsame) d hd
    · rw [hnone] at hd
      exact absurd hd List.not_mem_nil
    · exact (resize_eq_iff d.1 65536).mp (Prod.mk.inj (hsame d hd)).1
  · intro hfull
    exact .inr (fun d hd => Prod.ext ((resize_eq_iff d.1 65536).mpr (hfull d hd)) rfl)

theorem failed_consistent_iff {call : MmsgCall} (h : call.RecvmmsgFails) :
    Consistent b (b.recvMmsg call).2 ↔ ∀ d ∈ b.iter, d.1.length = 65536 := by
  obtain ⟨kind, hcall⟩ := recvMmsg_fails (b := b) h
  rw [hcall, consistent_resized_iff]

/-! ### A run of calls -/

theorem shows_new : Shows new [] where
  count := rfl
  get _ _ h := nomatch h

theorem recvAll_shows {calls : List MmsgCall} {msgs : List MmsgIn} (hshows : Shows b msgs)
    (hrun : b.recvAll calls = some b') :
    Shows b' ((calls.getLast?).elim msgs MmsgCall.received) := by
  induction calls generalizing b msgs with
  | nil =>
    obtain rfl := Option.some.inj hrun
    exact hshows
  | cons call calls ih =>
    rw [recvAll] at hrun
    cases hcall : b.recvMmsg call with
    | mk result b₁ =>
      rw [hcall] at hrun
      cases result with
      | error kind => exact nomatch hrun
      | ok n =>
        have hrest := ih (recvMmsg_shows hcall) hrun
        rw [List.getLast?_cons, Option.elim_some]
        cases hlast : calls.getLast? with
        | none =>
          rw [hlast] at hrest
          exact hrest
        | some last =>
          rw [hlast] at hrest
          exact hrest

theorem Shows.full_iff {msgs : List MmsgIn} (h : Shows b msgs) :
    (∀ d ∈ b.iter, d.1.length = 65536) ↔ ∀ msg ∈ msgs, 65536 ≤ msg.payload.length := by
  constructor
  · intro hfull msg hmsg
    obtain ⟨i, hi⟩ := List.mem_iff_getElem?.mp hmsg
    obtain ⟨addr, -, hget⟩ := h.get i msg hi
    rw [get_eq_iter] at hget
    have hlength := hfull _ (List.mem_of_getElem? hget)
    rw [List.length_take] at hlength
    omega
  · intro hlong d hd
    obtain ⟨i, hi⟩ := List.mem_iff_getElem?.mp hd
    have hlt : i < msgs.length := by
      rw [← h.count, ← length_iter]
      exact (List.getElem?_eq_some_iff.mp hi).1
    obtain ⟨addr, -, hget⟩ := h.get i msgs[i] (List.getElem?_eq_getElem hlt)
    rw [get_eq_iter, hi] at hget
    rw [Option.some.inj hget, List.length_take, min_eq_left]
    exact hlong _ (List.getElem_mem hlt)

end UdpRecvBatch

section Failed

variable {calls : List MmsgCall} {b : UdpRecvBatch} {call : MmsgCall}

/-- The packets of a run are no longer there after a failed call, if they are those of UDP. -/
theorem failedRecv_not_consistent (hrun : UdpRecvBatch.new.recvAll calls = some b)
    (hfail : call.RecvmmsgFails) {msg : MmsgIn} (hmsg : msg ∈ lastReceived calls)
    (hsized : msg.payload.length ≤ 65535) :
    ¬ UdpRecvBatch.Consistent b (b.recvMmsg call).2 := by
  have hshows := UdpRecvBatch.recvAll_shows UdpRecvBatch.shows_new hrun
  rw [UdpRecvBatch.failed_consistent_iff hfail, hshows.full_iff]
  intro hlong
  exact absurd (hlong msg hmsg) (by omega)

/-- The runs of successful calls after which a call whose `recvmmsg` fails leaves the batch
consistent. -/
theorem failedRecv_consistent_iff (hrun : UdpRecvBatch.new.recvAll calls = some b)
    (hfail : call.RecvmmsgFails) :
    UdpRecvBatch.Consistent b (b.recvMmsg call).2 ↔
      ∀ msg ∈ lastReceived calls, 65536 ≤ msg.payload.length :=
  (UdpRecvBatch.failed_consistent_iff hfail).trans
    (UdpRecvBatch.recvAll_shows UdpRecvBatch.shows_new hrun).full_iff

end Failed

def brokenCall : MmsgCall := ⟨.failed .other, none, .failed .other⟩

theorem brokenCall_fails : brokenCall.RecvmmsgFails := .inl ⟨.other, rfl, by decide⟩

def oneByteCall : MmsgCall :=
  ⟨.received [⟨[1], loopback.storage⟩] (by decide), none, .failed .other⟩

/-- Nothing at once, and no message when the socket is said to be readable. -/
def nothingCall : MmsgCall := ⟨.failed .wouldBlock, none, .received [] (by decide)⟩

theorem failedRecv_consistent_nothing : ∃ b b',
    UdpRecvBatch.new.recvAll [oneByteCall] = some b ∧ b.len = 1 ∧
      UdpRecvBatch.new.recvAll [oneByteCall, nothingCall] = some b' ∧
      UdpRecvBatch.Consistent b' (b'.recvMmsg brokenCall).2 := by
  obtain ⟨b, hfirst, hlen⟩ :
      ∃ b, UdpRecvBatch.new.recvAll [oneByteCall] = some b ∧ b.len = 1 := ⟨_, rfl, rfl⟩
  obtain ⟨b', hrun⟩ : ∃ b', UdpRecvBatch.new.recvAll [oneByteCall, nothingCall] = some b' :=
    ⟨_, rfl⟩
  exact ⟨b, b', hfirst, hlen, hrun, (failedRecv_consistent_iff hrun brokenCall_fails).mpr
    (fun _ hmsg => absurd hmsg List.not_mem_nil)⟩

theorem failedRecv_consistent_oneByte : ¬ ∀ (calls : List MmsgCall) (b : UdpRecvBatch)
    (call : MmsgCall), UdpRecvBatch.new.recvAll calls = some b → call.RecvmmsgFails →
    UdpRecvBatch.Consistent b (b.recvMmsg call).2 := by
  intro h
  obtain ⟨b, hrun⟩ : ∃ b, UdpRecvBatch.new.recvAll [oneByteCall] = some b := ⟨_, rfl⟩
  exact failedRecv_not_consistent hrun brokenCall_fails (List.mem_singleton.mpr rfl)
    (by decide : 1 ≤ 65535) (h _ b brokenCall hrun brokenCall_fails)

end Rperf3
