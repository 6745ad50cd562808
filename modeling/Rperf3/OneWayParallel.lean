import Rperf3.ClientRun
import Rperf3.Library.LossyWire
import Rperf3.OneWayWrap

/-!
# A parallel one-way test (`client.rs:840-905`, `server.rs:1623-1760`)

The client sends on several streams at once, each from a thread of its own, and
the server receives all of them on one socket. Between them is a wire that loses
datagrams but keeps the order of a stream. The losses that the server returns are
those of the wire and the numbers that the kernel of the client left out, between
the first and the last datagram of each stream that arrived.
-/

namespace Rperf3
open KeyedFold
open SharedRun (own)

/-! ### The streams of the client -/

namespace Client

/-- The thread of a stream (`client.rs:853-872`). -/
def offsetRun (c : Client) (net : Network) (h : 8 ≤ c.config.bufferSize) (streamId : ℕ) :
    OffsetRun :=
  let s := net.streams streamId
  { connected := s.connected
    start := s.start
    duration := c.config.duration
    buffer := zeroBuffer c.config.bufferSize h
    seqOffset := UInt32.ofNat (streamId * 10000000)
    streamId := UInt32.ofNat streamId
    ticks := s.ticks }

def streamTaken (c : Client) (net : Network) (h : 8 ≤ c.config.bufferSize) (streamId : ℕ) :
    List ℕ :=
  match (net.streams streamId).bind with
  | .error _ => []
  | .ok () =>
    if (c.offsetRun net h streamId).connected then (c.offsetRun net h streamId).taken else []

def streamPacket (c : Client) (h : 8 ≤ c.config.bufferSize) (streamId : ℕ) : ℕ → Bytes :=
  numberedPacket (zeroBuffer c.config.bufferSize h) (UInt32.ofNat (streamId * 10000000))
    (UInt32.ofNat streamId)

def streamAccepted (c : Client) (net : Network) (h : 8 ≤ c.config.bufferSize) (streamId : ℕ) :
    List Bytes :=
  match (net.streams streamId).bind with
  | .error _ => []
  | .ok () =>
    if (c.offsetRun net h streamId).connected then (c.offsetRun net h streamId).accepted else []

/-- `total_packets` of the streams that return (`client.rs:878-892`). -/
def totalPackets (c : Client) (net : Network) (h : 8 ≤ c.config.bufferSize) : ℕ :=
  ∑ i : Fin c.config.parallel,
    match (net.streams i).bind with
    | .error _ => 0
    | .ok () =>
      match sendOneWayWithOffset (c.offsetRun net h i) with
      | .ok stats => stats.packetsSent
      | .error _ => 0

section Streams

variable {c : Client} {net : Network} {h : 8 ≤ c.config.bufferSize}

theorem streamAccepted_eq (streamId : ℕ) : c.streamAccepted net h streamId =
    (c.streamTaken net h streamId).map (c.streamPacket h streamId) := by
  unfold streamAccepted streamTaken
  cases (net.streams streamId).bind with
  | error e => rfl
  | ok u =>
    by_cases hconnected : (c.offsetRun net h streamId).connected = true
    · simp only [if_pos hconnected]
      exact (c.offsetRun net h streamId).accepted_eq.1
    · simp only [if_neg hconnected]
      rfl

theorem totalPackets_eq :
    c.totalPackets net h = ∑ i : Fin c.config.parallel, (c.streamTaken net h i).length := by
  refine Finset.sum_congr rfl (fun i _ => ?_)
  unfold streamTaken sendOneWayWithOffset
  cases (net.streams i).bind with
  | error e => rfl
  | ok u =>
    by_cases hconnected : (c.offsetRun net h i).connected = true
    · simp only [if_pos hconnected]
      exact (c.offsetRun net h i).accepted_eq.2
    · simp only [if_neg hconnected]
      rfl

theorem streamTaken_sublist (streamId : ℕ) :
    (c.streamTaken net h streamId).Sublist (c.offsetRun net h streamId).taken := by
  unfold streamTaken
  cases (net.streams streamId).bind with
  | error e => exact List.nil_sublist _
  | ok u =>
    by_cases hconnected : (c.offsetRun net h streamId).connected = true
    · simp only [if_pos hconnected]
      exact List.Sublist.refl _
    · simp only [if_neg hconnected]
      exact List.nil_sublist _

end Streams

end Client

/-! ### Missing positions -/

/-- The positions from the first to the last one that arrived. -/
def span : List ℕ → Finset ℕ
  | [] => ∅
  | p :: ps => Finset.Icc p (SeqGap.highest (p :: ps))

def lostOnWire (taken arrived : List ℕ) : ℕ :=
  ((span arrived).filter (fun p => p ∈ taken ∧ p ∉ arrived)).card

/-- Positions inside the span that were numbered and never handed to the wire. -/
def leftOut (taken arrived : List ℕ) : ℕ := ((span arrived).filter (· ∉ taken)).card

theorem neverArrived_split {taken ps : List ℕ} (h : ∀ p ∈ ps, p ∈ taken) :
    SeqGap.neverArrived ps = lostOnWire taken ps + leftOut taken ps := by
  have hcard : SeqGap.neverArrived ps = ((span ps).filter (· ∉ ps)).card := by
    cases ps with
    | nil => rfl
    | cons p ps => rfl
  rw [hcard, lostOnWire, leftOut, ← Finset.card_union_of_disjoint]
  · congr 1
    ext p
    simp only [Finset.mem_union, Finset.mem_filter]
    have hp := h p
    tauto
  · rw [Finset.disjoint_filter]
    intro p _ htaken hnot
    exact hnot htaken.1

/-! ### Streams on one socket -/

section Lanes

variable {ι : Type} [DecidableEq ι] {xs : List (ι × Bytes)} {streamId : ι → UInt32}

theorem eventsOf_lane (hid : Function.Injective streamId)
    (hxs : ∀ x ∈ xs, streamIdOf x.2 = streamId x.1) (i : ι) :
    eventsOf streamIdOf (streamId i) (xs.map Prod.snd) = own i xs := by
  rw [eventsOf, List.filter_map, own]
  refine congrArg _ (List.filter_congr (fun x hx => ?_))
  simp only [Function.comp_apply, hxs x hx, hid.eq_iff]

theorem length_lanes [Fintype ι] (xs : List (ι × Bytes)) :
    xs.length = ∑ i, (own i xs).length := by
  rw [length_eq_sum_eventsOf Prod.fst xs Finset.univ (fun _ _ => Finset.mem_univ _)]
  exact Finset.sum_congr rfl (fun i _ => (List.length_map _).symm)

omit [DecidableEq ι] in
theorem sum_streams [Fintype ι] (hid : Function.Injective streamId)
    (hxs : ∀ x ∈ xs, streamIdOf x.2 = streamId x.1) (f : List ℕ → ℕ) (hf : f [] = 0) :
    ∑ k ∈ streams (xs.map Prod.snd), f (seqsOf k (xs.map Prod.snd)) =
      ∑ i, f (seqsOf (streamId i) (xs.map Prod.snd)) := by
  have himage := Finset.sum_image (s := Finset.univ) (g := streamId)
    (f := fun k => f (seqsOf k (xs.map Prod.snd))) (fun _ _ _ _ h => hid h)
  rw [← himage]
  refine Finset.sum_subset ?_ (fun k _ hk => ?_)
  · intro k hk
    obtain ⟨buf, hbuf, rfl⟩ := List.mem_map.mp (List.mem_toFinset.mp hk)
    obtain ⟨x, hx, rfl⟩ := List.mem_map.mp (List.mem_of_mem_filter hbuf)
    exact Finset.mem_image.mpr ⟨x.1, Finset.mem_univ _, (hxs x hx).symm⟩
  · rw [not_not.mp (fun hne => hk (seqsOf_ne_nil.mp hne)), hf]

theorem mem_own {x : ι × Bytes} (hx : x ∈ xs) : x.2 ∈ own x.1 xs :=
  List.mem_map.mpr ⟨x, List.mem_filter.mpr ⟨hx, decide_eq_true rfl⟩, rfl⟩

end Lanes

/-! ### The test -/

theorem sameRound_of_lt {start : ℕ} {ps : List ℕ} {N : ℕ} (hinc : ps.IsChain (· < ·))
    (hN : ∀ p ∈ ps, start + p < N) : ps.IsChain (SeqWrap.SameRound N start) := by
  induction ps with
  | nil => exact .nil
  | cons p ps ih =>
    cases ps with
    | nil => exact .singleton p
    | cons q ps =>
      obtain ⟨hpq, hrest⟩ := List.isChain_cons_cons.mp hinc
      have hq : start + q < N := hN q (by simp)
      refine List.isChain_cons_cons.mpr
        ⟨?_, ih hrest (fun x hx => hN x (List.mem_cons_of_mem _ hx))⟩
      rw [SeqWrap.SameRound, Nat.div_eq_of_lt hq, Nat.div_eq_of_lt (by omega)]

/-- One receiver of several senders: what it counts is the sum over the streams of what the
positions that arrived say. -/
theorem tally_of_lanes {ι : Type} [Fintype ι] [DecidableEq ι] {streamId start : ι → UInt32}
    {buffer : SendBuffer} {delivered : ι → List ℕ} {xs : List (ι × Bytes)} {r : OneWayRun}
    (hid : Function.Injective streamId)
    (hxs : ∀ i, own i xs = (delivered i).map (numberedPacket buffer (start i) (streamId i)))
    (hinc : ∀ i, (delivered i).IsChain (· < ·))
    (hround : ∀ i, ∀ p ∈ delivered i, (start i).toNat + p < 2 ^ 32)
    (harrivals : r.arrivals = xs.map Prod.snd) :
    r.tally.outOfOrder = 0 ∧ r.tally.packetsReceived = ∑ i, (delivered i).length ∧
      r.tally.bytesReceived = r.tally.packetsReceived * buffer.bytes.length ∧
      r.tally.packetsLost = ∑ i, SeqGap.neverArrived (delivered i) := by
  have hpackets : ∀ x ∈ xs, ∃ p, x.2 = numberedPacket buffer (start x.1) (streamId x.1) p := by
    intro x hx
    have hmem := mem_own hx
    rw [hxs] at hmem
    obtain ⟨p, -, hp⟩ := List.mem_map.mp hmem
    exact ⟨p, hp.symm⟩
  have hids : ∀ x ∈ xs, streamIdOf x.2 = streamId x.1 := by
    intro x hx
    obtain ⟨p, hp⟩ := hpackets x hx
    rw [hp]
    exact streamIdOf_oneWayPacket ..
  have hsize : ∀ buf ∈ xs.map Prod.snd, buf.length = buffer.bytes.length := by
    intro buf hbuf
    obtain ⟨x, hx, rfl⟩ := List.mem_map.mp hbuf
    obtain ⟨p, hp⟩ := hpackets x hx
    rw [hp]
    exact length_oneWayPacket ..
  have hlen : ∀ buf ∈ xs.map Prod.snd, 8 ≤ buf.length :=
    fun buf hbuf => (hsize buf hbuf).symm ▸ buffer.room
  have hseqs : ∀ i, seqsOf (streamId i) (xs.map Prod.snd) =
      SeqWrap.numbers (2 ^ 32) (start i).toNat (delivered i) := by
    intro i
    refine seqsOf_eq_numbers hlen ?_
    rw [eventsOf_lane hid hids, hxs, List.map_map]
    exact List.map_congr_left (fun p _ => seqOf_oneWayPacket ..)
  have hcounts := fun i => SeqWrap.counts_sameRound (hinc i) (sameRound_of_lt (hinc i) (hround i))
  obtain ⟨hlate, hlost⟩ := tally_eq_sum r
  rw [harrivals] at hlate hlost
  refine ⟨?_, ?_, ?_, ?_⟩
  · rw [hlate, sum_streams hid hids (SeqWrap.late (2 ^ 32)) rfl]
    exact Finset.sum_eq_zero (fun i _ => by rw [hseqs, (hcounts i).1])
  · rw [packetsReceived_eq_length, harrivals, List.length_map, length_lanes]
    exact Finset.sum_congr rfl (fun i _ => by rw [hxs, List.length_map])
  · have hbytes : r.tally.bytesReceived = (r.arrivals.map List.length).sum := by
      rw [r.tally_eq_addNumbered]
      exact Nat.zero_add _
    have hconst : r.arrivals.map List.length =
        List.replicate r.arrivals.length buffer.bytes.length := by
      rw [harrivals, List.eq_replicate_iff]
      refine ⟨List.length_map _, fun n hn => ?_⟩
      obtain ⟨buf, hbuf, rfl⟩ := List.mem_map.mp hn
      exact hsize buf hbuf
    rw [hbytes, hconst, List.sum_replicate_nat, packetsReceived_eq_length]
  · rw [hlost, sum_streams hid hids (SeqWrap.lost (2 ^ 32)) rfl]
    exact Finset.sum_congr rfl (fun i _ => by rw [hseqs, (hcounts i).2])

/-- Whatever the wire loses and however it mixes the streams, the server returns as lost the
datagrams lost on the wire and the numbers left out by the kernel, each between the first and the
last datagram of its stream that arrived; nothing is counted as late. -/
theorem parallelSend_counted (c : Client) (net : Network) (hsize : 8 ≤ c.config.bufferSize)
    (hparallel : c.config.parallel ≤ 2 ^ 32)
    (hrounds : ∀ i : Fin c.config.parallel,
      (i : ℕ) * 10000000 + batch * (c.offsetRun net hsize i).replies.length ≤ 2 ^ 32)
    (w : LossyWire.State (Fin c.config.parallel) Bytes)
    (hw : Lts.Reachable LossyWire.step
      (LossyWire.start fun i : Fin c.config.parallel => c.streamAccepted net hsize i) w)
    (r : OneWayRun) (stats : ServerOneWayStats) (hok : recvOneWayServerWithSocket r = .ok stats)
    (harrivals : r.arrivals = w.arrived.map Prod.snd) :
    ∃ delivered : Fin c.config.parallel → List ℕ,
      (∀ i : Fin c.config.parallel, (delivered i).Sublist (c.streamTaken net hsize i) ∧
        own i w.arrived = (delivered i).map (c.streamPacket hsize i)) ∧
      stats.outOfOrder = 0 ∧
      stats.packetsReceived = ∑ i, (delivered i).length ∧
      stats.packetsReceived ≤ c.totalPackets net hsize ∧
      stats.bytesReceived = stats.packetsReceived * c.config.bufferSize ∧
      stats.packetsLost = ∑ i : Fin c.config.parallel,
        (lostOnWire (c.streamTaken net hsize i) (delivered i) +
          leftOut (c.streamTaken net hsize i) (delivered i)) := by
  have hlanes : ∀ i : Fin c.config.parallel, ∃ ps : List ℕ, ps.Sublist (c.streamTaken net hsize i) ∧
      own i w.arrived = ps.map (c.streamPacket hsize i) := by
    intro i
    have hsub := LossyWire.sublist_of_reachable hw i
    rw [Client.streamAccepted_eq] at hsub
    obtain ⟨ps, hps, heq⟩ := List.sublist_map_iff.mp hsub
    exact ⟨ps, hps, heq⟩
  choose delivered hdelivered using hlanes
  have hid : Function.Injective (fun i : Fin c.config.parallel => UInt32.ofNat i) := by
    intro i j hij
    have hnat := congrArg UInt32.toNat hij
    simp only [UInt32.toNat_ofNat'] at hnat
    rw [Nat.mod_eq_of_lt (by omega), Nat.mod_eq_of_lt (by omega)] at hnat
    exact Fin.ext hnat
  have hinc : ∀ i, (delivered i).IsChain (· < ·) := by
    intro i
    have htaken : (c.offsetRun net hsize i).taken.IsChain (· < ·) := takenFrom_increasing ..
    rw [List.isChain_iff_pairwise] at htaken ⊢
    exact htaken.sublist ((hdelivered i).1.trans (Client.streamTaken_sublist i))
  have hround : ∀ i : Fin c.config.parallel, ∀ p ∈ delivered i,
      (UInt32.ofNat ((i : ℕ) * 10000000)).toNat + p < 2 ^ 32 := by
    intro i p hp
    have hmem := ((hdelivered i).1.trans (Client.streamTaken_sublist i)).subset hp
    have hbound := (takenFrom_bounds hmem).2
    have hstart := Nat.mod_le (i * 10000000) (2 ^ 32)
    have hi := hrounds i
    rw [UInt32.toNat_ofNat']
    omega
  obtain ⟨hlate, hreceived, hbytes, hlost⟩ :=
    tally_of_lanes hid (fun i => (hdelivered i).2) hinc hround harrivals
  have hsent : r.tally.packetsReceived ≤ c.totalPackets net hsize := by
    rw [hreceived, Client.totalPackets_eq]
    exact Finset.sum_le_sum (fun i _ => (hdelivered i).1.length_le)
  have hbuffer : (zeroBuffer c.config.bufferSize hsize).bytes.length = c.config.bufferSize :=
    List.length_replicate
  rw [hbuffer] at hbytes
  rw [stats_of_ok hok]
  refine ⟨delivered, hdelivered, hlate, hreceived, hsent, hbytes, hlost.trans ?_⟩
  exact Finset.sum_congr rfl
    (fun i _ => neverArrived_split (fun p hp => (hdelivered i).1.subset hp))

def twoSenders : Client :=
  { smallClient .udp .send with
    config := ⟨.udp, Duration.fromSecs 1, none, 8, 2, false, .send, none⟩ }

/-- The kernel takes two datagrams of the first batch of stream 0 and one of each other batch. -/
def twoSendersNetwork : Network :=
  { smallNetwork with
    streams := fun i => ⟨.ok (), true, 0, if i = 0 then [⟨0, .sent 2⟩, ⟨0, .sent 1⟩]
      else [⟨0, .sent 1⟩]⟩ }

def twoSendersStart : LossyWire.State (Fin twoSenders.config.parallel) Bytes :=
  LossyWire.start fun i => twoSenders.streamAccepted twoSendersNetwork (by decide) i

/-- The second datagram of stream 0 is lost. -/
def twoSendersActions : List (LossyWire.Action (Fin twoSenders.config.parallel)) :=
  [.deliver ⟨0, by decide⟩, .lose ⟨0, by decide⟩, .deliver ⟨1, by decide⟩,
    .deliver ⟨0, by decide⟩]

def twoSendersEnd : LossyWire.State (Fin twoSenders.config.parallel) Bytes :=
  (Lts.run LossyWire.step (fun _ _ => True) twoSendersStart twoSendersActions).getD
    twoSendersStart

theorem twoSenders_run :
    Lts.run LossyWire.step (fun _ _ => True) twoSendersStart twoSendersActions =
      some twoSendersEnd :=
  rfl

theorem parallelSend_counted_two :
    ∃ delivered : Fin twoSenders.config.parallel → List ℕ,
      (OneWayRun.deliver (twoSendersEnd.arrived.map Prod.snd)).stats.packetsLost =
        ∑ i : Fin twoSenders.config.parallel,
          (lostOnWire (twoSenders.streamTaken twoSendersNetwork (by decide) i) (delivered i) +
            leftOut (twoSenders.streamTaken twoSendersNetwork (by decide) i) (delivered i)) := by
  obtain ⟨delivered, -, -, -, -, -, hlost⟩ :=
    parallelSend_counted twoSenders twoSendersNetwork (by decide) (by decide) (by decide)
      twoSendersEnd (Lts.Reach.start.run twoSenders_run) _ _ (recv_deliver _) (arrivals_deliver _)
  exact ⟨delivered, hlost⟩

example :
    (OneWayRun.deliver (twoSendersEnd.arrived.map Prod.snd)).stats.packetsLost = 63 := by decide

end Rperf3
