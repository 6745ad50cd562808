import Rperf3.MultiWorker

/-!
# What the receiver with workers prints (`server.rs:1882-1974`)

The main task prints the shared counters while the workers still add to them. As
long as the counters have not wrapped, the lines never go down, none shows more
than has been received, and the last one shows what the call returns, which is
everything. Wherever the workers stand, the call can still return.
-/

namespace Rperf3
open SharedCounter (Balanced)

/-! ### Counters that have not wrapped -/

def bytesIn (bufs : List Bytes) : ℕ := (bufs.map List.length).sum

/-- What one step of a worker does to a counter it shares: it takes datagrams on, or pays all of
what it held. -/
def Pays (counter counter' held held' received : UInt64) (taken : ℕ) : Prop :=
  (counter' = counter ∧ held' = held + received) ∨
    (counter' = counter + held ∧ held' = 0 ∧ taken = 0)

theorem Worker.step_pays {bufferSize : ℕ} {sh sh' : WorkerShared} {w w' : Worker}
    {e : WorkerEvent} (h : w.step bufferSize sh e = some (sh', w')) :
    Pays sh.bytesReceived sh'.bytesReceived w.unsyncedBytes w'.unsyncedBytes
        (bytesOf (e.received bufferSize)) (bytesIn (e.received bufferSize)) ∧
      Pays sh.packetsReceived sh'.packetsReceived w.unsyncedPackets w'.unsyncedPackets
        (packetsOf (e.received bufferSize)) (e.received bufferSize).length := by
  cases e with
  | load =>
    cases hpc : w.pc <;> simp only [Worker.step, hpc, reduceCtorEq] at h
    obtain ⟨rfl, rfl⟩ := Prod.mk.inj (Option.some.inj h)
    cases hrun : sh.running
    · exact ⟨.inl ⟨rfl, by simp [Worker.unsyncedBytes, WorkerEvent.received, hpc]⟩,
        .inl ⟨rfl, by simp [Worker.unsyncedPackets, WorkerEvent.received, hpc]⟩⟩
    · exact ⟨.inl ⟨rfl, by simp [Worker.unsyncedBytes, WorkerEvent.received, hpc]⟩,
        .inl ⟨rfl, by simp [Worker.unsyncedPackets, WorkerEvent.received, hpc]⟩⟩
  | datagram payload =>
    cases hpc : w.pc <;> simp only [Worker.step, hpc, reduceCtorEq] at h
    obtain ⟨rfl, rfl⟩ := Prod.mk.inj (Option.some.inj h)
    obtain ⟨hclock, hbytes, hpackets⟩ := onDatagram_fields w (payload.take bufferSize)
    exact ⟨.inl ⟨rfl, by simp [Worker.unsyncedBytes, WorkerEvent.received, hpc, hclock, hbytes]⟩,
      .inl ⟨rfl, by simp [Worker.unsyncedPackets, WorkerEvent.received, hpc, hclock, hpackets]⟩⟩
  | recvError =>
    cases hpc : w.pc <;> simp only [Worker.step, hpc, reduceCtorEq] at h
    obtain ⟨rfl, rfl⟩ := Prod.mk.inj (Option.some.inj h)
    exact ⟨.inl ⟨rfl, by simp [Worker.unsyncedBytes, WorkerEvent.received, hpc]⟩,
      .inl ⟨rfl, by simp [Worker.unsyncedPackets, WorkerEvent.received, hpc]⟩⟩
  | clock now =>
    cases hpc : w.pc <;> simp only [Worker.step, hpc, reduceCtorEq] at h
    obtain ⟨rfl, rfl⟩ := Prod.mk.inj (Option.some.inj h)
    by_cases hdue : now - w.lastReport ≥ reportInterval
    · exact ⟨.inl ⟨rfl, by simp [Worker.unsyncedBytes, WorkerEvent.received, hpc, hdue]⟩,
        .inl ⟨rfl, by simp [Worker.unsyncedPackets, WorkerEvent.received, hpc, hdue]⟩⟩
    · exact ⟨.inl ⟨rfl, by simp [Worker.unsyncedBytes, WorkerEvent.received, hpc, hdue]⟩,
        .inl ⟨rfl, by simp [Worker.unsyncedPackets, WorkerEvent.received, hpc, hdue]⟩⟩
  | fetchAdd =>
    cases hpc : w.pc <;> simp only [Worker.step, hpc, reduceCtorEq] at h
    all_goals obtain ⟨rfl, rfl⟩ := Prod.mk.inj (Option.some.inj h)
    case syncBytes | finalBytes =>
      exact ⟨.inr ⟨by simp [Worker.unsyncedBytes, hpc], by simp [Worker.unsyncedBytes], rfl⟩,
        .inl ⟨rfl, by simp [Worker.unsyncedPackets, WorkerEvent.received, hpc]⟩⟩
    case syncPackets | finalPackets =>
      exact ⟨.inl ⟨rfl, by simp [Worker.unsyncedBytes, WorkerEvent.received, hpc]⟩,
        .inr ⟨by simp [Worker.unsyncedPackets, hpc], by simp [Worker.unsyncedPackets], rfl⟩⟩
  | send =>
    cases hpc : w.pc <;> simp only [Worker.step, hpc, reduceCtorEq] at h
    obtain ⟨rfl, rfl⟩ := Prod.mk.inj (Option.some.inj h)
    exact ⟨.inl ⟨rfl, by simp [Worker.unsyncedBytes, WorkerEvent.received, hpc]⟩,
      .inl ⟨rfl, by simp [Worker.unsyncedPackets, WorkerEvent.received, hpc]⟩⟩

section Exact

variable {n : ℕ} {held : Worker → ℕ} {ws : Fin n → Worker} {counter counter' x x' : UInt64}
  {total taken : ℕ} {i : Fin n} {w : Worker}

/-- While the total fits, a counter and what the workers hold are the total without wrapping. -/
theorem Pays.exact (h : Balanced counter.toNat (fun j => held (ws j)) total)
    (hpays : Pays counter counter' x x' (UInt64.ofNat taken) taken)
    (hx : held (ws i) = x.toNat) (hx' : held w = x'.toNat) (hfits : total + taken < 2 ^ 64) :
    Balanced counter'.toNat (fun j => held (Function.update ws i w j)) (total + taken) ∧
      counter ≤ counter' := by
  have hone : held (ws i) ≤ ∑ j, held (ws j) :=
    Finset.single_le_sum (f := fun j => held (ws j)) (fun _ _ => Nat.zero_le _)
      (Finset.mem_univ i)
  have htotal : counter.toNat + ∑ j, held (ws j) = total := h
  rcases hpays with ⟨rfl, hheld⟩ | ⟨rfl, hheld, rfl⟩
  · have hown : 0 + held w = held (ws i) + taken := by
      rw [hx', hheld, UInt64.toNat_add, UInt64.toNat_ofNat', hx,
        Nat.mod_eq_of_lt (show taken < 2 ^ 64 by omega), Nat.mod_eq_of_lt (by omega), Nat.zero_add]
    exact ⟨h.step hown, UInt64.le_refl _⟩
  · have hadd : (counter + x).toNat = counter.toNat + held (ws i) := by
      rw [UInt64.toNat_add, hx]
      exact Nat.mod_eq_of_lt (by omega)
    have hown : held (ws i) + held w = held (ws i) + 0 := by
      rw [hx', hheld]
      rfl
    refine ⟨?_, ?_⟩
    · rw [hadd]
      exact h.step hown
    · rw [UInt64.le_iff_toNat_le, hadd]
      exact Nat.le_add_right ..

end Exact

def Worker.heldBytes (w : Worker) : ℕ := w.unsyncedBytes.toNat

def Worker.heldPackets (w : Worker) : ℕ := w.unsyncedPackets.toNat

namespace MtState

variable {n : ℕ} {c : MtCall} {s s' : MtState n}

def Fits (s : MtState n) : Prop := bytesIn s.received < 2 ^ 64 ∧ s.received.length < 2 ^ 64

structure Exact (s : MtState n) : Prop where
  bytes : Balanced s.shared.bytesReceived.toNat (fun i => (s.workers i).heldBytes)
    (bytesIn s.received)
  packets : Balanced s.shared.packetsReceived.toNat (fun i => (s.workers i).heldPackets)
    s.received.length

theorem exact_start (c : MtCall) : (start c).Exact :=
  ⟨SharedCounter.balanced_start (fun _ => rfl), SharedCounter.balanced_start (fun _ => rfl)⟩

theorem bytesIn_append (xs ys : List Bytes) : bytesIn (xs ++ ys) = bytesIn xs + bytesIn ys := by
  simp only [bytesIn, List.map_append, List.sum_append]

theorem Exact.worker {i : Fin n} {e : WorkerEvent} (h : s.Exact)
    (hstep : s.step c (.worker i e) = some s') (hfits : s'.Fits) :
    s'.Exact ∧ s'.main = s.main ∧ s.shared.bytesReceived ≤ s'.shared.bytesReceived ∧
      s.shared.packetsReceived ≤ s'.shared.packetsReceived := by
  obtain ⟨⟨sh, w⟩, hworker, rfl⟩ := Option.map_eq_some_iff.mp hstep
  obtain ⟨hbytes, hpackets⟩ := Worker.step_pays hworker
  obtain ⟨hb, hp⟩ := hfits
  simp only [bytesIn_append, List.length_append] at hb hp
  obtain ⟨hexactb, hleb⟩ := hbytes.exact h.bytes rfl rfl hb
  obtain ⟨hexactp, hlep⟩ := hpackets.exact h.packets rfl rfl hp
  refine ⟨⟨?_, ?_⟩, rfl, hleb, hlep⟩
  · simp only [bytesIn_append]
    exact hexactb
  · simp only [List.length_append]
    exact hexactp

theorem main_shared {e : MtEvent} (hstep : s.step c (.main e) = some s') :
    s'.workers = s.workers ∧ s'.received = s.received ∧
      s'.shared.bytesReceived = s.shared.bytesReceived ∧
      s'.shared.packetsReceived = s.shared.packetsReceived := by
  obtain ⟨⟨sh, m⟩, hmain, rfl⟩ := Option.map_eq_some_iff.mp hstep
  obtain ⟨hb, hp⟩ := MtMain.step_counters hmain
  exact ⟨rfl, rfl, hb, hp⟩

theorem Exact.main {e : MtEvent} (h : s.Exact) (hstep : s.step c (.main e) = some s') :
    s'.Exact := by
  obtain ⟨hworkers, hreceived, hb, hp⟩ := main_shared hstep
  constructor
  · rw [hb, hworkers, hreceived]
    exact h.bytes
  · rw [hp, hworkers, hreceived]
    exact h.packets

theorem fits_of_step {a : MtAction n} (hstep : s.step c a = some s') (h : s'.Fits) : s.Fits := by
  cases a with
  | main e =>
    obtain ⟨-, hreceived, -, -⟩ := main_shared hstep
    unfold Fits at h ⊢
    rwa [hreceived] at h
  | worker i e =>
    obtain ⟨⟨sh, w⟩, -, rfl⟩ := Option.map_eq_some_iff.mp hstep
    obtain ⟨hb, hp⟩ := h
    simp only [bytesIn_append, List.length_append] at hb hp
    exact ⟨by omega, by omega⟩

/-! ### The lines -/

structure LinesBelow (printed : List MtIntervalLine) (bytes packets : UInt64) : Prop where
  ordered : printed.Pairwise (fun a b => a.bytes ≤ b.bytes ∧ a.packets ≤ b.packets)
  below : ∀ line ∈ printed, line.bytes ≤ bytes ∧ line.packets ≤ packets

theorem LinesBelow.mono {printed : List MtIntervalLine} {bytes packets bytes' packets' : UInt64}
    (h : LinesBelow printed bytes packets) (hbytes : bytes ≤ bytes')
    (hpackets : packets ≤ packets') : LinesBelow printed bytes' packets' :=
  ⟨h.ordered, fun line hline => ⟨UInt64.le_trans (h.below line hline).1 hbytes,
    UInt64.le_trans (h.below line hline).2 hpackets⟩⟩

theorem LinesBelow.print {printed : List MtIntervalLine} {bytes packets : UInt64}
    (h : LinesBelow printed bytes packets) {line : MtIntervalLine} (hbytes : line.bytes = bytes)
    (hpackets : line.packets = packets) : LinesBelow (printed ++ [line]) bytes packets := by
  constructor
  · refine List.pairwise_append.mpr ⟨h.ordered, List.pairwise_singleton .., ?_⟩
    intro a ha b hb
    rw [List.mem_singleton.mp hb, hbytes, hpackets]
    exact h.below a ha
  · intro a ha
    rcases List.mem_append.mp ha with ha | ha
    · exact h.below a ha
    · rw [List.mem_singleton.mp ha, hbytes, hpackets]
      exact ⟨UInt64.le_refl _, UInt64.le_refl _⟩

/-- The totals that the next line can count on: those loaded for it, else the counters. -/
def nextBytes (s : MtState n) : UInt64 :=
  match s.main.pc with
  | .loadPackets _ currentTotal => currentTotal
  | .finalPackets totalBytes => totalBytes
  | .summary totalBytes _ => totalBytes
  | _ => s.shared.bytesReceived

def nextPackets (s : MtState n) : UInt64 :=
  match s.main.pc with
  | .summary _ totalPackets => totalPackets
  | _ => s.shared.packetsReceived

structure LinesInv (s : MtState n) : Prop where
  lines : LinesBelow s.main.printed s.nextBytes s.nextPackets
  bytes : s.nextBytes ≤ s.shared.bytesReceived
  packets : s.nextPackets ≤ s.shared.packetsReceived
  last : ∀ stats, s.main.pc = .returned (.ok stats) →
    ∃ line, s.main.printed.getLast? = some line ∧ line.bytes.toNat = stats.bytesReceived ∧
      line.packets.toNat = stats.packetsReceived

theorem linesInv_start (c : MtCall) : (start c).LinesInv := by
  have hpc : (start c).main.pc = .returned (.error (.io .other)) ∨
      (start c).main.pc = .intervalLoop := by
    cases hfds : c.workerFds.isEmpty <;> simp [start, MtMain.start, hfds]
  have hnone : ∀ b p, LinesBelow [] b p :=
    fun _ _ => ⟨List.Pairwise.nil, fun _ h => absurd h List.not_mem_nil⟩
  rcases hpc with hpc | hpc
  · exact ⟨hnone _ _, by simp [nextBytes, hpc], by simp [nextPackets, hpc], by simp [hpc]⟩
  · exact ⟨hnone _ _, by simp [nextBytes, hpc], by simp [nextPackets, hpc], by simp [hpc]⟩

theorem LinesInv.grow (h : s.LinesInv) (hmain : s'.main = s.main)
    (hbytes : s.shared.bytesReceived ≤ s'.shared.bytesReceived)
    (hpackets : s.shared.packetsReceived ≤ s'.shared.packetsReceived) : s'.LinesInv := by
  have hnextb : s.nextBytes ≤ s'.nextBytes ∧ s'.nextBytes ≤ s'.shared.bytesReceived := by
    have hb := h.bytes
    unfold nextBytes at hb ⊢
    rw [hmain]
    cases hpc : s.main.pc <;> simp only [hpc] at hb ⊢
    all_goals first
      | exact ⟨UInt64.le_refl _, UInt64.le_trans hb hbytes⟩
      | exact ⟨hbytes, UInt64.le_refl _⟩
  have hnextp : s.nextPackets ≤ s'.nextPackets ∧
      s'.nextPackets ≤ s'.shared.packetsReceived := by
    have hp := h.packets
    unfold nextPackets at hp ⊢
    rw [hmain]
    cases hpc : s.main.pc <;> simp only [hpc] at hp ⊢
    all_goals first
      | exact ⟨UInt64.le_refl _, UInt64.le_trans hp hpackets⟩
      | exact ⟨hpackets, UInt64.le_refl _⟩
  refine ⟨?_, hnextb.2, hnextp.2, ?_⟩
  · rw [hmain]
    exact h.lines.mono hnextb.1 hnextp.1
  · rw [hmain]
    exact h.last

/-- A step of the main task that prints nothing and loads what it could count on anyway. -/
theorem LinesInv.quiet (h : s.LinesInv) (hprinted : s'.main.printed = s.main.printed)
    (hbytes : s'.shared.bytesReceived = s.shared.bytesReceived)
    (hpackets : s'.shared.packetsReceived = s.shared.packetsReceived)
    (hnextb : s'.nextBytes = s.nextBytes) (hnextp : s'.nextPackets = s.nextPackets)
    (hpc : ∀ stats, s'.main.pc ≠ .returned (.ok stats)) : s'.LinesInv := by
  refine ⟨?_, ?_, ?_, fun stats hret => absurd hret (hpc stats)⟩
  · rw [hprinted, hnextb, hnextp]
    exact h.lines
  · rw [hnextb, hbytes]
    exact h.bytes
  · rw [hnextp, hpackets]
    exact h.packets

theorem LinesInv.main {e : MtEvent} (h : s.LinesInv) (hstep : s.step c (.main e) = some s') :
    s'.LinesInv := by
  obtain ⟨⟨sh, m⟩, hmain, rfl⟩ := Option.map_eq_some_iff.mp hstep
  have hlines := h.lines
  have hb := h.bytes
  have hp := h.packets
  cases e with
  | clock now =>
    cases hpc : s.main.pc <;> simp only [MtMain.step, hpc, reduceCtorEq] at hmain
    all_goals
      obtain ⟨rfl, rfl⟩ := Prod.mk.inj (Option.some.inj hmain)
      by_cases hend : now ≥ c.start + c.duration
      · exact h.quiet rfl rfl rfl (by simp [nextBytes, hpc, hend]) (by simp [nextPackets, hpc, hend])
          (by simp [hend])
      · exact h.quiet rfl rfl rfl (by simp [nextBytes, hpc, hend]) (by simp [nextPackets, hpc, hend])
          (by simp [hend])
  | load =>
    cases hpc : s.main.pc <;> simp only [MtMain.step, hpc, reduceCtorEq] at hmain
    all_goals obtain ⟨rfl, rfl⟩ := Prod.mk.inj (Option.some.inj hmain)
    case loadPackets current currentTotal =>
      simp only [nextBytes, nextPackets, hpc] at hlines hb hp
      unfold MtMain.report
      by_cases hdue : Duration.asSecsF64 (current - s.main.prevIntervalEnd) ≥ 9 / 10
      · simp only [if_pos hdue]
        refine ⟨LinesBelow.mono (hlines.print rfl rfl) hb (UInt64.le_refl _), UInt64.le_refl _,
          UInt64.le_refl _, fun stats hret => by cases hret⟩
      · simp only [if_neg hdue]
        exact ⟨hlines.mono hb (UInt64.le_refl _), UInt64.le_refl _, UInt64.le_refl _,
          fun stats hret => by cases hret⟩
    all_goals
      exact h.quiet rfl rfl rfl (by simp [nextBytes, hpc]) (by simp [nextPackets, hpc]) (by simp)
  | store =>
    cases hpc : s.main.pc <;> simp only [MtMain.step, hpc, reduceCtorEq] at hmain
    obtain ⟨rfl, rfl⟩ := Prod.mk.inj (Option.some.inj hmain)
    exact h.quiet rfl rfl rfl (by simp [nextBytes, hpc]) (by simp [nextPackets, hpc]) (by simp)
  | recv =>
    cases hpc : s.main.pc <;> cases hch : s.shared.channel <;>
      simp only [MtMain.step, hpc, hch, reduceCtorEq] at hmain
    obtain ⟨rfl, rfl⟩ := Prod.mk.inj (Option.some.inj hmain)
    exact h.quiet rfl rfl rfl (by simp [nextBytes, hpc]) (by simp [nextPackets, hpc]) (by simp)
  | recvTimeout =>
    cases hpc : s.main.pc <;> simp only [MtMain.step, hpc, reduceCtorEq] at hmain
    obtain ⟨rfl, rfl⟩ := Prod.mk.inj (Option.some.inj hmain)
    exact h.quiet rfl rfl rfl (by simp [nextBytes, hpc]) (by simp [nextPackets, hpc]) (by simp)
  | join =>
    cases hpc : s.main.pc <;> simp only [MtMain.step, hpc, reduceCtorEq] at hmain
    obtain ⟨-, hsome⟩ := Option.ite_none_right_eq_some.mp hmain
    obtain ⟨rfl, rfl⟩ := Prod.mk.inj (Option.some.inj hsome)
    exact h.quiet rfl rfl rfl (by simp [nextBytes, hpc]) (by simp [nextPackets, hpc]) (by simp)
  | finish elapsed finish =>
    cases hpc : s.main.pc <;> simp only [MtMain.step, hpc, reduceCtorEq] at hmain
    obtain ⟨rfl, rfl⟩ := Prod.mk.inj (Option.some.inj hmain)
    simp only [nextBytes, nextPackets, hpc] at hlines hb hp
    refine ⟨LinesBelow.mono (hlines.print rfl rfl) hb hp, UInt64.le_refl _, UInt64.le_refl _, ?_⟩
    intro stats hret
    cases hret
    exact ⟨_, List.getLast?_concat, rfl, rfl⟩

theorem lines_reachable {s : MtState c.workerFds.length} (h : Lts.Reachable (step c) (start c) s)
    (hfits : s.Fits) : s.Exact ∧ s.LinesInv := by
  induction h with
  | start => exact ⟨exact_start c, linesInv_start c⟩
  | @next s a s' hreach _ hstep ih =>
    obtain ⟨hexact, hlines⟩ := ih (fits_of_step hstep hfits)
    cases a with
    | main e => exact ⟨hexact.main hstep, hlines.main hstep⟩
    | worker i e =>
      obtain ⟨hexact', hmain, hb, hp⟩ := hexact.worker hstep hfits
      exact ⟨hexact', hlines.grow hmain hb hp⟩

theorem returned_all {s : MtState c.workerFds.length} (h : Lts.Reachable (step c) (start c) s)
    (hfits : s.Fits) {stats : ServerOneWayStats} (hret : s.main.pc = .returned (.ok stats)) :
    stats.bytesReceived = bytesIn s.received ∧ stats.packetsReceived = s.received.length := by
  obtain ⟨⟨hbytes, hpackets⟩, -⟩ := lines_reachable h hfits
  have hsettled := (mtInv_reachable h).settled
  unfold Settled at hsettled
  rw [hret] at hsettled
  obtain ⟨hexit, hb, hp⟩ := hsettled
  rw [hb, hp]
  refine ⟨hbytes.settled (fun i => ?_), hpackets.settled (fun i => ?_)⟩
  · simp only [Worker.heldBytes, Worker.unsyncedBytes, hexit i]
    rfl
  · simp only [Worker.heldPackets, Worker.unsyncedPackets, hexit i]
    rfl

end MtState

/-- While what was received fits the counters, the lines go up, none shows more than was received,
and the last one shows what the call returns: everything. -/
theorem multiWorker_lines (c : MtCall) (s : MtState c.workerFds.length)
    (h : Lts.Reachable (MtState.step c) (MtState.start c) s) (hfits : s.Fits) :
    s.main.printed.Pairwise (fun a b => a.bytes ≤ b.bytes ∧ a.packets ≤ b.packets) ∧
      (∀ line ∈ s.main.printed, line.bytes.toNat ≤ bytesIn s.received ∧
        line.packets.toNat ≤ s.received.length) ∧
      ∀ stats, s.main.pc = .returned (.ok stats) →
        stats.bytesReceived = bytesIn s.received ∧
          stats.packetsReceived = s.received.length ∧
          ∃ line, s.main.printed.getLast? = some line ∧
            line.bytes.toNat = stats.bytesReceived ∧
            line.packets.toNat = stats.packetsReceived := by
  obtain ⟨⟨hbytes, hpackets⟩, hlines⟩ := MtState.lines_reachable h hfits
  have hcounters : s.shared.bytesReceived.toNat ≤ bytesIn s.received ∧
      s.shared.packetsReceived.toNat ≤ s.received.length := by
    unfold SharedCounter.Balanced at hbytes hpackets
    omega
  refine ⟨hlines.lines.ordered, fun line hline => ?_, fun stats hret => ?_⟩
  · obtain ⟨hb, hp⟩ := hlines.lines.below line hline
    exact ⟨(UInt64.le_iff_toNat_le.mp (UInt64.le_trans hb hlines.bytes)).trans hcounters.1,
      (UInt64.le_iff_toNat_le.mp (UInt64.le_trans hp hlines.packets)).trans hcounters.2⟩
  · obtain ⟨hb, hp⟩ := MtState.returned_all h hfits hret
    exact ⟨hb, hp, hlines.last stats hret⟩

theorem multiWorker_lines_twoWorkers :
    ∃ stats, twoWorkersEnd.main.pc = .returned (.ok stats) ∧
      stats.bytesReceived = bytesIn twoWorkersEnd.received ∧
      ∃ line, twoWorkersEnd.main.printed.getLast? = some line ∧
        line.bytes.toNat = stats.bytesReceived := by
  obtain ⟨hbytes, -, line, hlast, hshown, -⟩ := (multiWorker_lines twoWorkers twoWorkersEnd
    (Lts.Reach.start.run twoWorkers_run) ⟨by decide, by decide⟩).2.2 _ rfl
  exact ⟨_, rfl, hbytes, line, hlast, hshown⟩

/-! ### The call returns -/

/-- Steps that a worker still has to take once the flag is down. -/
def Worker.toExit (w : Worker) : ℕ :=
  match w.pc with
  | .exited => 0
  | .send => 1
  | .finalPackets => 2
  | .finalBytes => 3
  | .loadRunning => 4
  | .recvfrom => 5
  | .readClock => 5
  | .syncPackets _ => 5
  | .syncBytes _ => 6

/-- Steps that the main task still has to take once the test is over. -/
def MtMain.toReturn (m : MtMain) : ℕ :=
  match m.pc with
  | .returned _ => 0
  | .summary .. => 1
  | .finalPackets _ => 2
  | .finalBytes => 3
  | .join => 4
  | .drain => 5
  | .stop => 6
  | .intervalLoop => 7
  | .sleeping => 7
  | .loadPackets .. => 8
  | .loadBytes _ => 9

namespace MtState

variable {n : ℕ} {c : MtCall} {s s' : MtState n}

def toReturn (s : MtState n) : ℕ := s.main.toReturn + ∑ i, (s.workers i).toExit

/-- The flag is down when the main task waits for the workers. -/
def Stopped (s : MtState n) : Prop :=
  s.main.pc = .drain ∨ s.main.pc = .join → s.shared.running = false

theorem worker_running {bufferSize : ℕ} {sh sh' : WorkerShared} {w w' : Worker} {e : WorkerEvent}
    (h : w.step bufferSize sh e = some (sh', w')) : sh'.running = sh.running := by
  cases e with
  | fetchAdd =>
    cases hpc : w.pc <;> simp only [Worker.step, hpc, reduceCtorEq] at h
    all_goals
      obtain ⟨rfl, rfl⟩ := Prod.mk.inj (Option.some.inj h)
      rfl
  | _ =>
    cases hpc : w.pc <;> simp only [Worker.step, hpc, reduceCtorEq] at h
    obtain ⟨rfl, rfl⟩ := Prod.mk.inj (Option.some.inj h)
    rfl

theorem Stopped.step {a : MtAction n} (h : s.Stopped) (hstep : s.step c a = some s') :
    s'.Stopped := by
  cases a with
  | worker i e =>
    obtain ⟨⟨sh, w⟩, hworker, rfl⟩ := Option.map_eq_some_iff.mp hstep
    intro hpc
    exact (worker_running hworker).trans (h hpc)
  | main e =>
    obtain ⟨⟨sh, m⟩, hmain, rfl⟩ := Option.map_eq_some_iff.mp hstep
    intro hpc
    cases e with
    | clock now =>
      cases hold : s.main.pc <;> simp only [MtMain.step, hold, reduceCtorEq] at hmain
      all_goals
        obtain ⟨rfl, rfl⟩ := Prod.mk.inj (Option.some.inj hmain)
        by_cases hend : now ≥ c.start + c.duration <;> simp [hend] at hpc
    | load =>
      cases hold : s.main.pc <;> simp only [MtMain.step, hold, reduceCtorEq] at hmain
      all_goals obtain ⟨rfl, rfl⟩ := Prod.mk.inj (Option.some.inj hmain)
      case loadPackets current currentTotal =>
        unfold MtMain.report at hpc
        by_cases hdue : Duration.asSecsF64 (current - s.main.prevIntervalEnd) ≥ 9 / 10 <;>
          simp [hdue] at hpc
      all_goals simp at hpc
    | store =>
      cases hold : s.main.pc <;> simp only [MtMain.step, hold, reduceCtorEq] at hmain
      obtain ⟨rfl, rfl⟩ := Prod.mk.inj (Option.some.inj hmain)
      rfl
    | recv =>
      cases hold : s.main.pc <;> cases hch : s.shared.channel <;>
        simp only [MtMain.step, hold, hch, reduceCtorEq] at hmain
      obtain ⟨rfl, rfl⟩ := Prod.mk.inj (Option.some.inj hmain)
      exact h (.inl hold)
    | recvTimeout =>
      cases hold : s.main.pc <;> simp only [MtMain.step, hold, reduceCtorEq] at hmain
      obtain ⟨rfl, rfl⟩ := Prod.mk.inj (Option.some.inj hmain)
      exact h (.inl hold)
    | join =>
      cases hold : s.main.pc <;> simp only [MtMain.step, hold, reduceCtorEq] at hmain
      obtain ⟨-, hsome⟩ := Option.ite_none_right_eq_some.mp hmain
      obtain ⟨rfl, rfl⟩ := Prod.mk.inj (Option.some.inj hsome)
      simp at hpc
    | finish elapsed finish =>
      cases hold : s.main.pc <;> simp only [MtMain.step, hold, reduceCtorEq] at hmain
      obtain ⟨rfl, rfl⟩ := Prod.mk.inj (Option.some.inj hmain)
      simp at hpc

/-- A worker that has not exited can come closer to it when the flag is down. -/
theorem worker_advances (bufferSize : ℕ) {sh : WorkerShared} (w : Worker)
    (hrunning : sh.running = false) (hpc : w.pc ≠ .exited) :
    ∃ e sh' w', w.step bufferSize sh e = some (sh', w') ∧ w'.toExit < w.toExit := by
  cases h : w.pc with
  | exited => exact absurd h hpc
  | loadRunning =>
    exact ⟨.load, _, _, by simp only [Worker.step, h]; rfl, by simp [Worker.toExit, h, hrunning]⟩
  | recvfrom =>
    exact ⟨.recvError, _, _, by simp only [Worker.step, h]; rfl, by simp [Worker.toExit, h]⟩
  | readClock =>
    refine ⟨.clock w.lastReport, _, _, by simp only [Worker.step, h]; rfl, ?_⟩
    have hsoon : ¬ w.lastReport - w.lastReport ≥ reportInterval := by
      rw [Nat.sub_self]
      decide
    simp only [Worker.toExit, h, if_neg hsoon]
    decide
  | syncBytes now =>
    exact ⟨.fetchAdd, _, _, by simp only [Worker.step, h]; rfl, by simp [Worker.toExit, h]⟩
  | syncPackets now =>
    exact ⟨.fetchAdd, _, _, by simp only [Worker.step, h]; rfl, by simp [Worker.toExit, h]⟩
  | finalBytes =>
    exact ⟨.fetchAdd, _, _, by simp only [Worker.step, h]; rfl, by simp [Worker.toExit, h]⟩
  | finalPackets =>
    exact ⟨.fetchAdd, _, _, by simp only [Worker.step, h]; rfl, by simp [Worker.toExit, h]⟩
  | send => exact ⟨.send, _, _, by simp only [Worker.step, h]; rfl, by simp [Worker.toExit, h]⟩

/-- The main task can come closer to its return unless it waits for a worker. -/
theorem main_advances (s : MtState n) (hret : ∀ r, s.main.pc ≠ .returned r)
    (hjoin : s.main.pc = .join → s.exited) :
    ∃ e sh' m', MtMain.step c (decide s.exited) s.shared s.main e = some (sh', m') ∧
      m'.toReturn < s.main.toReturn := by
  cases h : s.main.pc with
  | returned r => exact absurd h (hret r)
  | intervalLoop =>
    exact ⟨.clock (c.start + c.duration), _, _, by simp only [MtMain.step, h]; rfl,
      by simp [MtMain.toReturn, h]⟩
  | sleeping =>
    exact ⟨.clock (c.start + c.duration), _, _, by simp only [MtMain.step, h]; rfl,
      by simp [MtMain.toReturn, h]⟩
  | loadBytes current =>
    exact ⟨.load, _, _, by simp only [MtMain.step, h]; rfl, by simp [MtMain.toReturn, h]⟩
  | loadPackets current currentTotal =>
    refine ⟨.load, _, _, by simp only [MtMain.step, h]; rfl, ?_⟩
    unfold MtMain.report
    by_cases hdue : Duration.asSecsF64 (current - s.main.prevIntervalEnd) ≥ 9 / 10 <;>
      simp [MtMain.toReturn, h, hdue]
  | stop => exact ⟨.store, _, _, by simp only [MtMain.step, h]; rfl, by simp [MtMain.toReturn, h]⟩
  | drain =>
    exact ⟨.recvTimeout, _, _, by simp only [MtMain.step, h]; rfl, by simp [MtMain.toReturn, h]⟩
  | join =>
    exact ⟨.join, _, _, by simp only [MtMain.step, h, decide_eq_true (hjoin h), if_true]; rfl,
      by simp [MtMain.toReturn, h]⟩
  | finalBytes =>
    exact ⟨.load, _, _, by simp only [MtMain.step, h]; rfl, by simp [MtMain.toReturn, h]⟩
  | finalPackets totalBytes =>
    exact ⟨.load, _, _, by simp only [MtMain.step, h]; rfl, by simp [MtMain.toReturn, h]⟩
  | summary totalBytes totalPackets =>
    exact ⟨.finish 0 0, _, _, by simp only [MtMain.step, h]; rfl, by simp [MtMain.toReturn, h]⟩

theorem advances (hstopped : s.Stopped) (hret : ¬ ∃ r, s.main.pc = .returned r) :
    ∃ a s', s.step c a = some s' ∧ s'.toReturn < s.toReturn := by
  by_cases hwait : s.main.pc = .join ∧ ¬ s.exited
  · obtain ⟨hjoin, hexit⟩ := hwait
    obtain ⟨i, hi⟩ := not_forall.mp hexit
    obtain ⟨e, sh', w', hstep, hlt⟩ := worker_advances c.bufferSize (s.workers i)
      (hstopped (.inr hjoin)) hi
    refine ⟨.worker i e, _, by simp only [step, hstep, Option.map_some]; rfl, ?_⟩
    have hsum : ∑ j, (Function.update s.workers i w' j).toExit < ∑ j, (s.workers j).toExit := by
      refine Finset.sum_lt_sum (fun j _ => ?_) ⟨i, Finset.mem_univ i, ?_⟩
      · by_cases hj : j = i
        · subst hj
          rw [Function.update_self]
          exact hlt.le
        · rw [Function.update_of_ne hj]
      · rw [Function.update_self]
        exact hlt
    exact Nat.add_lt_add_left hsum _
  · have hjoin : s.main.pc = .join → s.exited :=
      fun hjoin => by_contra (fun hexit => hwait ⟨hjoin, hexit⟩)
    obtain ⟨e, sh', m', hstep, hlt⟩ := main_advances (c := c) s (fun r h => hret ⟨r, h⟩) hjoin
    refine ⟨.main e, _, by simp only [step, hstep, Option.map_some]; rfl, ?_⟩
    exact Nat.add_lt_add_right hlt _

end MtState

/-- Wherever the workers and the main task stand, the call can still return. -/
theorem multiWorker_returns (c : MtCall) (s : MtState c.workerFds.length)
    (h : Lts.Reachable (MtState.step c) (MtState.start c) s) :
    ∃ s', Lts.Reachable (MtState.step c) s s' ∧ ∃ r, s'.main.pc = .returned r := by
  have hstopped : s.Stopped := h.invariant
    (by
      intro hpc
      cases hfds : c.workerFds.isEmpty <;>
        simp [MtState.start, MtMain.start, hfds] at hpc)
    (fun _ _ _ hinv _ hstep => hinv.step hstep)
  refine Lts.Reach.attains MtState.toReturn (I := MtState.Stopped) ?_ h hstopped
  intro s _ hs hgoal
  obtain ⟨a, s', hstep, hlt⟩ := MtState.advances hs hgoal
  exact ⟨a, s', trivial, hstep, hs.step hstep, hlt⟩

/-- One worker is about to sync and the other waits for a datagram. -/
def twoWorkersMidway : MtState 2 :=
  (Lts.run (MtState.step twoWorkers) (fun _ _ => True) (MtState.start twoWorkers)
    (twoWorkersSteps.take 5)).getD (MtState.start twoWorkers)

theorem twoWorkersMidway_run :
    Lts.run (MtState.step twoWorkers) (fun _ _ => True) (MtState.start twoWorkers)
      (twoWorkersSteps.take 5) = some twoWorkersMidway :=
  rfl

theorem multiWorker_returns_midway :
    (∀ r, twoWorkersMidway.main.pc ≠ .returned r) ∧
      ∃ s', Lts.Reachable (MtState.step twoWorkers) twoWorkersMidway s' ∧
        ∃ r, s'.main.pc = .returned r :=
  ⟨fun _ h => MtPc.noConfusion h, multiWorker_returns twoWorkers twoWorkersMidway
    (Lts.Reach.start.run twoWorkersMidway_run)⟩

end Rperf3
