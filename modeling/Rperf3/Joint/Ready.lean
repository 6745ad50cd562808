import Rperf3.Joint.Handshake

/-!
# Whether the server is bound when datagrams arrive

The server writes `Start` before it binds its UDP socket (`server.rs:798-831`),
so a client that sends anything can be faster.
-/

namespace Rperf3.Joint
open Rperf3

variable {J : SerdeJson} {cfg : Config} {env : Env} {s s' : State}

/-- The first datagram is handed over when the server is bound, in every session. -/
def StartMeansReady (J : SerdeJson) (cfg : Config) (env : Env) : Prop :=
  ∀ s, Reachable J cfg env s → s.firstDatagram ≠ some false

def sendsDatagrams (cfg : Config) : Prop :=
  udpDispatch cfg = .sendInit ∨ udpDispatch cfg = .udpSend ∧ sendable cfg

instance (cfg : Config) : Decidable (sendsDatagrams cfg) :=
  inferInstanceAs (Decidable (_ ∨ _ ∧ _))

/-! ### No datagram, no first datagram -/

theorem firstDatagram_client (hsilent : ¬ sendsDatagrams cfg) (h : Session J cfg env s)
    (hnone : s.firstDatagram = none) {a : Act} (hrule : ClientRule J cfg s a s') :
    s'.firstDatagram = none := by
  have hfits := h.clientFits
  cases hrule with
  | datagram hpc hs =>
    rw [hpc] at hfits
    exact absurd (.inr ⟨hfits.2, hs⟩) hsilent
  | init hpc =>
    rw [hpc] at hfits
    exact absurd (.inl hfits.2) hsilent
  | @readAck got k p r hpc hr =>
    unfold State.onAck
    split <;> exact hnone
  | @readStart got k p r hpc hr =>
    unfold State.onStart
    split <;> exact hnone
  | @readResult got k p r hpc hr =>
    cases r <;> exact hnone
  | @readDone got k p r hpc hr =>
    cases r <;> exact hnone
  | _ => exact hnone

theorem firstDatagram_server (hnone : s.firstDatagram = none) {a : Act}
    (hrule : ServerRule J env s a s') : s'.firstDatagram = none := by
  cases hrule with
  | @readSetup got k p r hpc hr =>
    cases r with
    | more got' => exact hnone
    | message m =>
      unfold State.onSetup
      simp only
      split <;> exact hnone
  | _ => exact hnone

theorem firstDatagram_silent (hJ : Honest J cfg env) (hsilent : ¬ sendsDatagrams cfg)
    (h : Reachable J cfg env s) : s.firstDatagram = none := by
  have hboth : Session J cfg env s ∧ s.firstDatagram = none := by
    apply h.invariant (I := fun s => Session J cfg env s ∧ s.firstDatagram = none)
    · exact ⟨session_init J cfg env, rfl⟩
    intro s a s' hboth _ hs
    obtain ⟨hinv, hnone⟩ := hboth
    refine ⟨session_step hJ hinv hs, ?_⟩
    cases a with
    | client a => exact firstDatagram_client hsilent hinv hnone (clientStep_rule hJ.setup hs)
    | server a => exact firstDatagram_server hnone (serverStep_rule hJ.ack hJ.start hs)
    | deliver =>
      rcases (deliverStep_cases hs).2 with rfl | ⟨-, rfl⟩
      · exact hnone
      · exact hnone
  exact hboth.2

/-! ### The client can be faster than `bind` -/

theorem sendsDatagrams_unbound (hJ : Honest J cfg env) (hudp : cfg.protocol = .udp)
    (hsends : sendsDatagrams cfg) :
    ∃ s, Reachable J cfg env s ∧ s.firstDatagram = some false := by
  have hbind := bindUdp_reachable hJ hudp
  rcases hsends with hd | ⟨hd, hsend⟩
  · rw [hd] at hbind
    exact ⟨_, hbind.snoc (a := .client .go) rfl, rfl⟩
  · rw [hd] at hbind
    have hsent : Reachable J cfg env
        (State.sendDatagram
          { State.handshaken J cfg env with
            client := .udpSend
            server := .bindUdp cfg.serverTest }) := by
      refine hbind.snoc (a := .client (.transfer 0)) ?_
      exact if_pos hsend
    exact ⟨_, hsent, rfl⟩

/-- `Start` means ready exactly when the client sends no datagram. -/
theorem startMeansReady_iff (hJ : Honest J cfg env) (hudp : cfg.protocol = .udp) :
    StartMeansReady J cfg env ↔ ¬ sendsDatagrams cfg := by
  constructor
  · intro hready hsends
    obtain ⟨s, hreach, hfirst⟩ := sendsDatagrams_unbound hJ hudp hsends
    exact hready s hreach hfirst
  · intro hsilent s hreach
    rw [firstDatagram_silent hJ hsilent hreach]
    simp

theorem startMeansReady_iff_udpLongTest :
    StartMeansReady (.ofTable sessionTexts) udpLongTest localEnv :=
  (startMeansReady_iff udpLongTest_honest rfl).mpr (by decide)

/-- A client in normal mode sends its first datagram before the server's `bind`. -/
theorem udpTest_not_ready : ¬ StartMeansReady (.ofTable sessionTexts) udpTest localEnv := by
  intro hready
  obtain ⟨s, hreach, hfirst⟩ := sendsDatagrams_unbound udpTest_honest rfl (by decide)
  exact hready s hreach hfirst

end Rperf3.Joint
