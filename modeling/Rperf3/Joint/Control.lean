import Rperf3.Protocol

/-!
# One direction of the control connection

A pipe is all that has been written to it, how much of it has been read, and
whether it is closed. Every octet remembers whether it is test data (written by
`send_data`) or part of a frame; the programs see its byte only. A party that is
inside `deserialize_message` keeps the bytes of the frame it has so far.
-/

namespace Rperf3.Joint
open Rperf3

structure Octet where
  byte : UInt8
  data : Bool
  deriving DecidableEq

structure Pipe where
  sent : List Octet
  read : ℕ
  closed : Bool
  inside : read ≤ sent.length
  deriving DecidableEq

def frameOctets (bytes : Bytes) : List Octet := bytes.map (⟨·, false⟩)

/-- Zero bytes of a pooled buffer. -/
def dataOctets (n : ℕ) : List Octet := List.replicate n ⟨0, true⟩

namespace Pipe

def empty : Pipe := ⟨[], 0, false, le_rfl⟩
def unread (p : Pipe) : List Octet := p.sent.drop p.read
def write (p : Pipe) (os : List Octet) : Pipe :=
  { p with
    sent := p.sent ++ os
    inside := by
      rw [List.length_append]
      exact Nat.le_add_right_of_le p.inside }
def advance (p : Pipe) (k : ℕ) : Pipe :=
  { p with
    read := min (p.read + k) p.sent.length
    inside := Nat.min_le_right _ _ }
def close (p : Pipe) : Pipe := { p with closed := true }

end Pipe

/-! ### Reading a frame -/

/-- Length of the frame that begins with `got`, as far as `got` tells: the length prefix, and
once it is there the announced bytes too. -/
def need (got : Bytes) : ℕ :=
  if got.length < 4 then 4 else 4 + (fromBeBytes (got.take 4)).toNat

inductive FrameRead where
  | more (got : Bytes)
  | message (m : Except Error Message)

/-- `deserialize_message` after `got`: `k` more bytes arrive, or with `k = 0` the end of the
stream. Several reads in a row may be taken as one, but never past the end of the frame. -/
def readFrame (J : SerdeJson) (p : Pipe) (got : Bytes) (k : ℕ) : Option (Pipe × FrameRead) :=
  if k = 0 then
    if p.unread = [] ∧ p.closed = true then
      some (p, .message (.error (.io .unexpectedEof)))
    else none
  else if k ≤ p.unread.length then
    let got := got ++ (p.unread.take k).map Octet.byte
    if need got < got.length then none
    else if got.length = need got then
      some (p.advance k, .message (J.fromSlice (got.drop 4)))
    else some (p.advance k, .more got)
  else none

/-! ### Octets of frames -/

@[simp] theorem frameOctets_append (bs cs : Bytes) :
    frameOctets (bs ++ cs) = frameOctets bs ++ frameOctets cs := List.map_append

@[simp] theorem length_frameOctets (bs : Bytes) : (frameOctets bs).length = bs.length :=
  List.length_map _

theorem frameOctets_injective {bs cs : Bytes} (h : frameOctets bs = frameOctets cs) : bs = cs :=
  List.map_injective_iff.mpr (fun _ _ h => congrArg Octet.byte h) h

@[simp] theorem unread_write (p : Pipe) (os : List Octet) :
    (p.write os).unread = p.unread ++ os :=
  List.drop_append_of_le_length p.inside

@[simp] theorem unread_advance (p : Pipe) (k : ℕ) : (p.advance k).unread = p.unread.drop k := by
  show p.sent.drop (min (p.read + k) p.sent.length) = (p.sent.drop p.read).drop k
  rw [List.drop_drop]
  by_cases hk : p.read + k ≤ p.sent.length
  · rw [Nat.min_eq_left hk]
  · rw [Nat.min_eq_right (by omega), List.drop_length, List.drop_of_length_le (by omega)]

theorem advance_zero (p : Pipe) : p.advance 0 = p := by
  cases p with
  | mk sent read closed inside => simp only [Pipe.advance, Nat.add_zero, Nat.min_eq_left inside]

@[simp] theorem unread_close (p : Pipe) : p.close.unread = p.unread := rfl

/-! ### Frames of messages -/

theorem need_frame {json got rest : Bytes} (hlen : json.length < 2 ^ 32)
    (hgot : 4 ≤ got.length) (h : got <+: frame json ++ rest) :
    need got = (frame json).length := by
  obtain ⟨t, ht⟩ := h
  have htake : got.take 4 = toBeBytes (UInt32.ofNat json.length) := by
    rw [← take_frame json rest, ← ht, List.take_append_of_le_length hgot]
  rw [need, if_neg (by omega), htake, fromBeBytes_toBeBytes, announced_length json hlen,
    length_frame]

theorem need_le_frame {json got rest : Bytes} (hlen : json.length < 2 ^ 32)
    (h : got <+: frame json ++ rest) : need got ≤ (frame json).length := by
  by_cases hgot : got.length < 4
  · rw [need, if_pos hgot, length_frame]
    omega
  · exact (need_frame hlen (by omega) h).le

theorem gathered_octets {F : Bytes} (got : Bytes) {unread rest : List Octet} {k : ℕ}
    (hstream : frameOctets got ++ unread = frameOctets F ++ rest)
    (hfit : got.length + k ≤ F.length) :
    got ++ (unread.take k).map Octet.byte = F.take (got.length + k) ∧
    frameOctets (got ++ (unread.take k).map Octet.byte) ++ unread.drop k =
      frameOctets F ++ rest := by
  have htake : frameOctets got ++ unread.take k = frameOctets (F.take (got.length + k)) := by
    have h := congrArg (List.take (got.length + k)) hstream
    rw [List.take_append, length_frameOctets, List.take_of_length_le (by simp),
      Nat.add_sub_cancel_left, List.take_append_of_le_length (by simpa using hfit)] at h
    rw [h, frameOctets, frameOctets, List.map_take]
  have hgot : got ++ (unread.take k).map Octet.byte = F.take (got.length + k) := by
    have h := congrArg (List.map Octet.byte) htake
    have hbytes : ∀ bs : Bytes, (frameOctets bs).map Octet.byte = bs := by
      intro bs
      rw [frameOctets, List.map_map]
      exact List.map_id bs
    rw [List.map_append, hbytes, hbytes] at h
    exact h
  refine ⟨hgot, ?_⟩
  rw [hgot, ← htake, List.append_assoc, List.take_append_drop, hstream]

theorem readFrame_advance {J : SerdeJson} {p p' : Pipe} {got : Bytes} {k : ℕ} {r : FrameRead}
    (h : readFrame J p got k = some (p', r)) : p' = p.advance k ∧ k ≤ p.unread.length := by
  unfold readFrame at h
  by_cases hk : k = 0
  · rw [if_pos hk] at h
    obtain ⟨-, hsome⟩ := Option.ite_none_right_eq_some.mp h
    cases hsome
    subst hk
    exact ⟨(advance_zero p).symm, Nat.zero_le _⟩
  · rw [if_neg hk] at h
    obtain ⟨hle, hsome⟩ := Option.ite_none_right_eq_some.mp h
    obtain ⟨-, hsome⟩ := Option.ite_none_left_eq_some.mp hsome
    refine ⟨?_, hle⟩
    split at hsome <;> cases hsome <;> rfl

theorem incomplete_unread {J : SerdeJson} {m : Message} (hm : J.Carries m) {got : Bytes}
    {unread rest : List Octet}
    (hstream : frameOctets got ++ unread = frameOctets (wireBytes J m) ++ rest)
    (hinc : got.length < need got) : unread ≠ [] := by
  obtain ⟨json, hto, hlen, -⟩ := hm
  rw [wireBytes_of_toVec hto] at hstream
  rintro rfl
  have hbytes := congrArg (List.map Octet.byte) hstream
  simp only [frameOctets, List.map_append, List.map_map, Function.comp_def, List.map_id',
    List.append_nil] at hbytes
  have hpre : got <+: frame json ++ rest.map Octet.byte := hbytes ▸ List.prefix_refl _
  have hle := need_le_frame hlen hpre
  have hlength := congrArg List.length hbytes
  rw [List.length_append] at hlength
  omega

/-- What a read of a waiting frame does: it either leaves the frame incomplete, or it returns
exactly the message and leaves what follows the frame. -/
theorem readFrame_frame {J : SerdeJson} {m : Message} (hm : J.Carries m) {p p' : Pipe}
    {got : Bytes} {k : ℕ} {r : FrameRead} {rest : List Octet}
    (h : readFrame J p got k = some (p', r))
    (hstream : frameOctets got ++ p.unread = frameOctets (wireBytes J m) ++ rest)
    (hinc : got.length < need got) :
    (∃ got', r = .more got' ∧ got'.length < need got' ∧
        frameOctets got' ++ p'.unread = frameOctets (wireBytes J m) ++ rest) ∨
      (r = .message (.ok m) ∧ p'.unread = rest) := by
  have hunread := incomplete_unread hm hstream hinc
  obtain ⟨hp', hle⟩ := readFrame_advance h
  obtain ⟨json, hto, hlen, hfrom⟩ := hm
  rw [wireBytes_of_toVec hto] at hstream ⊢
  have hbytes := congrArg (List.map Octet.byte) hstream
  simp only [frameOctets, List.map_append, List.map_map, Function.comp_def, List.map_id'] at hbytes
  unfold readFrame at h
  by_cases hk : k = 0
  · -- the end of the stream cannot be inside a frame that was written as a whole
    rw [if_pos hk, if_neg (fun heof => hunread heof.1)] at h
    exact nomatch h
  · rw [if_neg hk, if_pos hle] at h
    have hlength : (got ++ (p.unread.take k).map Octet.byte).length = got.length + k := by
      rw [List.length_append, List.length_map, List.length_take, Nat.min_eq_left hle]
    have hpre : got ++ (p.unread.take k).map Octet.byte <+: frame json ++ rest.map Octet.byte := by
      refine ⟨(p.unread.drop k).map Octet.byte, ?_⟩
      rw [List.append_assoc, ← List.map_append, List.take_append_drop, hbytes]
    have hfit := need_le_frame hlen hpre
    by_cases hover : need (got ++ (p.unread.take k).map Octet.byte) <
        (got ++ (p.unread.take k).map Octet.byte).length
    · simp only [if_pos hover] at h
      exact nomatch h
    · simp only [if_neg hover] at h
      have hlen' : got.length + k ≤ (frame json).length := by omega
      obtain ⟨hgot, hrest⟩ := gathered_octets got hstream hlen'
      rw [hp', unread_advance]
      by_cases hdone : (got ++ (p.unread.take k).map Octet.byte).length =
          need (got ++ (p.unread.take k).map Octet.byte)
      · rw [if_pos hdone] at h
        cases h
        right
        -- the prefix is complete, so the whole frame has been gathered
        have h4 : 4 ≤ (got ++ (p.unread.take k).map Octet.byte).length := by
          by_contra hlt
          rw [need, if_pos (by omega)] at hdone
          omega
        have hfull := need_frame hlen h4 hpre
        have hF : got ++ (p.unread.take k).map Octet.byte = frame json := by
          rw [hgot]
          exact List.take_of_length_le (by omega)
        have hdrop : (frame json).drop 4 = json := by
          simpa using drop_frame json []
        rw [hF] at hrest ⊢
        rw [hdrop, hfrom]
        exact ⟨rfl, List.append_cancel_left hrest⟩
      · rw [if_neg hdone] at h
        cases h
        exact .inl ⟨_, rfl, by omega, hrest⟩

theorem readFrame_whole {J : SerdeJson} {m : Message} (hm : J.Carries m) {p : Pipe}
    {rest : List Octet} (hunread : p.unread = frameOctets (wireBytes J m) ++ rest) :
    readFrame J p [] (wireBytes J m).length =
      some (p.advance (wireBytes J m).length, .message (.ok m)) := by
  obtain ⟨json, hto, hlen, hfrom⟩ := hm
  rw [wireBytes_of_toVec hto] at hunread ⊢
  have hne : (frame json).length ≠ 0 := by
    rw [length_frame]
    omega
  have hle : (frame json).length ≤ p.unread.length := by
    rw [hunread, List.length_append, length_frameOctets]
    omega
  have hgot : (p.unread.take (frame json).length).map Octet.byte = frame json := by
    have h := (gathered_octets [] (k := (frame json).length) hunread
      (by rw [List.length_nil, Nat.zero_add])).1
    rw [List.nil_append, List.length_nil, Nat.zero_add, List.take_length] at h
    exact h
  have hself : frame json <+: frame json ++ [] := List.prefix_append _ _
  have hneed : need (frame json) = (frame json).length :=
    need_frame hlen (by rw [length_frame]; omega) hself
  have hdrop : (frame json).drop 4 = json := by
    simpa using drop_frame json []
  unfold readFrame
  rw [if_neg hne, if_pos hle, List.nil_append, hgot]
  simp only [hneed, lt_irrefl, if_false, if_true, hdrop, hfrom]

theorem wireBytes_ne_nil {J : SerdeJson} {m : Message} (hm : J.Carries m) : wireBytes J m ≠ [] :=
  (wireBytes_delimits J).nonempty m hm

/-! ### The reader and `deserialize_message` -/

theorem decodeFrame_incomplete (J : SerdeJson) {got : Bytes} (hinc : got.length < need got) :
    decodeFrame J got = (.error (.io .unexpectedEof), []) := by
  unfold decodeFrame
  by_cases h4 : got.length < 4
  · rw [if_pos h4]
  · rw [need, if_neg h4] at hinc
    have hbody : (got.drop 4).length < (fromBeBytes (got.take 4)).toNat := by
      rw [List.length_drop]
      omega
    rw [if_neg h4]
    simp only [if_pos hbody]

theorem decodeFrame_complete (J : SerdeJson) {got : Bytes} (hall : got.length = need got)
    (rest : Bytes) : decodeFrame J (got ++ rest) = (J.fromSlice (got.drop 4), rest) := by
  have h4 : 4 ≤ got.length := by
    by_contra hlt
    rw [need, if_pos (by omega)] at hall
    omega
  rw [need, if_neg (by omega)] at hall
  have htake : (got ++ rest).take 4 = got.take 4 := List.take_append_of_le_length h4
  have hdrop : (got ++ rest).drop 4 = got.drop 4 ++ rest := List.drop_append_of_le_length h4
  have hbody : (fromBeBytes (got.take 4)).toNat = (got.drop 4).length := by
    rw [List.length_drop]
    omega
  unfold decodeFrame
  rw [if_neg (by rw [List.length_append]; omega)]
  simp only [htake, hdrop, hbody]
  rw [if_neg (by rw [List.length_append]; omega), List.take_left, List.drop_left]

/-- Read by read, `readFrame` computes `decodeFrame` on the bytes it has and those unread. -/
theorem readFrame_decodeFrame {J : SerdeJson} {p p' : Pipe} {got : Bytes} {k : ℕ} {r : FrameRead}
    (h : readFrame J p got k = some (p', r)) (hinc : got.length < need got) :
    (∀ got', r = .more got' → got'.length < need got' ∧
      got' ++ p'.unread.map Octet.byte = got ++ p.unread.map Octet.byte) ∧
    (∀ m, r = .message m →
      decodeFrame J (got ++ p.unread.map Octet.byte) = (m, p'.unread.map Octet.byte)) := by
  obtain ⟨hp', hk⟩ := readFrame_advance h
  unfold readFrame at h
  by_cases hzero : k = 0
  · rw [if_pos hzero] at h
    obtain ⟨⟨hnil, -⟩, hsome⟩ := Option.ite_none_right_eq_some.mp h
    cases hsome
    refine ⟨fun got' hr => (nomatch hr), fun m hr => ?_⟩
    cases hr
    rw [hnil, List.map_nil, List.append_nil]
    exact decodeFrame_incomplete J hinc
  · rw [if_neg hzero, if_pos hk] at h
    have hbytes : got ++ p.unread.map Octet.byte =
        got ++ (p.unread.take k).map Octet.byte ++ (p.unread.drop k).map Octet.byte := by
      rw [List.append_assoc, ← List.map_append, List.take_append_drop]
    rw [hbytes]
    obtain ⟨hle, hsome⟩ := Option.ite_none_left_eq_some.mp h
    generalize got ++ (p.unread.take k).map Octet.byte = g at hle hsome
    by_cases hdone : g.length = need g
    · rw [if_pos hdone] at hsome
      cases hsome
      refine ⟨fun got' hr => (nomatch hr), fun m hr => ?_⟩
      cases hr
      rw [unread_advance]
      exact decodeFrame_complete J hdone _
    · rw [if_neg hdone] at hsome
      cases hsome
      refine ⟨fun got' hr => ?_, fun m hr => nomatch hr⟩
      cases hr
      rw [unread_advance]
      exact ⟨by omega, rfl⟩

/-! ### A reader between two frames -/

theorem readFrame_eof {J : SerdeJson} {p p' : Pipe} (hp : p.unread = []) {got : Bytes} {k : ℕ}
    {r : FrameRead} (h : readFrame J p got k = some (p', r)) :
    p.closed = true ∧ r = .message (.error (.io .unexpectedEof)) := by
  obtain ⟨-, hk⟩ := readFrame_advance h
  rw [hp, List.length_nil, Nat.le_zero] at hk
  unfold readFrame at h
  rw [if_pos hk] at h
  obtain ⟨heof, hsome⟩ := Option.ite_none_right_eq_some.mp h
  cases hsome
  exact ⟨heof.2, rfl⟩

/-- The reader has consumed `pre` and the incomplete frame `got`; the rest is unread. -/
def Gathering (pre : List Octet) (got : Bytes) (p : Pipe) : Prop :=
  got.length < need got ∧ pre ++ frameOctets got ++ p.unread = p.sent

theorem Gathering.begin {pre : List Octet} {p : Pipe} (h : pre ++ p.unread = p.sent) :
    Gathering pre [] p :=
  ⟨by decide, by rw [← h]; simp [frameOctets]⟩

theorem Gathering.write {pre : List Octet} {got : Bytes} {p : Pipe} (os : List Octet)
    (h : Gathering pre got p) : Gathering pre got (p.write os) := by
  refine ⟨h.1, ?_⟩
  rw [unread_write, ← List.append_assoc, h.2]
  rfl

theorem Gathering.all {pre : List Octet} {got : Bytes} {p : Pipe} (h : Gathering pre got p)
    (hall : p.sent = pre) : p.unread = [] := by
  have hgot := h.2
  rw [hall, List.append_assoc] at hgot
  exact (List.append_eq_nil_iff.mp (List.append_right_eq_self.mp hgot)).2

/-- A read of the frame after `pre`, whether it has been written already or not. -/
theorem Gathering.read {J : SerdeJson} {m : Message} (hm : J.Carries m) {p p' : Pipe}
    {pre : List Octet} {got : Bytes} {k : ℕ} {r : FrameRead} (h : Gathering pre got p)
    (hsent : pre ++ frameOctets (wireBytes J m) <+: p.sent ∨ p.sent = pre ∧ p.closed = false)
    (hr : readFrame J p got k = some (p', r)) :
    (∃ got', r = .more got' ∧ Gathering pre got' p') ∨
      r = .message (.ok m) ∧ pre ++ frameOctets (wireBytes J m) ++ p'.unread = p'.sent := by
  rcases hsent with ⟨rest, hrest⟩ | ⟨hpre, hopen⟩
  · obtain ⟨hinc, hgot⟩ := h
    have hstream : frameOctets got ++ p.unread = frameOctets (wireBytes J m) ++ rest := by
      rw [← hgot, List.append_assoc, List.append_assoc] at hrest
      exact (List.append_cancel_left hrest).symm
    have hsent' : p'.sent = p.sent := by
      rw [(readFrame_advance hr).1]
      rfl
    rcases readFrame_frame hm hr hstream hinc with
      ⟨got', hmore, hinc', hstream'⟩ | ⟨hmsg, hunread⟩
    · refine .inl ⟨got', hmore, hinc', ?_⟩
      rw [List.append_assoc, hstream', ← List.append_assoc, hrest, hsent']
    · refine .inr ⟨hmsg, ?_⟩
      rw [hunread, hrest, hsent']
  · exact Bool.noConfusion (hopen.symm.trans (readFrame_eof (h.all hpre) hr).1)

theorem Gathering.unread_ne_nil {J : SerdeJson} {m : Message} (hm : J.Carries m) {p : Pipe}
    {pre : List Octet} {got : Bytes} (h : Gathering pre got p)
    (hsent : pre ++ frameOctets (wireBytes J m) <+: p.sent) : p.unread ≠ [] := by
  obtain ⟨rest, hrest⟩ := hsent
  rw [← h.2, List.append_assoc, List.append_assoc] at hrest
  exact incomplete_unread hm (List.append_cancel_left hrest).symm h.1

end Rperf3.Joint
