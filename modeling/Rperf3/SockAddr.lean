import Rperf3.Library.LittleEndian
import Rperf3.BatchSocket

/-!
# Socket addresses in memory (`batch_socket.rs:219-260`, `461-487`)

`send_mmsg_sync` writes a `SocketAddr` into a zeroed `sockaddr_storage`, and
`recv_mmsg_sync` reads one back with `sockaddr_to_socketaddr`. Both work on the
memory of a little-endian machine: a `sockaddr_in` or `sockaddr_in6` is the
sequence of its fields' bytes, and `to_be` and `from_be` swap them.
-/

namespace Rperf3

/-! ### Numbers in memory -/

namespace Memory

def u16 (x : UInt16) : Bytes := LittleEndian.encode 2 x.toNat
def u32 (x : UInt32) : Bytes := LittleEndian.encode 4 x.toNat

def readU16 (bs : Bytes) : UInt16 := UInt16.ofNat (LittleEndian.decode bs)
def readU32 (bs : Bytes) : UInt32 := UInt32.ofNat (LittleEndian.decode bs)

def field (memory : Bytes) (offset size : ℕ) : Bytes := (memory.drop offset).take size

@[simp] theorem length_u16 (x : UInt16) : (u16 x).length = 2 := LittleEndian.length_encode ..
@[simp] theorem length_u32 (x : UInt32) : (u32 x).length = 4 := LittleEndian.length_encode ..

@[simp] theorem readU16_u16 (x : UInt16) : readU16 (u16 x) = x := by
  have hlt : x.toNat < 256 ^ 2 := x.toNat_lt
  rw [readU16, u16, LittleEndian.decode_encode_of_lt hlt, UInt16.ofNat_toNat]

@[simp] theorem readU32_u32 (x : UInt32) : readU32 (u32 x) = x := by
  have hlt : x.toNat < 256 ^ 4 := x.toNat_lt
  rw [readU32, u32, LittleEndian.decode_encode_of_lt hlt, UInt32.ofNat_toNat]

theorem toNat_readU32 {bs : Bytes} (h : bs.length = 4) :
    (readU32 bs).toNat = LittleEndian.decode bs :=
  UInt32.toNat_ofNat_of_lt (lt_of_lt_of_eq (LittleEndian.decode_lt bs) (by rw [h]; rfl))

theorem field_append {front fld rest : Bytes} {offset size : ℕ} (hfront : front.length = offset)
    (hfld : fld.length = size) : field (front ++ (fld ++ rest)) offset size = fld := by
  rw [field, List.drop_left' hfront, List.take_left' hfld]

theorem field_skip {front : Bytes} {k : ℕ} (h : front.length = k) (rest : Bytes)
    (offset size : ℕ) : field (front ++ rest) (k + offset) size = field rest offset size := by
  rw [field, ← List.drop_drop, List.drop_left' h, field]

end Memory

/-- `u16::to_be` and `u16::from_be`. -/
def swapU16 (x : UInt16) : UInt16 := UInt16.ofNat (LittleEndian.swapBytes 2 x.toNat)

/-- `u32::from_be`. -/
def swapU32 (x : UInt32) : UInt32 := UInt32.ofNat (LittleEndian.swapBytes 4 x.toNat)

/-- `u32::from_ne_bytes`. -/
def fromNeBytes (octets : Vector UInt8 4) : UInt32 := Memory.readU32 octets.toList

/-- `u32::to_ne_bytes`. -/
def toNeBytes (x : UInt32) : Vector UInt8 4 :=
  ⟨(Memory.u32 x).toArray, by rw [List.size_toArray, Memory.length_u32]⟩

/-! ### The structures of `libc` -/

def afInet : UInt16 := 2
def afInet6 : UInt16 := 10

structure SockaddrIn where
  sinFamily : UInt16
  sinPort : UInt16
  sAddr : UInt32
  deriving DecidableEq

structure SockaddrIn6 where
  sin6Family : UInt16
  sin6Port : UInt16
  sin6Flowinfo : UInt32
  sin6Addr : Vector UInt8 16
  sin6ScopeId : UInt32
  deriving DecidableEq

/-- The fields in memory, the last eight bytes being `sin_zero`. -/
def SockaddrIn.image (sin : SockaddrIn) : Bytes :=
  Memory.u16 sin.sinFamily ++ (Memory.u16 sin.sinPort ++
    (Memory.u32 sin.sAddr ++ List.replicate 8 0))

def SockaddrIn6.image (sin6 : SockaddrIn6) : Bytes :=
  Memory.u16 sin6.sin6Family ++ (Memory.u16 sin6.sin6Port ++
    (Memory.u32 sin6.sin6Flowinfo ++ (sin6.sin6Addr.toList ++ Memory.u32 sin6.sin6ScopeId)))

def SockaddrIn.view (storage : Bytes) : SockaddrIn where
  sinFamily := Memory.readU16 (Memory.field storage 0 2)
  sinPort := Memory.readU16 (Memory.field storage 2 2)
  sAddr := Memory.readU32 (Memory.field storage 4 4)

def octets16 (bs : Bytes) : Vector UInt8 16 := Vector.ofFn (fun i => bs.getD i 0)

def SockaddrIn6.view (storage : Bytes) : SockaddrIn6 where
  sin6Family := Memory.readU16 (Memory.field storage 0 2)
  sin6Port := Memory.readU16 (Memory.field storage 2 2)
  sin6Flowinfo := Memory.readU32 (Memory.field storage 4 4)
  sin6Addr := octets16 (Memory.field storage 8 16)
  sin6ScopeId := Memory.readU32 (Memory.field storage 24 4)

/-- `mem::zeroed` and `copy_nonoverlapping` into a `sockaddr_storage`. -/
def storageWith (image : Bytes) : Bytes := image ++ List.replicate (128 - image.length) 0

/-- The storage `send_mmsg_sync` builds for an address. -/
def SocketAddr.storage : SocketAddr → Bytes
  | .v4 ip port => storageWith (SockaddrIn.image
      { sinFamily := afInet
        sinPort := swapU16 port
        sAddr := fromNeBytes ip })
  | .v6 ip port _ _ => storageWith (SockaddrIn6.image
      { sin6Family := afInet6
        sin6Port := swapU16 port
        sin6Flowinfo := 0
        sin6Addr := ip
        sin6ScopeId := 0 })

def ssFamily (storage : Bytes) : UInt16 := Memory.readU16 (Memory.field storage 0 2)

/-- `sockaddr_to_socketaddr`; another address family is an `InvalidInput` error. -/
def sockaddrToSocketaddr (storage : Bytes) : Except ErrorKind SocketAddr :=
  if ssFamily storage = afInet then
    let sin := SockaddrIn.view storage
    .ok (.v4 (toNeBytes (swapU32 sin.sAddr)) (swapU16 sin.sinPort))
  else if ssFamily storage = afInet6 then
    let sin6 := SockaddrIn6.view storage
    .ok (.v6 sin6.sin6Addr (swapU16 sin6.sin6Port) 0 0)
  else .error .other

/-! ### Reading back what was written -/

@[simp] theorem swapU16_swapU16 (x : UInt16) : swapU16 (swapU16 x) = x := by
  have hlt : LittleEndian.swapBytes 2 x.toNat < 2 ^ 16 := LittleEndian.swapBytes_lt 2 x.toNat
  unfold swapU16
  rw [UInt16.toNat_ofNat_of_lt' hlt, LittleEndian.swapBytes_swapBytes (k := 2) x.toNat_lt,
    UInt16.ofNat_toNat]

theorem toNeBytes_swapU32 (octets : Vector UInt8 4) :
    toNeBytes (swapU32 (fromNeBytes octets)) = octets.reverse := by
  have hlength : octets.toList.length = 4 := octets.length_toList
  have hlt : LittleEndian.swapBytes 4 (fromNeBytes octets).toNat < 2 ^ 32 :=
    LittleEndian.swapBytes_lt 4 _
  have hbytes : Memory.u32 (swapU32 (fromNeBytes octets)) = octets.toList.reverse := by
    rw [Memory.u32, swapU32, UInt32.toNat_ofNat_of_lt' hlt, LittleEndian.encode_swapBytes,
      fromNeBytes, Memory.toNat_readU32 hlength, LittleEndian.encode_decode_of_length hlength]
  refine Vector.toList_inj.mp ?_
  rw [Vector.toList_reverse, ← hbytes]
  rfl

theorem octets16_toList (ip : Vector UInt8 16) : octets16 ip.toList = ip := by
  ext i hi
  simp [octets16]

theorem SockaddrIn.view_image (sin : SockaddrIn) (rest : Bytes) :
    SockaddrIn.view (sin.image ++ rest) = sin := by
  have hfamily : Memory.field (sin.image ++ rest) 0 2 = Memory.u16 sin.sinFamily := by
    simp only [image, List.append_assoc]
    exact Memory.field_append (rfl : ([] : Bytes).length = 0) (Memory.length_u16 _)
  have hport : Memory.field (sin.image ++ rest) 2 2 = Memory.u16 sin.sinPort := by
    simp only [image, List.append_assoc]
    exact Memory.field_append (Memory.length_u16 _) (Memory.length_u16 _)
  have haddr : Memory.field (sin.image ++ rest) 4 4 = Memory.u32 sin.sAddr := by
    simp only [image, List.append_assoc]
    rw [Memory.field_skip (k := 2) (Memory.length_u16 _) _ 2]
    exact Memory.field_append (Memory.length_u16 _) (Memory.length_u32 _)
  rw [view, hfamily, hport, haddr, Memory.readU16_u16, Memory.readU16_u16, Memory.readU32_u32]

theorem SockaddrIn6.view_image (sin6 : SockaddrIn6) (rest : Bytes) :
    SockaddrIn6.view (sin6.image ++ rest) = sin6 := by
  have hoctets : sin6.sin6Addr.toList.length = 16 := sin6.sin6Addr.length_toList
  have hfamily : Memory.field (sin6.image ++ rest) 0 2 = Memory.u16 sin6.sin6Family := by
    simp only [image, List.append_assoc]
    exact Memory.field_append (rfl : ([] : Bytes).length = 0) (Memory.length_u16 _)
  have hport : Memory.field (sin6.image ++ rest) 2 2 = Memory.u16 sin6.sin6Port := by
    simp only [image, List.append_assoc]
    exact Memory.field_append (Memory.length_u16 _) (Memory.length_u16 _)
  have hflowinfo : Memory.field (sin6.image ++ rest) 4 4 = Memory.u32 sin6.sin6Flowinfo := by
    simp only [image, List.append_assoc]
    rw [Memory.field_skip (k := 2) (Memory.length_u16 _) _ 2]
    exact Memory.field_append (Memory.length_u16 _) (Memory.length_u32 _)
  have haddr : Memory.field (sin6.image ++ rest) 8 16 = sin6.sin6Addr.toList := by
    simp only [image, List.append_assoc]
    rw [Memory.field_skip (k := 2) (Memory.length_u16 _) _ 6,
      Memory.field_skip (k := 2) (Memory.length_u16 _) _ 4]
    exact Memory.field_append (Memory.length_u32 _) hoctets
  have hscope : Memory.field (sin6.image ++ rest) 24 4 = Memory.u32 sin6.sin6ScopeId := by
    simp only [image, List.append_assoc]
    rw [Memory.field_skip (k := 2) (Memory.length_u16 _) _ 22,
      Memory.field_skip (k := 2) (Memory.length_u16 _) _ 20,
      Memory.field_skip (k := 4) (Memory.length_u32 _) _ 16]
    exact Memory.field_append hoctets (Memory.length_u32 _)
  rw [view, hfamily, hport, hflowinfo, haddr, hscope, octets16_toList, Memory.readU16_u16,
    Memory.readU16_u16, Memory.readU32_u32, Memory.readU32_u32]

/-- What is read back: IPv4 octets in the reverse order, and no flow info or scope. -/
theorem sockaddrToSocketaddr_storage (addr : SocketAddr) :
    sockaddrToSocketaddr addr.storage = .ok
      (match addr with
        | .v4 ip port => .v4 ip.reverse port
        | .v6 ip port _ _ => .v6 ip port 0 0) := by
  cases addr with
  | v4 ip port =>
    have hview := SockaddrIn.view_image ⟨afInet, swapU16 port, fromNeBytes ip⟩
    simp only [SocketAddr.storage, storageWith]
    generalize List.replicate _ (0 : UInt8) = rest
    have hfamily : ssFamily _ = _ := congrArg SockaddrIn.sinFamily (hview rest)
    rw [sockaddrToSocketaddr]
    simp only [hfamily, hview, if_true, toNeBytes_swapU32, swapU16_swapU16]
  | v6 ip port flowinfo scopeId =>
    have hview := SockaddrIn6.view_image ⟨afInet6, swapU16 port, 0, ip, 0⟩
    have hother : afInet6 ≠ afInet := by decide
    simp only [SocketAddr.storage, storageWith]
    generalize List.replicate _ (0 : UInt8) = rest
    have hfamily : ssFamily _ = _ := congrArg SockaddrIn6.sin6Family (hview rest)
    rw [sockaddrToSocketaddr]
    simp only [hfamily, hview, if_neg hother, if_true, swapU16_swapU16]

/-- IPv4 octets that read the same backwards, or IPv6. -/
def SocketAddr.Symmetric : SocketAddr → Prop
  | .v4 ip _ => ip[0] = ip[3] ∧ ip[1] = ip[2]
  | .v6 .. => True

/-- No flow info and no scope id. -/
def SocketAddr.Plain : SocketAddr → Prop
  | .v4 .. => True
  | .v6 _ _ flowinfo scopeId => flowinfo = 0 ∧ scopeId = 0

theorem reverse_eq_iff (octets : Vector UInt8 4) :
    octets.reverse = octets ↔ octets[0] = octets[3] ∧ octets[1] = octets[2] := by
  constructor
  · intro h
    have hoctet (i : ℕ) (hi : i < 4) : octets.reverse[i] = octets[i] := by rw [h]
    have hfirst := hoctet 0 (by decide)
    have hsecond := hoctet 1 (by decide)
    rw [Vector.getElem_reverse] at hfirst hsecond
    exact ⟨hfirst.symm, hsecond.symm⟩
  · rintro ⟨houter, hinner⟩
    ext i hi
    rw [Vector.getElem_reverse]
    match i, hi with
    | 0, _ => exact congrArg _ houter.symm
    | 1, _ => exact congrArg _ hinner.symm
    | 2, _ => exact congrArg _ hinner
    | 3, _ => exact congrArg _ houter

/-- Addresses without flow info and scope id that survive the round trip. -/
theorem sockaddr_roundtrip_iff (addr : SocketAddr) (h : addr.Plain) :
    sockaddrToSocketaddr addr.storage = .ok addr ↔ addr.Symmetric := by
  rw [sockaddrToSocketaddr_storage]
  cases addr with
  | v4 ip port =>
    have hsame : (Except.ok (.v4 ip.reverse port) : Except ErrorKind SocketAddr) =
        .ok (.v4 ip port) ↔ ip.reverse = ip := by
      rw [Except.ok.injEq, SocketAddr.v4.injEq, and_iff_left rfl]
    exact hsame.trans (reverse_eq_iff ip)
  | v6 ip port flowinfo scopeId =>
    obtain ⟨rfl, rfl⟩ := h
    exact iff_of_true rfl trivial

/-- 1.2.2.1:5201, the same backwards. -/
def palindrome : SocketAddr := .v4 ⟨#[1, 2, 2, 1], rfl⟩ 5201
def loopback : SocketAddr := .v4 (Vector.ofFn (fun i => [127, 0, 0, 1].getD i 0)) 5201

theorem sockaddr_roundtrip_palindrome :
    sockaddrToSocketaddr palindrome.storage = .ok palindrome :=
  (sockaddr_roundtrip_iff palindrome trivial).mpr ⟨rfl, rfl⟩

theorem sockaddr_roundtrip_loopback :
    ¬ ∀ addr : SocketAddr, addr.Plain → sockaddrToSocketaddr addr.storage = .ok addr := by
  intro h
  have hread := (sockaddrToSocketaddr_storage loopback).symm.trans (h loopback trivial)
  obtain ⟨hsame, -⟩ := SocketAddr.v4.inj (Except.ok.inj hread)
  exact absurd ((reverse_eq_iff _).mp hsame).1 (by decide)

end Rperf3
