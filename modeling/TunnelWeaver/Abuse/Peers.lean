import TunnelWeaver.Abuse.Gate
import TunnelWeaver.Lib.Bits
import TunnelWeaver.Server.Visitor

/-! The keys of a visitor (`key.rs`, `effective_peer`), from the address that the listener
reports. -/

namespace TunnelWeaver

namespace Server.IpAddr

/-- `u32::from`. -/
def bits4 (a b c d : UInt8) : BitVec 32 := a.toBitVec ++ b.toBitVec ++ c.toBitVec ++ d.toBitVec

/-- `u128::from`, by the first four segments and the last four. -/
def bits6 (segments : Vector UInt16 8) : BitVec 128 :=
  (segments[0].toBitVec ++ segments[1].toBitVec ++ segments[2].toBitVec ++ segments[3].toBitVec) ++
    (segments[4].toBitVec ++ segments[5].toBitVec ++ segments[6].toBitVec ++ segments[7].toBitVec)

/-- `Ipv6Addr::to_ipv4_mapped`. -/
def mapped (segments : Vector UInt16 8) : Option (BitVec 32) :=
  if segments[0] = 0 ∧ segments[1] = 0 ∧ segments[2] = 0 ∧ segments[3] = 0 ∧ segments[4] = 0 ∧
      segments[5] = 0xffff then
    some (segments[6].toBitVec ++ segments[7].toBitVec)
  else none

/-- The IPv4 host that an address denotes. -/
def ipv4 : IpAddr → Option (BitVec 32)
  | v4 a b c d => some (bits4 a b c d)
  | v6 segments => mapped segments

def isMapped : IpAddr → Bool
  | v4 .. => false
  | v6 segments => (mapped segments).isSome

theorem isMapped_of_ipv4 {segments : Vector UInt16 8} {h : BitVec 32}
    (hh : (v6 segments).ipv4 = some h) : (v6 segments).isMapped = true := Option.isSome_of_eq_some hh

end Server.IpAddr

namespace Abuse

open Bits (clearLow octets)
open Server (IpAddr)

def fnvOffset : UInt64 := 0xcbf29ce484222325

def fnvPrime : UInt64 := 0x00000100000001b3

def fnv1a (bytes : List UInt8) : UInt64 :=
  bytes.foldl (fun hash byte => (hash ^^^ byte.toUInt64) * fnvPrime) fnvOffset

/-- The octets of an address with all but its first bits cleared. -/
def masked (v4Prefix v6Prefix : Nat) : IpAddr → List UInt8
  | .v4 a b c d => octets 4 (clearLow (32 - v4Prefix) (IpAddr.bits4 a b c d))
  | .v6 segments => octets 16 (clearLow (128 - v6Prefix) (IpAddr.bits6 segments))

def hashMasked (peer : IpAddr) (v4Prefix v6Prefix : Nat) : UInt64 :=
  fnv1a (masked v4Prefix v6Prefix peer)

def fingerprint (peer : IpAddr) : Fingerprint :=
  ⟨[⟨.peerHost, hashMasked peer 32 64⟩, ⟨.peerNetwork, hashMasked peer 24 56⟩]⟩

structure SocketAddr where
  ip : IpAddr
  port : UInt16

/-- Forwarding headers are never read. -/
def effectivePeer (remoteAddr : SocketAddr) : IpAddr := remoteAddr.ip

/-- The key that a request from an address is charged to. -/
def peerKey (remoteAddr : SocketAddr) (kind : KeyKind) : Option Key :=
  (fingerprint (effectivePeer remoteAddr)).get kind

/-! ## Telling visitors apart -/

/-- The byte strings that are hashed for an address. -/
def fed (peer : IpAddr) : List (List UInt8) := [masked 32 64 peer, masked 24 56 peer]

/-- The hash does not confuse the byte strings of two addresses. -/
def HashInjective (x y : SocketAddr) : Prop :=
  ∀ s ∈ fed x.ip ++ fed y.ip, ∀ s' ∈ fed x.ip ++ fed y.ip, fnv1a s = fnv1a s' → s = s'

instance (x y : SocketAddr) : Decidable (HashInjective x y) := List.decidableBAll _ _

/-- Two addresses have a key in common as they denote one IPv4 host or are in one network of 24 bits,
or else as they agree in their first 64 or 56 bits. -/
def ToldApart (x y : SocketAddr) : Prop :=
  (∀ h h', x.ip.ipv4 = some h → y.ip.ipv4 = some h' →
    (peerKey x .peerHost = peerKey y .peerHost ↔ h = h') ∧
    (peerKey x .peerNetwork = peerKey y .peerNetwork ↔ h >>> 8 = h' >>> 8)) ∧
  (∀ s s', x.ip = .v6 s → y.ip = .v6 s' → IpAddr.mapped s = none → IpAddr.mapped s' = none →
    (peerKey x .peerHost = peerKey y .peerHost ↔
      IpAddr.bits6 s >>> 64 = IpAddr.bits6 s' >>> 64) ∧
    (peerKey x .peerNetwork = peerKey y .peerNetwork ↔
      IpAddr.bits6 s >>> 72 = IpAddr.bits6 s' >>> 72))

section
variable {x y : SocketAddr}

theorem peerKey_host_iff (hinj : HashInjective x y) :
    peerKey x .peerHost = peerKey y .peerHost ↔ masked 32 64 x.ip = masked 32 64 y.ip := by
  have hkey : peerKey x .peerHost = peerKey y .peerHost ↔
      fnv1a (masked 32 64 x.ip) = fnv1a (masked 32 64 y.ip) := by
    simp [peerKey, fingerprint, Fingerprint.get, effectivePeer, hashMasked]
  rw [hkey]
  exact ⟨hinj _ (by simp [fed]) _ (by simp [fed]), congrArg fnv1a⟩

theorem peerKey_network_iff (hinj : HashInjective x y) :
    peerKey x .peerNetwork = peerKey y .peerNetwork ↔ masked 24 56 x.ip = masked 24 56 y.ip := by
  have hkey : peerKey x .peerNetwork = peerKey y .peerNetwork ↔
      fnv1a (masked 24 56 x.ip) = fnv1a (masked 24 56 y.ip) := by
    simp [peerKey, fingerprint, Fingerprint.get, effectivePeer, hashMasked]
  rw [hkey]
  exact ⟨hinj _ (by simp [fed]) _ (by simp [fed]), congrArg fnv1a⟩

variable {a b c d a' b' c' d' : UInt8} {s s' : Vector UInt16 8} {p p' : Nat}

theorem masked_v4_iff : masked p p' (.v4 a b c d) = masked p p' (.v4 a' b' c' d') ↔
    IpAddr.bits4 a b c d >>> (32 - p) = IpAddr.bits4 a' b' c' d' >>> (32 - p) := by
  rw [← Bits.clearLow_eq_iff]
  exact ⟨Bits.octets_injective (by decide), congrArg (octets 4)⟩

theorem masked_v6_iff : masked p p' (.v6 s) = masked p p' (.v6 s') ↔
    IpAddr.bits6 s >>> (128 - p') = IpAddr.bits6 s' >>> (128 - p') := by
  rw [← Bits.clearLow_eq_iff]
  exact ⟨Bits.octets_injective (by decide), congrArg (octets 16)⟩

/-- An IPv4 address is not masked to the octets of an IPv6 address. -/
theorem masked_v4_ne_v6 : masked p p' (.v4 a b c d) ≠ masked p p' (.v6 s) := by
  intro h
  have hlength := congrArg List.length h
  simp [masked] at hlength

/-- The first bits of an IPv4-mapped address are all zero. -/
theorem shift_of_mapped {h : BitVec 32} (hmapped : IpAddr.mapped s = some h) (k : Nat) (hk : 64 ≤ k) :
    IpAddr.bits6 s >>> k = 0 := by
  rw [IpAddr.mapped] at hmapped
  split at hmapped
  · next hzero =>
    obtain ⟨h0, h1, h2, h3, -, -⟩ := hzero
    rw [IpAddr.bits6, h0, h1, h2, h3]
    apply BitVec.eq_of_getLsbD_eq
    intro i hi
    rw [BitVec.getLsbD_ushiftRight, BitVec.getLsbD_append, if_neg (by omega)]
    simp
  · cases hmapped

end

/-- Of two addresses that denote IPv4 hosts, not both come IPv4-mapped unless they denote the same
host, and not one of them alone unless they are in different networks. -/
def Unmerged (x y : SocketAddr) : Prop :=
  ∀ h h', x.ip.ipv4 = some h → y.ip.ipv4 = some h' →
    (x.ip.isMapped = true → y.ip.isMapped = true → h = h') ∧
    (x.ip.isMapped ≠ y.ip.isMapped → h >>> 8 ≠ h' >>> 8)

section
variable {x y : SocketAddr} {a b c d a' b' c' d' : UInt8} {s s' : Vector UInt16 8}

theorem toldApart_v4 (hx : x.ip = .v4 a b c d) (hy : y.ip = .v4 a' b' c' d')
    (hinj : HashInjective x y) : ToldApart x y := by
  rw [ToldApart, peerKey_host_iff hinj, peerKey_network_iff hinj, hx, hy, masked_v4_iff, masked_v4_iff]
  refine ⟨fun h h' hh hh' => ?_, fun _ _ hs => by cases hs⟩
  cases hh
  cases hh'
  simp

/-- Native IPv6 addresses are told apart, and IPv4-mapped ones never. -/
theorem toldApart_v6_iff (hx : x.ip = .v6 s) (hy : y.ip = .v6 s') (hinj : HashInjective x y) :
    ToldApart x y ↔ ∀ h h', IpAddr.mapped s = some h → IpAddr.mapped s' = some h' → h = h' := by
  rw [ToldApart, peerKey_host_iff hinj, peerKey_network_iff hinj, hx, hy, masked_v6_iff, masked_v6_iff]
  constructor
  · rintro ⟨htold, -⟩ h h' hh hh'
    refine (htold h h' hh hh').1.mp ?_
    rw [shift_of_mapped hh _ (by decide), shift_of_mapped hh' _ (by decide)]
  · intro hsame
    refine ⟨fun h h' hh hh' => ?_, fun t t' ht ht' _ _ => ?_⟩
    · have heq := hsame h h' hh hh'
      rw [shift_of_mapped hh _ (by decide), shift_of_mapped hh' _ (by decide),
        shift_of_mapped hh _ (by decide), shift_of_mapped hh' _ (by decide), heq]
      simp
    · cases ht
      cases ht'
      exact ⟨Iff.rfl, Iff.rfl⟩

/-- An IPv4 address and an IPv4-mapped one never share a key. -/
theorem toldApart_mixed_iff (hmasked : ∀ p p', masked p p' x.ip ≠ masked p p' y.ip)
    (hnative : ∀ t t', x.ip = .v6 t → y.ip ≠ .v6 t') (hinj : HashInjective x y) : ToldApart x y ↔
      ∀ h h', x.ip.ipv4 = some h → y.ip.ipv4 = some h' → h >>> 8 ≠ h' >>> 8 := by
  rw [ToldApart, peerKey_host_iff hinj, peerKey_network_iff hinj]
  simp only [hmasked, false_iff]
  constructor
  · intro h t t' ht ht'
    exact (h.1 t t' ht ht').2
  · intro h
    refine ⟨fun t t' ht ht' => ⟨fun heq => h t t' ht ht' (by rw [heq]), h t t' ht ht'⟩, ?_⟩
    exact fun t t' ht ht' => absurd ht' (hnative t t' ht)

/-- Visitors are told apart unless the listener reports them as IPv4-mapped IPv6 addresses: these share
one key, whoever they are, and none with the IPv4 address of the same host. -/
theorem toldApart_iff (hinj : HashInjective x y) : ToldApart x y ↔ Unmerged x y := by
  cases hx : x.ip with
  | v4 a b c d =>
    cases hy : y.ip with
    | v4 a' b' c' d' =>
      refine iff_of_true (toldApart_v4 hx hy hinj) fun h h' _ _ => ?_
      rw [hx, hy]
      exact ⟨fun hmapped => absurd hmapped Bool.false_ne_true, fun hne => absurd rfl hne⟩
    | v6 s' =>
      rw [toldApart_mixed_iff (by rw [hx, hy]; exact fun _ _ => masked_v4_ne_v6)
        (fun t _ ht => by cases hx.symm.trans ht) hinj, Unmerged, hx, hy]
      refine forall₄_congr fun h h' hh hh' => ?_
      rw [IpAddr.isMapped_of_ipv4 hh', IpAddr.isMapped]
      simp
  | v6 s =>
    cases hy : y.ip with
    | v4 a' b' c' d' =>
      rw [toldApart_mixed_iff (by rw [hx, hy]; exact fun _ _ => masked_v4_ne_v6.symm)
        (fun _ t' _ ht' => by cases hy.symm.trans ht') hinj, Unmerged, hx, hy]
      refine forall₄_congr fun h h' hh hh' => ?_
      rw [IpAddr.isMapped_of_ipv4 hh, IpAddr.isMapped]
      simp
    | v6 s' =>
      rw [toldApart_v6_iff hx hy hinj, Unmerged, hx, hy]
      refine forall₄_congr fun h h' hh hh' => ?_
      rw [IpAddr.isMapped_of_ipv4 hh, IpAddr.isMapped_of_ipv4 hh']
      simp

end

namespace Peers.Sample

def ipv4Mapped (ab cd : UInt16) : SocketAddr := ⟨.v6 #v[0, 0, 0, 0, 0, 0xffff, ab, cd], 40000⟩

/-- 2001:db8:0:1::1 and 2001:db8:0:2::1. -/
def native (subnet : UInt16) : SocketAddr := ⟨.v6 #v[0x2001, 0xdb8, 0, subnet, 0, 0, 0, 1], 40000⟩

end Peers.Sample

theorem toldApart_native : ToldApart (Peers.Sample.native 1) (Peers.Sample.native 2) :=
  (toldApart_iff (by decide +kernel)).mpr fun _ _ hh => by cases hh

/-- 203.0.113.9 and 198.51.100.7, as an IPv6 socket reports them, have the same keys. -/
theorem mapped_hosts_share_keys :
    (Peers.Sample.ipv4Mapped 0xcb00 0x7109).ip.ipv4 ≠ (Peers.Sample.ipv4Mapped 0xc633 0x6407).ip.ipv4 ∧
      peerKey (Peers.Sample.ipv4Mapped 0xcb00 0x7109) .peerHost =
        peerKey (Peers.Sample.ipv4Mapped 0xc633 0x6407) .peerHost ∧
      peerKey (Peers.Sample.ipv4Mapped 0xcb00 0x7109) .peerNetwork =
        peerKey (Peers.Sample.ipv4Mapped 0xc633 0x6407) .peerNetwork := by
  decide +kernel

end Abuse

end TunnelWeaver
