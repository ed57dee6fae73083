/-
# PatBase.Net.Ip -- `pat::net::Ip`

ip.{h,cc}: an `Ip` is sixteen bytes, an IPv4 address in its v4-mapped form.  `MakeIp`
makes one of what the resolver returns.  Over an `in_addr` it goes through a union, so
it depends on how the host stores `s_addr`; the byte order is a parameter, and none of
the results depends on it.

The v4-mapped addresses are exactly the images of `in_addr`s (`makeIp_eq_iff`), and no
two addresses of one family have the same image.
-/
import PatBase.Lib.Endian

namespace PatBase.Net

open PatBase.Lib

set_option autoImplicit false

/-- The address families that the library tells apart. -/
inductive Family where
  /-- `AF_INET` -/
  | inet
  /-- `AF_INET6` -/
  | inet6
  deriving DecidableEq, Repr

/-- `in_addr` -/
structure InAddr where
  sAddr : UInt32
  deriving DecidableEq

/-- `in6_addr` -/
structure In6Addr where
  s6Addr : Vector UInt8 16
  deriving DecidableEq

def v4InV6Prefix : Vector UInt8 12 := #v[0, 0, 0, 0, 0, 0, 0, 0, 0, 0, 0xff, 0xff]

abbrev Ip := Vector UInt8 16

/-- `IPv4` -/
def ipv4 (byte0 byte1 byte2 byte3 : UInt8) : Ip :=
  #v[v4InV6Prefix[0], v4InV6Prefix[1], v4InV6Prefix[2], v4InV6Prefix[3], v4InV6Prefix[4],
    v4InV6Prefix[5], v4InV6Prefix[6], v4InV6Prefix[7], v4InV6Prefix[8], v4InV6Prefix[9],
    v4InV6Prefix[10], v4InV6Prefix[11], byte0, byte1, byte2, byte3]

/-- The bytes of `s_addr`, in the order of their addresses. -/
def InAddr.bytes (e : Endian) (addr : InAddr) : List UInt8 := e.store 4 addr.sAddr.toNat

theorem InAddr.bytes_length (e : Endian) (addr : InAddr) : (addr.bytes e).length = 4 :=
  e.store_length 4 _

/-- The `in_addr` whose `s_addr` has these bytes. -/
def InAddr.ofBytes (e : Endian) (bytes : List UInt8) : InAddr := ⟨UInt32.ofNat (e.load bytes)⟩

theorem InAddr.lt_bytes_length (e : Endian) (addr : InAddr) (i : Fin 4) :
    i.1 < (addr.bytes e).length := by
  rw [addr.bytes_length]
  exact i.2

/-- `foo.b[i]` of the union with `foo.i = addr.s_addr`. -/
def InAddr.byte (e : Endian) (addr : InAddr) (i : Fin 4) : UInt8 :=
  (addr.bytes e).get ⟨i, addr.lt_bytes_length e i⟩

/-- `MakeIp(in_addr)` -/
def InAddr.makeIp (e : Endian) (addr : InAddr) : Ip :=
  ipv4 (addr.byte e 0) (addr.byte e 1) (addr.byte e 2) (addr.byte e 3)

/-- `MakeIp(in6_addr)` -/
def In6Addr.makeIp (addr : In6Addr) : Ip :=
  let a := addr.s6Addr
  #v[a[0], a[1], a[2], a[3], a[4], a[5], a[6], a[7], a[8], a[9], a[10], a[11], a[12], a[13],
    a[14], a[15]]

/-- `std::equal(first.begin(), first.end(), second.begin())` -/
def stdEqual (first second : List UInt8) : Bool := first.isPrefixOf second

/-- What `PrintIp` has `inet_ntop` format. -/
inductive Printed where
  | inet (addr : InAddr)
  | inet6 (addr : In6Addr)
  deriving DecidableEq

/-- `PrintIp`, up to the text that `inet_ntop` makes. -/
def printIp (e : Endian) (ip : Ip) : Printed :=
  if stdEqual v4InV6Prefix.toList ip.toList then .inet (.ofBytes e (ip.toList.drop 12))
  else .inet6 ⟨ip⟩

/-- The family that `PrintIp` passes to `inet_ntop`. -/
def Printed.family : Printed → Family
  | .inet _ => .inet
  | .inet6 _ => .inet6

/-! ## Bytes -/

/-- `ip` has the v4-mapped prefix. -/
def StartsWithPrefix (ip : Ip) : Prop :=
  ∃ rest, ip.toList = v4InV6Prefix.toList ++ rest

theorem stdEqual_iff {ip : Ip} :
    stdEqual v4InV6Prefix.toList ip.toList = true ↔ StartsWithPrefix ip := by
  rw [stdEqual, List.isPrefixOf_iff_prefix]
  constructor
  · rintro ⟨rest, split⟩
    exact ⟨rest, split.symm⟩
  · rintro ⟨rest, split⟩
    exact ⟨rest, split.symm⟩

theorem InAddr.toBytes_ofBytes (e : Endian) {bytes : List UInt8} (four : bytes.length = 4) :
    (InAddr.ofBytes e bytes).bytes e = bytes := by
  have fits : e.load bytes < 2 ^ 32 := by
    have bound := e.load_lt bytes
    rw [four] at bound
    exact bound
  have back := e.store_load bytes
  rw [four] at back
  rw [InAddr.bytes, InAddr.ofBytes, UInt32.toNat_ofNat', Nat.mod_eq_of_lt fits, back]

theorem InAddr.ofBytes_toBytes (e : Endian) (addr : InAddr) :
    InAddr.ofBytes e (addr.bytes e) = addr := by
  have fits : addr.sAddr.toNat < 256 ^ 4 := addr.sAddr.toNat_lt
  rw [InAddr.ofBytes, InAddr.bytes, e.load_store fits, UInt32.ofNat_toNat]

theorem four_bytes {bytes : List UInt8} (four : bytes.length = 4)
    (inside : ∀ i : Fin 4, i.1 < bytes.length) :
    [bytes.get ⟨0, inside 0⟩, bytes.get ⟨1, inside 1⟩, bytes.get ⟨2, inside 2⟩,
      bytes.get ⟨3, inside 3⟩] = bytes := by
  match bytes, four with
  | [_, _, _, _], _ => rfl

/-- The image of an `in_addr` is the prefix and then its own four bytes. -/
theorem InAddr.makeIp_bytes (e : Endian) (addr : InAddr) :
    (addr.makeIp e).toList = v4InV6Prefix.toList ++ addr.bytes e := by
  have split : [addr.byte e 0, addr.byte e 1, addr.byte e 2, addr.byte e 3] = addr.bytes e :=
    four_bytes (addr.bytes_length e) (addr.lt_bytes_length e)
  rw [← split]
  rfl

/-- No byte of an `in6_addr` changes. -/
theorem In6Addr.makeIp_eq (addr : In6Addr) : addr.makeIp = addr.s6Addr := by
  apply Vector.ext
  intro i inside
  match i, inside with
  | 0, _ | 1, _ | 2, _ | 3, _ | 4, _ | 5, _ | 6, _ | 7, _ | 8, _ | 9, _ | 10, _ | 11, _
  | 12, _ | 13, _ | 14, _ | 15, _ => rfl
  | i + 16, beyond => exact absurd beyond (Nat.not_lt.mpr (Nat.le_add_left 16 i))

/-- The last four bytes of an image are those of the address. -/
theorem InAddr.makeIp_drop (e : Endian) (addr : InAddr) :
    (addr.makeIp e).toList.drop 12 = addr.bytes e := by
  rw [addr.makeIp_bytes]
  rfl

/-! ## Which addresses have one image -/

theorem InAddr.makeIp_injective (e : Endian) {a b : InAddr} (same : a.makeIp e = b.makeIp e) :
    a = b := by
  have bytes : a.bytes e = b.bytes e := by rw [← a.makeIp_drop e, ← b.makeIp_drop e, same]
  rw [← a.ofBytes_toBytes e, ← b.ofBytes_toBytes e, bytes]

theorem In6Addr.makeIp_injective {a b : In6Addr} (same : a.makeIp = b.makeIp) : a = b := by
  rw [a.makeIp_eq, b.makeIp_eq] at same
  cases a
  cases b
  exact congrArg In6Addr.mk same

/-- `b` is the v4-mapped form of `a`. -/
def V4Mapped (e : Endian) (a : InAddr) (b : In6Addr) : Prop :=
  b.s6Addr.toList = v4InV6Prefix.toList ++ a.bytes e

theorem makeIp_eq_iff (e : Endian) (a : InAddr) (b : In6Addr) :
    a.makeIp e = b.makeIp ↔ V4Mapped e a b := by
  rw [V4Mapped, ← a.makeIp_bytes e, b.makeIp_eq, ← Vector.toList_inj]
  exact eq_comm

end PatBase.Net
