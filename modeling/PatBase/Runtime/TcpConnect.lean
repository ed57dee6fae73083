/-
# PatBase.Runtime.TcpConnect -- where a socket connects to

tcp_connect.h builds the socket address of an `Ip`, after `TCPSocket::Connect` has made
a socket of its family.  Each of them, and `PrintIp`, tests for the v4-mapped prefix
for itself; `addresses_survive` says that they agree, and that what the resolver
returned is what is connected to, on a host of either byte order.
-/
import PatBase.Net.Ip

namespace PatBase.Runtime.TcpConnect

open PatBase.Lib PatBase.Net

set_option autoImplicit false

/-- `sockaddr_in` and `sockaddr_in6`, as far as the family chooses between them. -/
structure SockaddrIn where
  sinFamily : Family
  sinPort : UInt16
  sinAddr : InAddr
  deriving DecidableEq

structure SockaddrIn6 where
  sin6Family : Family
  sin6Port : UInt16
  sin6Flowinfo : UInt32
  sin6Addr : In6Addr
  sin6ScopeId : UInt32
  deriving DecidableEq

/-- What `uv_tcp_connect` is given. -/
inductive Sockaddr where
  | in4 (addr : SockaddrIn)
  | in6 (addr : SockaddrIn6)
  deriving DecidableEq

namespace Sockaddr

def family : Sockaddr → Family
  | .in4 addr => addr.sinFamily
  | .in6 addr => addr.sin6Family

def port : Sockaddr → UInt16
  | .in4 addr => addr.sinPort
  | .in6 addr => addr.sin6Port

end Sockaddr

/-- `_op::start` -/
def start (e : Endian) (ip : Ip) (port : UInt16) : Sockaddr :=
  if stdEqual v4InV6Prefix.toList ip.toList then
    .in4 ⟨.inet, htons e port, .ofBytes e ((ip.toList.drop 12).take 4)⟩
  else
    .in6 ⟨.inet6, htons e port, 0, ⟨ip⟩, 0⟩

/-- The family that `TCPSocket::Connect` passes to `uv_tcp_init_ex`. -/
def connectFamily (ip : Ip) : Family :=
  if stdEqual v4InV6Prefix.toList ip.toList then .inet else .inet6

section Start

variable (e : Endian) (port : UInt16)

theorem start_mapped {ip : Ip} {bytes : List UInt8} (four : bytes.length = 4)
    (mapped : ip.toList = v4InV6Prefix.toList ++ bytes) :
    start e ip port = .in4 ⟨.inet, htons e port, .ofBytes e bytes⟩ := by
  have rest : (ip.toList.drop 12).take 4 = bytes := by
    rw [mapped]
    exact List.take_of_length_le (Nat.le_of_eq four)
  rw [start, if_pos (stdEqual_iff.mpr ⟨bytes, mapped⟩), rest]

theorem start_other {ip : Ip} (other : ¬ StartsWithPrefix ip) :
    start e ip port = .in6 ⟨.inet6, htons e port, 0, ⟨ip⟩, 0⟩ :=
  if_neg fun equal => other (stdEqual_iff.mp equal)

/-- The three places agree on the family. -/
theorem families_agree (ip : Ip) :
    connectFamily ip = (start e ip port).family ∧ (printIp e ip).family = connectFamily ip := by
  unfold connectFamily start printIp
  split
  · exact ⟨rfl, rfl⟩
  · exact ⟨rfl, rfl⟩

theorem start_port (ip : Ip) : (start e ip port).port = htons e port := by
  unfold start
  split
  · rfl
  · rfl

end Start

/-- **Addresses survive the trip from resolver to socket.** -/
theorem addresses_survive (e : Endian) (port : UInt16) :
    (∀ a : InAddr, start e (a.makeIp e) port = .in4 ⟨.inet, htons e port, a⟩) ∧
    (∀ b : In6Addr, ¬ StartsWithPrefix b.s6Addr →
      start e b.makeIp port = .in6 ⟨.inet6, htons e port, 0, b, 0⟩) ∧
    (∀ b : In6Addr, StartsWithPrefix b.s6Addr → ∃ a : InAddr,
      a.bytes e = b.s6Addr.toList.drop 12 ∧
        start e b.makeIp port = .in4 ⟨.inet, htons e port, a⟩) ∧
    (∀ (a : InAddr) (b : In6Addr), a.makeIp e = b.makeIp ↔ V4Mapped e a b) ∧
    (∀ a b : InAddr, a.makeIp e = b.makeIp e → a = b) ∧
    (∀ a b : In6Addr, a.makeIp = b.makeIp → a = b) ∧
    (∀ ip : Ip, connectFamily ip = (start e ip port).family ∧
      (printIp e ip).family = connectFamily ip ∧
      e.store 2 (start e ip port).port.toNat =
        [UInt8.ofNat (port.toNat / 256), UInt8.ofNat port.toNat]) := by
  refine ⟨?v4, ?v6, ?mapped, makeIp_eq_iff e, fun _ _ => InAddr.makeIp_injective e,
    fun _ _ => In6Addr.makeIp_injective, ?agree⟩
  case v4 =>
    intro a
    have connected := start_mapped e port (a.bytes_length e) (a.makeIp_bytes e)
    rw [a.ofBytes_toBytes] at connected
    exact connected
  case v6 =>
    intro b other
    rw [b.makeIp_eq, start_other e port other]
  case mapped =>
    intro b mapped
    obtain ⟨bytes, split⟩ := mapped
    have four : bytes.length = 4 := by
      have lengths : 16 = 12 + bytes.length := by simpa using congrArg List.length split
      omega
    have last : b.s6Addr.toList.drop 12 = bytes := by
      rw [split]
      rfl
    refine ⟨.ofBytes e bytes, ?_, ?_⟩
    · rw [InAddr.toBytes_ofBytes e four, last]
    · rw [b.makeIp_eq, start_mapped e port four split]
  case agree =>
    intro ip
    obtain ⟨connects, prints⟩ := families_agree e port ip
    refine ⟨connects, prints, ?_⟩
    rw [start_port, store_htons]
    rfl

end PatBase.Runtime.TcpConnect
