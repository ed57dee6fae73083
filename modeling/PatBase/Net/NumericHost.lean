/-
# PatBase.Net.NumericHost -- an address that is printed and looked up

`PrintIp` leaves the text to `inet_ntop`, and `LookupIp` leaves the host to
`getaddrinfo`.  Of these two only what the C library documents is used: a host that is
the text of an address resolves to that address, once for each kind of socket
(`Numeric`).

`printed_ip_resolves`: looking the text of an `Ip` up gives that `Ip` and no other, also
where it was printed as IPv4 and comes back as an `in_addr`; so it is the text of no
other.
-/
import PatBase.Net.LookupIp

namespace PatBase.Net

open PatBase.Lib PatBase.Runtime

set_option autoImplicit false

/-- The node that `getaddrinfo` makes of a numeric address. -/
def Printed.node : Printed → AddrInfo
  | .inet addr => .inet addr
  | .inet6 addr => .inet6 addr

/-- The two functions of the C library. -/
structure Library where
  inetNtop : Printed → String
  getaddrinfo : String → List AddrInfo

namespace Library

/-- The text of an address is a numeric host. -/
def Numeric (lib : Library) (printed : Printed) : Prop :=
  lib.getaddrinfo (lib.inetNtop printed) ≠ [] ∧
    ∀ node ∈ lib.getaddrinfo (lib.inetNtop printed), node = printed.node

instance (lib : Library) (printed : Printed) : Decidable (lib.Numeric printed) :=
  inferInstanceAs (Decidable (_ ∧ _))

/-- `operator<<` -/
def print (lib : Library) (e : Endian) (ip : Ip) : String :=
  lib.inetNtop (printIp e ip)

end Library

section Print

variable (e : Endian) (ip : Ip)

/-- What is printed of an `Ip` is what it was made of. -/
theorem ipOf_printIp : LookupIp.ipOf e (printIp e ip).node = some ip := by
  unfold printIp
  split
  · rename_i mapped
    obtain ⟨rest, split⟩ := stdEqual_iff.mp mapped
    have four : (ip.toList.drop 12).length = 4 := by
      rw [List.length_drop, Vector.length_toList]
    have last : ip.toList.drop 12 = rest := by
      rw [split]
      rfl
    refine congrArg some (Vector.toList_inj.mp ?_)
    rw [InAddr.makeIp_bytes, InAddr.toBytes_ofBytes e four, last, split]
  · exact congrArg some (In6Addr.makeIp_eq ⟨ip⟩)

end Print

variable {lib : Library} {e : Endian}

/-- A list of nodes that are all the same. -/
theorem addresses_of_numeric {ip : Ip} (numeric : lib.Numeric (printIp e ip)) :
    LookupIp.addresses e (lib.getaddrinfo (lib.print e ip)) ≠ [] ∧
      ∀ found ∈ LookupIp.addresses e (lib.getaddrinfo (lib.print e ip)), found = ip := by
  obtain ⟨some_, all⟩ := numeric
  constructor
  · obtain ⟨node, member⟩ := List.exists_mem_of_ne_nil _ some_
    have taken : ip ∈ LookupIp.addresses e (lib.getaddrinfo (lib.print e ip)) := by
      refine List.mem_filterMap.mpr ⟨node, member, ?_⟩
      rw [all node member, ipOf_printIp]
    exact List.ne_nil_of_mem taken
  · intro found member
    obtain ⟨node, inside, address⟩ := List.mem_filterMap.mp member
    rw [all node inside, ipOf_printIp] at address
    exact (Option.some.inj address).symm

/-- Addresses with one text. -/
theorem print_injective {ip other : Ip} (numeric : lib.Numeric (printIp e ip))
    (numericOther : lib.Numeric (printIp e other)) (same : lib.print e other = lib.print e ip) :
    other = ip := by
  obtain ⟨some_, all⟩ := addresses_of_numeric numeric
  obtain ⟨found, member⟩ := List.exists_mem_of_ne_nil _ some_
  have first := all found member
  rw [← same] at member
  have second := (addresses_of_numeric numericOther).2 found member
  exact second.symm.trans first

/-- What a lookup that completes with a value gives. -/
theorem lookupIp_value {env : Environment} {rv : List Ip} (found : (lookupIp env).1 = .value rv) :
    rv = LookupIp.addresses env.endian env.res := by
  unfold lookupIp at found
  split at found
  · split at found
    · rename_i addrInfo ok
      have resolved : addrInfo = env.res := by
        unfold LookupIp.callback at ok
        split at ok
        · cases ok
        · exact (Except.ok.inj ok).symm
      unfold LookupIp.afterLookup at found
      split at found
      · split at found
        · rename_i out m' converted
          cases found
          obtain ⟨list, m, loop, rest⟩ := Effect.bind_eq_ok.mp converted
          obtain ⟨_, _, -, last⟩ := Effect.bind_eq_ok.mp rest
          obtain ⟨rfl, -⟩ := Effect.pure_eq_ok.mp last
          rcases @LookupIp.convertAll_cases env.endian env.refuses ⟨0, 0⟩ rfl addrInfo []
            with ⟨-, value⟩ | ⟨-, thrown, error⟩
          · rw [value] at loop
            cases loop
            rw [resolved, List.nil_append]
          · cases loop.symm.trans error
        · cases found
      · cases found
      · cases found
    · cases found
  · cases found
  · cases found

/-- **A printed `Ip` resolves to itself.**  Whatever `LookupIp` gives for the text of `ip`,
it is not empty and all of it is `ip`; and no other address that resolves has its text. -/
theorem printed_ip_resolves (lib : Library) (ip : Ip) (env : Environment) {rv : List Ip}
    (numeric : lib.Numeric (printIp env.endian ip))
    (res : env.res = lib.getaddrinfo (lib.print env.endian ip))
    (found : (lookupIp env).1 = .value rv) :
    rv ≠ [] ∧ (∀ address ∈ rv, address = ip) ∧
      ∀ other, lib.Numeric (printIp env.endian other) →
        lib.print env.endian other = lib.print env.endian ip → other = ip := by
  have value := lookupIp_value found
  rw [res] at value
  obtain ⟨some_, all⟩ := addresses_of_numeric numeric
  rw [value]
  exact ⟨some_, all, fun other numericOther same => print_injective numeric numericOther same⟩

def loopback : Printed := .inet ⟨16777343⟩

/-- The C library, as far as the loopback address goes: a node each for the stream, the
datagram and the raw socket. -/
def loopbackLibrary : Library where
  inetNtop printed := if printed = loopback then "127.0.0.1" else "::"
  getaddrinfo host :=
    if host = "127.0.0.1" then [loopback.node, loopback.node, loopback.node] else []

def loopbackLookup : Environment where
  endian := .little
  contextHop := .value
  status := 0
  res := [loopback.node, loopback.node, loopback.node]
  poolHop := .value
  refuses _ := none

theorem printed_ip_resolves_loopback :
    loopbackLibrary.print .little (ipv4 127 0 0 1) = "127.0.0.1" ∧
      ∃ rv, (lookupIp loopbackLookup).1 = .value rv ∧ rv ≠ [] ∧
        ∀ address ∈ rv, address = ipv4 127 0 0 1 := by
  have numeric : loopbackLibrary.Numeric (printIp .little (ipv4 127 0 0 1)) := by decide
  have res : loopbackLookup.res =
      loopbackLibrary.getaddrinfo (loopbackLibrary.print .little (ipv4 127 0 0 1)) := by decide
  have found : (lookupIp loopbackLookup).1 =
      .value [ipv4 127 0 0 1, ipv4 127 0 0 1, ipv4 127 0 0 1] := by decide
  obtain ⟨some_, all, -⟩ :=
    printed_ip_resolves loopbackLibrary (ipv4 127 0 0 1) loopbackLookup numeric res found
  exact ⟨by decide, _, found, some_, all⟩

end PatBase.Net
