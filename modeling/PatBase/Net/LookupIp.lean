/-
# PatBase.Net.LookupIp -- the list that getaddrinfo hands out

`LookupIp` of ip.h asks libuv for a list of addresses on the loop thread, hops to the
thread pool and converts the list there; the lambda that converts it also frees it.
The list travels as a bare pointer, so whoever holds it when the pipeline ends some
other way drops it.

What a run meets on its way -- how the two hops complete, what libuv returns, which
`emplace_back` is refused storage -- is its `Environment`.  `Memory` counts the calls of
`uv_freeaddrinfo` on the list and the reads of its nodes after one.
-/
import PatBase.Lib.Effect
import PatBase.Lib.StdString
import PatBase.Net.Ip
import PatBase.Runtime.Completion

namespace PatBase.Net

open PatBase.Lib PatBase.Lib.Effect PatBase.Runtime

set_option autoImplicit false

/-- A node of the list, by its `ai_family`, with what is read of its `ai_addr`. -/
inductive AddrInfo where
  | inet (sinAddr : InAddr)
  | inet6 (sin6Addr : In6Addr)
  | other (family : Int)
  deriving DecidableEq

/-- How a `schedule()` completes. -/
inductive Hop where
  | value
  | done
  | error
  deriving DecidableEq, Repr

structure Environment where
  endian : Endian
  /-- `get_scheduler().schedule()` of the context. -/
  contextHop : Hop
  /-- What the callback of `uv_getaddrinfo` is given. -/
  status : Int
  res : List AddrInfo
  /-- `unifex::schedule` of the thread pool. -/
  poolHop : Hop
  /-- What the `emplace_back` with this many addresses before it throws. -/
  refuses : Nat → Option StorageError

structure Memory where
  frees : Nat
  /-- Reads of a node after a free. -/
  stale : Nat
  deriving DecidableEq, Repr

inductive LookupFailure where
  | resolver (code : ErrorCode)
  | thrown (e : StorageError)
  | scheduler
  deriving DecidableEq, Repr

/-- How the pipeline finishes. -/
inductive Finish where
  | value (rv : List Ip)
  | error (failure : LookupFailure)
  | done
  deriving DecidableEq

namespace LookupIp

abbrev Action := EStateM StorageError Memory

/-- A read of a field of a node. -/
def readNode : Action Unit :=
  modify fun m => { m with stale := if m.frees = 0 then m.stale else m.stale + 1 }

def freeaddrinfo : Action Unit :=
  modify fun m => { m with frees := m.frees + 1 }

variable (e : Endian) (refuses : Nat → Option StorageError)

/-- `rv.emplace_back(ip)` -/
def emplaceBack (rv : List Ip) (ip : Ip) : Action (List Ip) :=
  match refuses rv.length with
  | some thrown => throw thrown
  | none => pure (rv ++ [ip])

/-- The body of the loop. -/
def convert (curr : AddrInfo) (rv : List Ip) : Action (List Ip) := do
  -- `ai_family`, then `ai_addr`
  readNode
  match curr with
  | .inet sinAddr => do
      readNode
      emplaceBack refuses rv (sinAddr.makeIp e)
  | .inet6 sin6Addr => do
      readNode
      emplaceBack refuses rv sin6Addr.makeIp
  | .other _ => pure rv

def convertAll : List AddrInfo → List Ip → Action (List Ip)
  | [], rv => pure rv
  | curr :: next, rv => do
      let rv ← convert e refuses curr rv
      -- `ai_next`
      readNode
      convertAll next rv

/-- The lambda that runs on the thread pool. -/
def convertAndFree (addrInfo : List AddrInfo) : Action (List Ip) := do
  let rv ← convertAll e refuses addrInfo []
  freeaddrinfo
  pure rv

/-- The callback of `uv_getaddrinfo`. -/
def callback (status : Int) (res : List AddrInfo) : Except ErrorCode (List AddrInfo) :=
  if status < 0 then .error ⟨status, .libUV⟩ else .ok res

/-- The second continuation, which has the list. -/
def afterLookup (env : Environment) (addrInfo : List AddrInfo) (m : Memory) : Finish × Memory :=
  match env.poolHop with
  | .value =>
      match convertAndFree env.endian env.refuses addrInfo m with
      | .ok rv m' => (.value rv, m')
      | .error thrown m' => (.error (.thrown thrown), m')
  | .done => (.done, m)
  | .error => (.error .scheduler, m)

end LookupIp

open LookupIp in
/-- `LookupIp` -/
def lookupIp (env : Environment) : Finish × Memory :=
  match env.contextHop with
  | .value =>
      match callback env.status env.res with
      | .ok addrInfo => afterLookup env addrInfo ⟨0, 0⟩
      | .error code => (.error (.resolver code), ⟨0, 0⟩)
  | .done => (.done, ⟨0, 0⟩)
  | .error => (.error .scheduler, ⟨0, 0⟩)

namespace LookupIp

/-! ## What the list stands for -/

/-- The address of a node, if it has one of the two families. -/
def ipOf (e : Endian) : AddrInfo → Option Ip
  | .inet sinAddr => some (sinAddr.makeIp e)
  | .inet6 sin6Addr => some sin6Addr.makeIp
  | .other _ => none

/-- The addresses of the list, in its order. -/
def addresses (e : Endian) (list : List AddrInfo) : List Ip := list.filterMap (ipOf e)

/-- None of the `emplace_back`s number `first` to `first + count - 1` is refused. -/
def Granted (refuses : Nat → Option StorageError) (first count : Nat) : Prop :=
  ∀ i, i < count → refuses (first + i) = none

theorem granted_succ {refuses : Nat → Option StorageError} {first count : Nat} :
    Granted refuses first (count + 1) ↔
      refuses first = none ∧ Granted refuses (first + 1) count := by
  constructor
  · intro granted
    refine ⟨granted 0 (Nat.succ_pos count), fun i below => ?_⟩
    rw [Nat.add_assoc, Nat.add_comm 1 i]
    exact granted (i + 1) (Nat.succ_lt_succ below)
  · rintro ⟨here, later⟩ i below
    cases i with
    | zero => exact here
    | succ i =>
        rw [Nat.add_comm i 1, ← Nat.add_assoc]
        exact later i (Nat.lt_of_succ_lt_succ below)

/-! ## The loop -/

section Loop

variable {e : Endian} {refuses : Nat → Option StorageError} {m : Memory} {rv : List Ip}

theorem readNode_held (held : m.frees = 0) : readNode m = .ok () m := by
  apply modify_eq_ok.mpr
  rw [if_pos held]

theorem emplaceBack_granted {ip : Ip} (granted : refuses rv.length = none) :
    emplaceBack refuses rv ip m = .ok (rv ++ [ip]) m := by
  unfold emplaceBack
  rw [granted]
  rfl

theorem emplaceBack_refused {ip : Ip} {thrown : StorageError}
    (refused : refuses rv.length = some thrown) :
    emplaceBack refuses rv ip m = .error thrown m := by
  unfold emplaceBack
  rw [refused]
  rfl

/-- A node without an address is skipped; the address of any other is appended. -/
theorem convert_eq (held : m.frees = 0) (curr : AddrInfo) :
    convert e refuses curr rv m =
      match ipOf e curr with
      | some ip => emplaceBack refuses rv ip m
      | none => .ok rv m := by
  have read := readNode_held held
  have again : ∀ next : Unit → Action (List Ip), (readNode >>= next) m = next () m := by
    intro next
    show EStateM.bind readNode next m = _
    unfold EStateM.bind
    rw [read]
  unfold convert
  rw [again]
  cases curr with
  | inet sinAddr => exact again _
  | inet6 sin6Addr => exact again _
  | other family => rfl

/-- The loop appends the addresses of the rest of the list, or an `emplace_back` among
them throws; either way the list is as it was. -/
theorem convertAll_cases (held : m.frees = 0) (list : List AddrInfo) (rv : List Ip) :
    (Granted refuses rv.length (addresses e list).length ∧
        convertAll e refuses list rv m = .ok (rv ++ addresses e list) m) ∨
      (¬ Granted refuses rv.length (addresses e list).length ∧
        ∃ thrown, convertAll e refuses list rv m = .error thrown m) := by
  induction list generalizing rv with
  | nil =>
      refine .inl ⟨fun i below => absurd below (Nat.not_lt_zero i), ?_⟩
      exact congrArg (EStateM.Result.ok · m) (List.append_nil rv).symm
  | cons curr next ih =>
      have body := @convert_eq e refuses m rv held curr
      cases address : ipOf e curr with
      | none =>
          have skipped : addresses e (curr :: next) = addresses e next :=
            List.filterMap_cons_none address
          rw [address] at body
          rw [skipped]
          rcases ih rv with ⟨granted, rest⟩ | ⟨refused, thrown, rest⟩
          · refine .inl ⟨granted, bind_eq_ok.mpr ⟨rv, m, body, ?_⟩⟩
            exact bind_eq_ok.mpr ⟨(), m, readNode_held held, rest⟩
          · refine .inr ⟨refused, thrown, bind_eq_error.mpr (.inr ⟨rv, m, body, ?_⟩)⟩
            exact bind_eq_error.mpr (.inr ⟨(), m, readNode_held held, rest⟩)
      | some ip =>
          have taken : addresses e (curr :: next) = ip :: addresses e next :=
            List.filterMap_cons_some address
          have longer : (rv ++ [ip]).length = rv.length + 1 := List.length_append
          rw [address] at body
          rw [taken, List.length_cons, granted_succ, List.append_cons, ← longer]
          cases answer : refuses rv.length with
          | some thrown =>
              refine .inr ⟨fun granted => ?_, thrown, bind_eq_error.mpr (.inl ?_)⟩
              · cases granted.1
              · exact body.trans (emplaceBack_refused answer)
          | none =>
              have appended := body.trans (emplaceBack_granted answer)
              rcases ih (rv ++ [ip]) with ⟨granted, rest⟩ | ⟨refused, thrown, rest⟩
              · refine .inl ⟨⟨rfl, granted⟩, bind_eq_ok.mpr ⟨rv ++ [ip], m, appended, ?_⟩⟩
                exact bind_eq_ok.mpr ⟨(), m, readNode_held held, rest⟩
              · refine .inr ⟨fun granted => refused granted.2, thrown, ?_⟩
                refine bind_eq_error.mpr (.inr ⟨rv ++ [ip], m, appended, ?_⟩)
                exact bind_eq_error.mpr (.inr ⟨(), m, readNode_held held, rest⟩)

end Loop

/-! ## The pipeline -/

/-- **The list is converted correctly, and freed if nothing goes wrong on the way.**
Whenever the pipeline completes with a value, it is the addresses of the list in its
order; the list has been freed exactly once, and no node read after that, if and only if
the hop to the thread pool gave a value and no `emplace_back` threw. -/
theorem released_iff_converted {env : Environment} (started : env.contextHop = .value)
    (resolved : 0 ≤ env.status) :
    (∀ rv, (lookupIp env).1 = .value rv → rv = addresses env.endian env.res) ∧
      ((lookupIp env).2.frees = 1 ∧ (lookupIp env).2.stale = 0 ↔
        env.poolHop = .value ∧
          ∀ i, i < (addresses env.endian env.res).length → env.refuses i = none) := by
  have found : lookupIp env = afterLookup env env.res ⟨0, 0⟩ := by
    unfold lookupIp callback
    rw [started, if_neg (Int.not_lt.mpr resolved)]
  have numbered : Granted env.refuses 0 (addresses env.endian env.res).length ↔
      ∀ i, i < (addresses env.endian env.res).length → env.refuses i = none := by
    unfold Granted
    simp only [Nat.zero_add]
  rw [found, ← numbered]
  unfold afterLookup
  cases hop : env.poolHop with
  | done => exact ⟨nofun, by simp⟩
  | error => exact ⟨nofun, by simp⟩
  | value =>
      have loop := @convertAll_cases env.endian env.refuses ⟨0, 0⟩ rfl env.res []
      rcases loop with ⟨granted, converts⟩ | ⟨refused, thrown, throws⟩
      · have frees : convertAndFree env.endian env.refuses env.res ⟨0, 0⟩ =
            .ok (addresses env.endian env.res) ⟨1, 0⟩ :=
          bind_eq_ok.mpr ⟨_, _, converts, rfl⟩
        rw [frees]
        refine ⟨fun rv same => (Finish.value.inj same).symm, ?_⟩
        exact ⟨fun _ => ⟨rfl, granted⟩, fun _ => ⟨rfl, rfl⟩⟩
      · have leaks : convertAndFree env.endian env.refuses env.res ⟨0, 0⟩ =
            .error thrown ⟨0, 0⟩ :=
          bind_eq_error.mpr (.inl throws)
        rw [leaks]
        refine ⟨nofun, fun freed => absurd freed.1 Nat.zero_ne_one, ?_⟩
        exact fun converted => absurd converted.2 refused

/-- A list of three nodes, one of another family, converted without a refusal. -/
def plainLookup : Environment where
  endian := .little
  contextHop := .value
  status := 0
  res := [.inet ⟨16777343⟩, .other 1, .inet6 ⟨Vector.replicate 16 7⟩]
  poolHop := .value
  refuses _ := none

theorem released_iff_converted_plain :
    (lookupIp plainLookup).1 =
        .value [ipv4 127 0 0 1, Vector.replicate 16 7] ∧
      ((lookupIp plainLookup).2.frees = 1 ∧ (lookupIp plainLookup).2.stale = 0 ↔
        plainLookup.poolHop = .value ∧
          ∀ i, i < (addresses .little plainLookup.res).length → plainLookup.refuses i = none) :=
  ⟨by decide, (@released_iff_converted plainLookup rfl (by decide)).2⟩

/-- The second `emplace_back` throws: nobody frees the list. -/
def refusedLookup : Environment :=
  { plainLookup with refuses := fun i => if i = 1 then some .badAlloc else none }

theorem refused_lookup_leaks :
    (lookupIp refusedLookup).1 = .error (.thrown .badAlloc) ∧
      (lookupIp refusedLookup).2.frees = 0 ∧
      ¬ ((lookupIp refusedLookup).2.frees = 1 ∧ (lookupIp refusedLookup).2.stale = 0) :=
  ⟨by decide, by decide, by decide⟩

end LookupIp

end PatBase.Net
