import WamrExt.Socket.PollContainment
import WamrExt.Wamr.LinearMemory

/-!
# `SockGetIfAddrs` and its callback

The list of network interfaces goes into a buffer that the guest allocates: the handler
calls a function of the guest with the size it needs, and gets an offset back. While the
guest runs it can change all of its memory, with the request of the handler in it. The
number of interfaces is kept in that request, and the handler reads it again after the call.

So the handler clears as many bytes as the guest then says, at the offset the guest gives,
and fills one record for each interface of the host. All of this stays inside the linear
memory, and what is cleared is what was asked for, exactly when the guest leaves the number
alone and gives a buffer that has room (`callback_safe_iff`).

Writes of the handler go through native pointers, and are followed as such.
-/

set_option autoImplicit false

namespace WamrExt
namespace Socket

open ByteMemory Wamr

/-! ## Interfaces of the host -/

/-- `struct sockaddr` of the host, with what the handler takes from it. Ports are two bytes
in network order. -/
inductive HostSockAddr where
  | inet (addr : Vector UInt8 4) (port : Vector UInt8 2)
  | inet6 (addr : Vector UInt8 16) (port : Vector UInt8 2) (flowinfo scopeId : UInt32)
  | packet (lladdr : Vector UInt8 6) (ifindex : UInt32)
  | other

/-- An entry of the list that `getifaddrs` gives. The name is a C string without its end. -/
structure HostIfAddr where
  ifaName : List UInt8
  ifaFlags : UInt32
  ifaAddr : Option HostSockAddr
  ifaNetmask : Option HostSockAddr
  ifaBroadaddr : Option HostSockAddr

/-- `IfInfo`: what is known of the interface of one name. -/
structure IfInfo where
  ifAddrs : List HostIfAddr := []
  mac : Vector UInt8 6 := Vector.replicate 6 0
  ifIndex : UInt32 := 0
  flags : UInt32 := 0

/-- `tempIfMap`, in the order of its keys. -/
abbrev IfMap := List (List UInt8 × IfInfo)

/-- Changes the info of a name, which is made first if there is none. -/
def IfMap.change (name : List UInt8) (f : IfInfo → IfInfo) : IfMap → IfMap
  | [] => [(name, f {})]
  | (other, info) :: rest =>
      if name = other then (other, f info) :: rest
      else if name < other then (name, f {}) :: (other, info) :: rest
      else (other, info) :: IfMap.change name f rest

/-- What an entry of the list of the host adds to the info of its name. -/
def IfInfo.add (host : HostIfAddr) (info : IfInfo) : IfInfo :=
  let info := { info with flags := host.ifaFlags }
  match host.ifaAddr with
  | some (.inet _ _) | some (.inet6 _ _ _ _) => { info with ifAddrs := info.ifAddrs ++ [host] }
  | some (.packet lladdr ifindex) => { info with mac := lladdr, ifIndex := ifindex }
  | some .other | none => info

/-- The map of all interfaces. -/
def tempIfMap (hostIfAddrs : List HostIfAddr) : IfMap :=
  hostIfAddrs.foldl (fun map host => IfMap.change host.ifaName (IfInfo.add host) map) []

/-- A record to fill: one for each address of an interface, and one for an interface without
addresses. -/
structure IfRecord where
  name : List UInt8
  info : IfInfo
  addr : Option HostIfAddr

/-- The records of one interface, in order. -/
def ifRecords (entry : List UInt8 × IfInfo) : List IfRecord :=
  if entry.2.ifAddrs = [] then [⟨entry.1, entry.2, none⟩]
  else entry.2.ifAddrs.map fun addr => ⟨entry.1, entry.2, some addr⟩

/-- `ret_ifaddr_cnt` after the loop that adds the number of records of each interface. -/
def ifAddrCnt (map : IfMap) : UInt32 :=
  map.foldl (fun cnt entry =>
    cnt + if entry.2.ifAddrs = [] then 1 else UInt32.ofNat entry.2.ifAddrs.length) 0

/-- The flags that `funcMapIfFlags` maps. They have the same values on both sides. -/
def ifFlags : List (UInt32 × UInt32) :=
  [(0x1, 0x1), (0x2, 0x2), (0x8, 0x8), (0x10, 0x10), (0x40, 0x40), (0x100, 0x100),
    (0x200, 0x200), (0x1000, 0x1000)]

/-- `funcMapIfFlags` -/
def funcMapIfFlags (hostFlags : UInt32) : UInt32 :=
  ifFlags.foldl (fun flags pair => if hostFlags &&& pair.1 ≠ 0 then flags ||| pair.2 else flags) 0

/-! ## Writes -/

/-- A write through a native pointer. -/
structure HostWrite where
  ptr : ℕ
  bytes : List UInt8

/-- Every byte of a write lies inside the linear memory. -/
def HostWrite.Inside (L : LinearMemory) (w : HostWrite) : Prop :=
  ∀ k < w.bytes.length,
    L.memoryData ≤ w.ptr + k ∧ w.ptr + k < L.memoryData + L.memoryDataSize

/-- The bytes of a little-endian number. -/
def leBytes (n v : ℕ) : List UInt8 := (List.range n).map (byteAt v)

/-- `__WASI_AF_UNSPEC`, `__WASI_AF_INET` and `__WASI_AF_INET6` -/
def wasiAfUnspec : ℕ := 0
def wasiAfInet : ℕ := 1
def wasiAfInet6 : ℕ := 2

/-- `HostSockAddrToWasiAppSockAddr`, on a record at a pointer. -/
def hostSockAddrToWasiAppSockAddr (ptr : ℕ) : Option HostSockAddr → List HostWrite
  | none => [⟨ptr, leBytes 2 wasiAfUnspec⟩]
  | some (.inet addr port) =>
      [⟨ptr, leBytes 2 wasiAfInet⟩, ⟨ptr + 4, addr.toList⟩, ⟨ptr + 8, port.toList⟩]
  | some (.inet6 addr port flowinfo scopeId) =>
      [⟨ptr, leBytes 2 wasiAfInet6⟩, ⟨ptr + 4, addr.toList⟩, ⟨ptr + 20, port.toList⟩,
        ⟨ptr + 24, leBytes 4 flowinfo.toNat⟩, ⟨ptr + 28, leBytes 4 scopeId.toNat⟩]
  | some (.packet _ _) | some .other => [⟨ptr, leBytes 2 wasiAfUnspec⟩]

/-- `sizeof(wamr_wasi_ifaddr)` -/
def ifAddrSize : ℕ := 248

/-- `WAMR_IF_NAME_MAX_LEN` -/
def ifNameMaxLen : ℕ := 32

/-- The writes that fill a record at a pointer: name, flags, hardware address, index and
three socket addresses at their offsets. -/
def fillIfAddr (ptr : ℕ) (record : IfRecord) : List HostWrite :=
  let name : HostWrite := ⟨ptr, record.name.take (ifNameMaxLen - 1) ++ [0]⟩
  let hwaddr : HostWrite := ⟨ptr + 232, record.info.mac.toList⟩
  let ifindex : HostWrite := ⟨ptr + 240, leBytes 4 record.info.ifIndex.toNat⟩
  match record.addr with
  | none =>
      [name, ⟨ptr + 32, leBytes 4 (funcMapIfFlags record.info.flags).toNat⟩, hwaddr, ifindex,
        ⟨ptr + 40, leBytes 2 wasiAfUnspec⟩, ⟨ptr + 104, leBytes 2 wasiAfUnspec⟩,
        ⟨ptr + 168, leBytes 2 wasiAfUnspec⟩]
  | some host =>
      [name, hwaddr, ifindex, ⟨ptr + 32, leBytes 4 (funcMapIfFlags host.ifaFlags).toNat⟩] ++
        hostSockAddrToWasiAppSockAddr (ptr + 40) host.ifaAddr ++
        hostSockAddrToWasiAppSockAddr (ptr + 104) host.ifaNetmask ++
        hostSockAddrToWasiAppSockAddr (ptr + 168) host.ifaBroadaddr

/-- The records are filled one after the other. -/
def fillIfAddrs (ptr : ℕ) : List IfRecord → List HostWrite
  | [] => []
  | record :: rest => fillIfAddr ptr record ++ fillIfAddrs (ptr + ifAddrSize) rest

/-! ## The handler -/

/-- What the guest function leaves: the offset it returns unless it traps, and its memory. -/
structure MallocReturn where
  offset : Option UInt32
  mem : Memory

/-- What the callback is called with, and the records to fill after it. -/
structure IfAddrsAsked where
  appFuncMalloc : UInt32
  size : UInt32
  mem : Memory
  records : List IfRecord

/-- What a call did: its result, the size it asked the guest for and the size it cleared, if
it came to that, and its writes after the callback. -/
structure IfAddrsCall where
  err : UInt16
  asked : Option UInt32 := none
  cleared : Option ℕ := none
  written : List HostWrite := []

/-- `UVWASI_ENOMEM` -/
def ifAddrsENOMEM : UInt16 := 48

section Handler

variable (L : LinearMemory) (pReq : ℕ)

/-- The handler up to the callback, for a request at an offset: it ends with an error, with
nothing to report, or with the callback. -/
def ifAddrsAsk (hostIfAddrs : Except UInt16 (List HostIfAddr)) (mem : Memory) :
    Except UInt16 (Option IfAddrsAsked) :=
  if L.validateNativeAddr (L.native pReq) 12 = false then .error uvwasiEFAULT
  else
    let mem := store mem (pReq + 8) 4 0
    match hostIfAddrs with
    | .error err => .error err
    | .ok list =>
        let map := tempIfMap list
        let mem := store mem (pReq + 8) 4 (ifAddrCnt map).toNat
        if ifAddrCnt map = 0 then .ok none
        else .ok (some ⟨UInt32.ofNat (load mem pReq 4),
          UInt32.ofNat (ifAddrSize * load mem (pReq + 8) 4), mem, map.flatMap ifRecords⟩)

/-- The handler from the callback on. A null pointer is address 0. -/
def ifAddrsFill (asked : IfAddrsAsked) (returned : MallocReturn) : IfAddrsCall :=
  match returned.offset with
  | none => { err := ifAddrsENOMEM, asked := some asked.size }
  | some offset =>
      if offset = 0 then { err := ifAddrsENOMEM, asked := some asked.size }
      else
        let mem := store returned.mem (pReq + 4) 4 offset.toNat
        let pAppIfAddrs := (L.addrAppToNative offset).getD 0
        let cleared := ifAddrSize * load mem (pReq + 8) 4
        { err := 0
          asked := some asked.size
          cleared := some cleared
          written := [⟨L.native (pReq + 4), leBytes 4 offset.toNat⟩,
            ⟨pAppIfAddrs, List.replicate cleared 0⟩] ++ fillIfAddrs pAppIfAddrs asked.records }

/-- `SockGetIfAddrs` -/
def sockGetIfAddrs (hostIfAddrs : Except UInt16 (List HostIfAddr))
    (malloc : UInt32 → UInt32 → Memory → MallocReturn) (mem : Memory) : IfAddrsCall :=
  match ifAddrsAsk L pReq hostIfAddrs mem with
  | .error err => { err := err }
  | .ok none => { err := 0 }
  | .ok (some asked) =>
      ifAddrsFill L pReq asked (malloc asked.appFuncMalloc asked.size asked.mem)

end Handler

/-! ## What is safe, and when -/

/-- Every byte written after the callback lies inside the linear memory, and what is cleared
has the size that was asked for. -/
structure CallbackSafe (L : LinearMemory) (call : IfAddrsCall) : Prop where
  inside : ∀ w ∈ call.written, w.Inside L
  cleared : ∀ cleared asked, call.cleared = some cleared → call.asked = some asked →
    cleared = asked.toNat

/-- If the guest function gives an offset when it is called, it leaves the number of records
as it is to be, and the offset has room for the records. -/
def GivesRoom (L : LinearMemory) (pReq : ℕ) (asked : IfAddrsAsked) (returned : MallocReturn) :
    Prop :=
  ∀ offset, returned.offset = some offset → offset ≠ 0 →
    load returned.mem (pReq + 8) 4 = asked.records.length ∧
      Inside L.memoryDataSize offset.toNat (ifAddrSize * asked.records.length)

section Records

theorem ifRecords_length (entry : List UInt8 × IfInfo) :
    (ifRecords entry).length =
      if entry.2.ifAddrs = [] then 1 else entry.2.ifAddrs.length := by
  rw [ifRecords]
  split
  · rfl
  · exact List.length_map _

/-- The number kept in the request is that of the records, cut to 32 bits. -/
theorem ifAddrCnt_toNat (map : IfMap) :
    (ifAddrCnt map).toNat = (map.flatMap ifRecords).length % 2 ^ 32 := by
  have step : ∀ (map : IfMap) (cnt : UInt32),
      (map.foldl (fun cnt entry =>
        cnt + if entry.2.ifAddrs = [] then 1 else UInt32.ofNat entry.2.ifAddrs.length) cnt).toNat =
        (cnt.toNat + (map.flatMap ifRecords).length) % 2 ^ 32 := by
    intro map
    induction map with
    | nil =>
        intro cnt
        exact (Nat.mod_eq_of_lt cnt.toNat_lt).symm
    | cons entry rest ih =>
        intro cnt
        rw [List.foldl_cons, ih, List.flatMap_cons, List.length_append, ifRecords_length,
          UInt32.toNat_add]
        split
        · simp only [UInt32.toNat_one]
          omega
        · rw [UInt32.toNat_ofNat']
          omega
  rw [ifAddrCnt, step]
  simp

end Records

section Fill

/-- A write lies in a range of addresses. -/
def HostWrite.Within (low high : ℕ) (w : HostWrite) : Prop :=
  low ≤ w.ptr ∧ w.ptr + w.bytes.length ≤ high

theorem leBytes_length (n v : ℕ) : (leBytes n v).length = n := by
  simp [leBytes]

/-- A socket address takes 32 bytes. -/
theorem sockAddr_within (ptr : ℕ) (addr : Option HostSockAddr) :
    ∀ w ∈ hostSockAddrToWasiAppSockAddr ptr addr, w.Within ptr (ptr + 32) := by
  intro w member
  match addr with
  | none | some (.packet _ _) | some .other | some (.inet _ _) | some (.inet6 _ _ _ _) =>
      simp only [hostSockAddrToWasiAppSockAddr, List.mem_cons, List.not_mem_nil, or_false]
        at member
      obtain rfl | rfl | rfl | rfl | rfl := member <;>
        simp [HostWrite.Within, leBytes_length]

theorem HostWrite.Within.mono {w : HostWrite} {low high low' high' : ℕ}
    (within : w.Within low' high') (lower : low ≤ low') (higher : high' ≤ high) :
    w.Within low high :=
  ⟨lower.trans within.1, within.2.trans higher⟩

/-- A record is filled up to the end of its last field. -/
theorem fillIfAddr_within (ptr : ℕ) (record : IfRecord) :
    ∀ w ∈ fillIfAddr ptr record, w.Within ptr (ptr + ifAddrSize) := by
  intro w member
  have size : ifAddrSize = 248 := rfl
  have name : (record.name.take (ifNameMaxLen - 1)).length ≤ 31 := List.length_take_le _ _
  cases own : record.addr with
  | none =>
      simp only [fillIfAddr, own, List.mem_cons, List.not_mem_nil, or_false] at member
      obtain rfl | rfl | rfl | rfl | rfl | rfl | rfl := member <;>
        simp only [HostWrite.Within, leBytes_length, List.length_append, List.length_singleton,
          Vector.length_toList] <;> omega
  | some host =>
      simp only [fillIfAddr, own, List.mem_append] at member
      obtain ((fixed | addr) | netmask) | broadaddr := member
      · simp only [List.mem_cons, List.not_mem_nil, or_false] at fixed
        obtain rfl | rfl | rfl | rfl := fixed <;>
          simp only [HostWrite.Within, leBytes_length, List.length_append,
            List.length_singleton, Vector.length_toList] <;> omega
      · exact (sockAddr_within _ _ w addr).mono (by omega) (by omega)
      · exact (sockAddr_within _ _ w netmask).mono (by omega) (by omega)
      · exact (sockAddr_within _ _ w broadaddr).mono (by omega) (by omega)

/-- The name is written at the start of a record, with its end. -/
theorem name_mem (ptr : ℕ) (record : IfRecord) :
    (⟨ptr, record.name.take (ifNameMaxLen - 1) ++ [0]⟩ : HostWrite) ∈ fillIfAddr ptr record := by
  cases own : record.addr with
  | none => simp [fillIfAddr, own]
  | some host => simp [fillIfAddr, own]

/-- The index of the interface is written at its place. -/
theorem ifindex_mem (ptr : ℕ) (record : IfRecord) :
    (⟨ptr + 240, leBytes 4 record.info.ifIndex.toNat⟩ : HostWrite) ∈ fillIfAddr ptr record := by
  cases own : record.addr with
  | none => simp [fillIfAddr, own]
  | some host => simp [fillIfAddr, own]

/-- All records together take their size. -/
theorem fillIfAddrs_within (ptr : ℕ) (records : List IfRecord) :
    ∀ w ∈ fillIfAddrs ptr records, w.Within ptr (ptr + ifAddrSize * records.length) := by
  induction records generalizing ptr with
  | nil => exact fun w member => absurd member List.not_mem_nil
  | cons record rest ih =>
      intro w member
      have size : ifAddrSize * (record :: rest).length =
          ifAddrSize + ifAddrSize * rest.length := by
        rw [List.length_cons, Nat.mul_succ, Nat.add_comm]
      rw [size]
      obtain own | later := List.mem_append.mp member
      · exact (fillIfAddr_within ptr record w own).mono le_rfl (by omega)
      · exact (ih (ptr + ifAddrSize) w later).mono (by omega) (by omega)

/-- The index of the last interface is written. -/
theorem last_ifindex_mem (ptr : ℕ) (records : List IfRecord) (some : records ≠ []) :
    ∃ bytes : List UInt8, bytes.length = 4 ∧
      (⟨ptr + ifAddrSize * (records.length - 1) + 240, bytes⟩ : HostWrite) ∈
        fillIfAddrs ptr records := by
  induction records generalizing ptr with
  | nil => exact absurd rfl some
  | cons record rest ih =>
      by_cases last : rest = []
      · subst last
        exact ⟨_, leBytes_length 4 _, List.mem_append_left _ (ifindex_mem ptr record)⟩
      · obtain ⟨bytes, length, member⟩ := ih (ptr + ifAddrSize) last
        have positive : 0 < rest.length := List.length_pos_iff.mpr last
        have place : ptr + ifAddrSize + ifAddrSize * (rest.length - 1) =
            ptr + ifAddrSize * ((record :: rest).length - 1) := by
          rw [List.length_cons, show ifAddrSize = 248 from rfl]
          omega
        rw [place] at member
        exact ⟨bytes, length, List.mem_append_right _ member⟩

end Fill

section Safe

variable {L : LinearMemory} {pReq : ℕ}

theorem HostWrite.Within.inside {w : HostWrite} {high : ℕ}
    (within : w.Within L.memoryData high) (room : high ≤ L.memoryData + L.memoryDataSize) :
    w.Inside L := by
  intro k bound
  obtain ⟨low, up⟩ := within
  omega

/-- What the handler has found when it calls the guest: its request lies inside, and the size
it asks for comes from the number of records. -/
theorem ifAddrsAsk_some {hostIfAddrs : Except UInt16 (List HostIfAddr)} {mem : Memory}
    {asked : IfAddrsAsked} (asks : ifAddrsAsk L pReq hostIfAddrs mem = .ok (some asked)) :
    Inside L.memoryDataSize pReq 12 ∧
      asked.size.toNat = ifAddrSize * (asked.records.length % 2 ^ 32) % 2 ^ 32 ∧
      asked.records ≠ [] := by
  rw [ifAddrsAsk] at asks
  split at asks
  · cases asks
  · next valid =>
    have inside := (L.validateNativeAddr_native pReq 12).mp (Bool.not_eq_false _ ▸ valid)
    cases hostIfAddrs with
    | error err => cases asks
    | ok list =>
        simp only at asks
        split at asks
        · cases asks
        · next positive =>
          obtain rfl := Option.some.inj (Except.ok.inj asks)
          have cnt := ifAddrCnt_toNat (tempIfMap list)
          have small := (ifAddrCnt (tempIfMap list)).toNat_lt
          refine ⟨inside, ?_, fun empty => positive ?_⟩
          · rw [UInt32.toNat_ofNat', load_store, Nat.mod_eq_of_lt (b := 256 ^ 4) small, cnt]
          · rw [show ((tempIfMap list).flatMap ifRecords) = [] from empty] at cnt
            exact UInt32.toNat_inj.mp cnt

/-- Filling records at a pointer inside the linear memory keeps inside up to the end of the
last field, so the pointer is not null. -/
theorem fill_inside_bounds {offset : UInt32} {records : List IfRecord} (some : records ≠ [])
    (inside : ∀ w ∈ fillIfAddrs ((L.addrAppToNative offset).getD 0) records, w.Inside L) :
    (L.addrAppToNative offset).getD 0 = L.native offset.toNat ∧
      offset.toNat + ifAddrSize * records.length < L.memoryDataSize + 5 := by
  have size : ifAddrSize = 248 := rfl
  obtain ⟨record, rest, rfl⟩ := List.exists_cons_of_ne_nil some
  have first := inside _ (List.mem_append_left _ (name_mem _ record)) 0 (by simp)
  have base : (L.addrAppToNative offset).getD 0 = L.native offset.toNat := by
    cases found : L.addrAppToNative offset with
    | none =>
        have positive := L.memoryData_pos
        simp only [found, Option.getD_none] at first
        omega
    | some p => exact (L.addrAppToNative_eq_some.mp found).2
  obtain ⟨bytes, length, member⟩ :=
    last_ifindex_mem ((L.addrAppToNative offset).getD 0) (record :: rest) some
  obtain ⟨_, last⟩ := inside _ member 3 (by simp [length])
  refine ⟨base, ?_⟩
  simp only [base, LinearMemory.native, List.length_cons, size] at last ⊢
  omega

/-- The size that was asked for is that of the records, when they fit the linear memory. -/
theorem asked_size {asked : UInt32} {count : ℕ}
    (size : asked.toNat = ifAddrSize * (count % 2 ^ 32) % 2 ^ 32)
    (fits : ifAddrSize * count < 2 ^ 32) : asked.toNat = ifAddrSize * count := by
  have record : ifAddrSize = 248 := rfl
  rw [record] at size fits ⊢
  omega

/-- **The callback decides.** From the callback on, the handler is safe exactly when the guest
function leaves the number of records and gives an offset with room, if it gives one. -/
theorem ifAddrsFill_safe_iff {asked : IfAddrsAsked} (request : Inside L.memoryDataSize pReq 12)
    (size : asked.size.toNat = ifAddrSize * (asked.records.length % 2 ^ 32) % 2 ^ 32)
    (some : asked.records ≠ []) (returned : MallocReturn) :
    CallbackSafe L (ifAddrsFill L pReq asked returned) ↔ GivesRoom L pReq asked returned := by
  have record : ifAddrSize = 248 := rfl
  have bound := L.memoryDataSize_lt
  rw [ifAddrsFill, GivesRoom]
  cases answer : returned.offset with
  | none =>
      exact ⟨fun _ _ given => (by cases given), fun _ =>
        ⟨fun _ member => absurd member List.not_mem_nil, fun _ _ none => (by cases none)⟩⟩
  | some offset =>
      simp only
      by_cases null : offset = 0
      · rw [if_pos null]
        refine ⟨fun _ other given => ?_, fun _ =>
          ⟨fun _ member => absurd member List.not_mem_nil, fun _ _ none => (by cases none)⟩⟩
        cases given
        exact fun positive => absurd null positive
      · rw [if_neg null, load_store_disjoint (Or.inr (by omega))]
        constructor
        · rintro ⟨inside, cleared⟩ _ ⟨⟩ _
          obtain ⟨base, room⟩ := fill_inside_bounds some fun w member =>
            inside w (List.mem_append_right _ member)
          -- no number of records ends in the last bytes below 2^32
          have total : asked.size.toNat = ifAddrSize * asked.records.length :=
            asked_size size (by rw [record] at room ⊢; omega)
          have count : load returned.mem (pReq + 8) 4 = asked.records.length := by
            have same := cleared _ _ rfl rfl
            rw [total, record] at same
            omega
          refine ⟨count, ?_⟩
          have positive : 0 < asked.records.length := List.length_pos_iff.mpr some
          have memset := inside _ (List.mem_append_left _ (List.mem_cons_of_mem _
            List.mem_cons_self)) (ifAddrSize * asked.records.length - 1) (by
              rw [List.length_replicate, count, record]
              omega)
          simp only [base, LinearMemory.native, record] at memset
          rw [Inside, record]
          omega
        · intro room
          obtain ⟨count, inside⟩ := room offset rfl null
          have positive : 0 < asked.records.length := List.length_pos_iff.mpr some
          rw [Inside, record] at inside
          have base : L.addrAppToNative offset = Option.some (L.native offset.toNat) :=
            L.addrAppToNative_eq_some.mpr ⟨by omega, rfl⟩
          rw [base, Option.getD_some, count]
          refine ⟨fun w member => ?_, ?_⟩
          · obtain fixed | filled := List.mem_append.mp member
            · simp only [List.mem_cons, List.not_mem_nil, or_false] at fixed
              rw [Inside] at request
              obtain rfl | rfl := fixed <;> intro k short <;>
                simp only [leBytes_length, List.length_replicate, record] at short <;>
                simp only [LinearMemory.native] <;> omega
            · have within := fillIfAddrs_within _ _ w filled
              apply (within.mono (Nat.le_add_right _ _) le_rfl).inside
              rw [LinearMemory.native, record]
              omega
          · rintro _ _ ⟨⟩ ⟨⟩
            exact (asked_size size (by rw [record]; omega)).symm

end Safe

/-- **When `SockGetIfAddrs` is safe against its callback.** Everything it writes after the
callback lies inside the linear memory, and what it clears is what it asked for, exactly when
the guest function, if it is called and gives an offset, leaves the number of records and
gives room for them. -/
theorem callback_safe_iff (L : LinearMemory) (pReq : ℕ)
    (hostIfAddrs : Except UInt16 (List HostIfAddr))
    (malloc : UInt32 → UInt32 → Memory → MallocReturn) (mem : Memory) :
    CallbackSafe L (sockGetIfAddrs L pReq hostIfAddrs malloc mem) ↔
      ∀ asked, ifAddrsAsk L pReq hostIfAddrs mem = .ok (some asked) →
        GivesRoom L pReq asked (malloc asked.appFuncMalloc asked.size asked.mem) := by
  have nothing : ∀ err, CallbackSafe L { err := err } := fun err =>
    ⟨fun _ member => absurd member List.not_mem_nil, fun _ _ none => by cases none⟩
  rw [sockGetIfAddrs]
  cases asks : ifAddrsAsk L pReq hostIfAddrs mem with
  | error err => exact ⟨fun _ _ none => (by cases none), fun _ => nothing err⟩
  | ok reached =>
      cases reached with
      | none => exact ⟨fun _ _ none => (by cases none), fun _ => nothing 0⟩
      | some asked =>
          obtain ⟨request, size, records⟩ := ifAddrsAsk_some asks
          simp only [ifAddrsFill_safe_iff request size records]
          exact ⟨fun room _ same => by cases same; exact room, fun room => room asked rfl⟩

/-- The loopback interface, with its hardware address only. -/
def loopback : HostIfAddr where
  ifaName := [0x6c, 0x6f]
  ifaFlags := 0x49
  ifaAddr := some (.packet (Vector.replicate 6 0) 1)
  ifaNetmask := none
  ifaBroadaddr := none

/-- A guest function gives an offset without room for one record, or gives room for one and
sets the number of records to 1000. -/
theorem callback_escapes :
    ¬ CallbackSafe onePage (sockGetIfAddrs onePage 0 (.ok [loopback])
        (fun _ _ mem => ⟨some 0xfff8, mem⟩) fun _ => 0) ∧
      ¬ CallbackSafe onePage (sockGetIfAddrs onePage 0 (.ok [loopback])
        (fun _ _ mem => ⟨some 0x400, store mem 8 4 1000⟩) fun _ => 0) := by
  constructor
  · intro safe
    have index := safe.inside _ (List.mem_append_right _
      (List.mem_append_left _ (ifindex_mem 0x1fff8 ⟨loopback.ifaName, _, none⟩))) 0 (by decide)
    exact absurd index (by decide)
  · intro safe
    exact absurd (safe.cleared 248000 248 rfl rfl) (by decide)

end Socket
end WamrExt
