import Mathlib.Data.List.GetD
import WamrExt.Socket.IfReport
import WamrExt.Socket.SockAddrBytes

/-!
# The report in the memory of the guest

`SockGetIfAddrs` counts the entries, asks the guest for a buffer, clears it and fills one record
after the other. The number of entries and the size of the buffer are kept in 32 bits.

If the guest gives a buffer of the size it was asked for and leaves the request alone, the report
is in it, complete and exact, if and only if the entries have a size below 2^32
(`report_exact_iff`). From there on the guest is asked for too little.
-/

set_option autoImplicit false

namespace WamrExt
namespace Socket

open ByteMemory ByteRecord SockAddrBytes Wamr

/-! ## An entry in bytes -/

/-- The fields of `wamr_wasi_ifaddr` -/
abbrev ifaName : Field 248 := ⟨0, 32, by decide⟩
abbrev ifaFlags : Field 248 := ⟨32, 4, by decide⟩
abbrev ifaAddr : Field 248 := ⟨40, 64, by decide⟩
abbrev ifaNetmask : Field 248 := ⟨104, 64, by decide⟩
abbrev ifuBroadaddr : Field 248 := ⟨168, 64, by decide⟩
abbrev ifaHwaddr : Field 248 := ⟨232, 6, by decide⟩
abbrev ifaIfindex : Field 248 := ⟨240, 4, by decide⟩

/-- A record of zeros. -/
def cleared (n : ℕ) : Vector UInt8 n := Vector.replicate n 0

/-- A name with zeros up to the end of the field. -/
def nameBytes (name : List UInt8) : Vector UInt8 32 := Vector.ofFn fun i => name.getD i 0

/-- The record for an entry: its fields, and zeros besides. -/
def ifAddrBytes (entry : WasiIfAddr) : Vector UInt8 248 :=
  ifuBroadaddr.set (setSockAddr entry.ifuBroadaddr (cleared 64))
    (ifaNetmask.set (setSockAddr entry.ifaNetmask (cleared 64))
      (ifaAddr.set (setSockAddr entry.ifaAddr (cleared 64))
        (ifaFlags.set (lowBytes 4 entry.ifaFlags.toNat)
          (ifaIfindex.set (lowBytes 4 entry.ifaIfindex.toNat)
            (ifaHwaddr.set entry.ifaHwaddr
              (ifaName.set (nameBytes entry.ifaName) (cleared 248)))))))

theorem get_cleared {n : ℕ} (f : Field n) : f.get (cleared n) = cleared f.len := by
  apply ext_get
  intro i
  rw [Field.get_get]
  exact (Vector.getElem_replicate _).trans (Vector.getElem_replicate _).symm

section Writes

variable {mem : Memory} {ptr a : ℕ}

theorem storeWrites_append (first second : List HostWrite) :
    storeWrites (first ++ second) mem = storeWrites second (storeWrites first mem) :=
  List.foldl_append

/-- Bytes outside all writes of a list stay as they are. -/
theorem storeWrites_out {writes : List HostWrite} {low high : ℕ}
    (within : ∀ w ∈ writes, w.Within low high) (out : a < low ∨ high ≤ a) :
    storeWrites writes mem a = mem a := by
  induction writes generalizing mem with
  | nil => rfl
  | cons w rest ih =>
      obtain ⟨lower, upper⟩ := within w List.mem_cons_self
      have first : store mem w.ptr w.bytes.length (leNumber w.bytes) a = mem a :=
        store_out (by omega)
      rw [← first]
      exact ih fun other member => within other (List.mem_cons_of_mem _ member)

/-- A write gives its bytes. -/
theorem storeWrites_byte (bytes : List UInt8) {k : ℕ} (bound : k < bytes.length) :
    storeWrites [⟨ptr, bytes⟩] mem (ptr + k) = bytes[k] := by
  show store mem ptr bytes.length (leNumber bytes) (ptr + k) = bytes[k]
  rw [store_in (Nat.le_add_right _ _) (Nat.add_lt_add_left bound _), Nat.add_sub_cancel_left,
    byteAt_leNumber bytes k bound]

/-- An address that is written to a field of a record. -/
theorem shows_sockAddr {n : ℕ} {r : Vector UInt8 n} (shows : Shows mem ptr r) (off : ℕ)
    (fits : off + 64 ≤ n) (addr : Option HostSockAddr) :
    Shows (storeWrites (Socket.hostSockAddrToWasiAppSockAddr (ptr + off) addr) mem) ptr
      ((⟨off, 64, fits⟩ : Field n).set
        (setSockAddr addr ((⟨off, 64, fits⟩ : Field n).get r)) r) := by
  let f : Field n := ⟨off, 64, fits⟩
  have inner : Shows mem (ptr + off) (f.get r) := shows.field
  apply shows.set (shows_putSockAddr inner addr)
  intro i out
  have outside : ¬ (off ≤ i.val ∧ i.val < off + 64) := out
  apply storeWrites_out (sockAddr_within (ptr + off) addr)
  omega

/-- The end of a name is a zero like those that follow it. -/
theorem getD_append_zero (name : List UInt8) (i : ℕ) :
    (name ++ [0]).getD i 0 = name.getD i 0 := by
  induction name generalizing i with
  | nil => cases i <;> rfl
  | cons byte rest ih =>
      cases i with
      | zero => rfl
      | succ i => exact ih i

/-- The name that is written to an empty entry, with its end. -/
theorem shows_name (shows : Shows mem ptr (cleared 248)) {name : List UInt8}
    (short : name.length ≤ 31) :
    Shows (storeWrites [⟨ptr, name ++ [0]⟩] mem) ptr
      (ifaName.set (nameBytes name) (cleared 248)) := by
  have empty : ∀ i : Fin 248, mem (ptr + i) = 0 := fun i =>
    (shows i).trans (Vector.getElem_replicate i.isLt)
  have within : ∀ w ∈ [(⟨ptr, name ++ [0]⟩ : HostWrite)],
      w.Within ptr (ptr + (name.length + 1)) := by
    intro w member
    rw [List.mem_singleton.mp member]
    exact ⟨le_rfl, by simp⟩
  apply shows.set
  · intro i
    rw [nameBytes, get_ofFn, Nat.add_zero, ← getD_append_zero]
    by_cases inside : i.val < (name ++ [0]).length
    · rw [storeWrites_byte _ inside, List.getD_eq_getElem _ _ inside]
    · have behind : ptr + (name.length + 1) ≤ ptr + i := by
        rw [List.length_append, List.length_singleton] at inside
        omega
      rw [storeWrites_out within (Or.inr behind), List.getD_eq_default _ _ (Nat.not_lt.mp inside)]
      exact empty ⟨i, Nat.lt_trans i.isLt (by decide)⟩
  · intro i out
    have outside : ¬ (0 ≤ i.val ∧ i.val < 0 + 32) := out
    apply storeWrites_out within
    omega

/-- The three addresses, after the other fields of an entry. -/
theorem shows_addresses {r : Vector UInt8 248} (shows : Shows mem ptr r)
    (addr netmask broadaddr : Option HostSockAddr)
    (addrClear : ifaAddr.get r = cleared 64) (netmaskClear : ifaNetmask.get r = cleared 64)
    (broadaddrClear : ifuBroadaddr.get r = cleared 64) :
    Shows (storeWrites (Socket.hostSockAddrToWasiAppSockAddr (ptr + 168) broadaddr)
      (storeWrites (Socket.hostSockAddrToWasiAppSockAddr (ptr + 104) netmask)
        (storeWrites (Socket.hostSockAddrToWasiAppSockAddr (ptr + 40) addr) mem))) ptr
      (ifuBroadaddr.set (setSockAddr broadaddr (cleared 64))
        (ifaNetmask.set (setSockAddr netmask (cleared 64))
          (ifaAddr.set (setSockAddr addr (cleared 64)) r))) := by
  have first := shows_sockAddr shows 40 (by decide) addr
  rw [addrClear] at first
  have second := shows_sockAddr first 104 (by decide) netmask
  rw [Field.get_set_of_apart (by decide), netmaskClear] at second
  have third := shows_sockAddr second 168 (by decide) broadaddr
  rw [Field.get_set_of_apart (by decide), Field.get_set_of_apart (by decide), broadaddrClear]
    at third
  exact third

/-- The fields before the addresses, in the order of an entry. -/
def linkBytes (name : List UInt8) (flags : UInt32) (hwaddr : Vector UInt8 6) (ifindex : UInt32) :
    Vector UInt8 248 :=
  ifaFlags.set (lowBytes 4 flags.toNat) (ifaIfindex.set (lowBytes 4 ifindex.toNat)
    (ifaHwaddr.set hwaddr (ifaName.set (nameBytes name) (cleared 248))))

/-- A field apart from these is empty. -/
theorem get_linkBytes {f : Field 248} {name : List UInt8} {flags : UInt32}
    {hwaddr : Vector UInt8 6} {ifindex : UInt32} (apart : f.Apart ifaFlags ∧ f.Apart ifaIfindex ∧
      f.Apart ifaHwaddr ∧ f.Apart ifaName) :
    f.get (linkBytes name flags hwaddr ifindex) = cleared f.len := by
  obtain ⟨flagsApart, indexApart, hwaddrApart, nameApart⟩ := apart
  rw [linkBytes, Field.get_set_of_apart flagsApart, Field.get_set_of_apart indexApart,
    Field.get_set_of_apart hwaddrApart, Field.get_set_of_apart nameApart, get_cleared]

/-- **One record.** The writes of a record to an empty place make it show the entry. -/
theorem shows_fillIfAddr (shows : Shows mem ptr (cleared 248)) (record : IfRecord) :
    Shows (storeWrites (fillIfAddr ptr record) mem) ptr (ifAddrBytes record.entry) := by
  have named := shows_name shows (List.length_take_le (ifNameMaxLen - 1) record.name)
  cases own : record.addr with
  | none =>
      have flagged := shows_write (f := ifaFlags) named
        (lowBytes 4 (funcMapIfFlags record.info.flags).toNat)
      have linked := shows_write (f := ifaHwaddr) flagged record.info.mac
      have indexed := shows_write (f := ifaIfindex) linked
        (lowBytes 4 record.info.ifIndex.toNat)
      rw [Field.set_comm (f := ifaHwaddr) (g := ifaFlags) (by decide),
        Field.set_comm (f := ifaIfindex) (g := ifaFlags) (by decide)] at indexed
      have addressed := shows_addresses indexed none none none (get_linkBytes (by decide))
        (get_linkBytes (by decide)) (get_linkBytes (by decide))
      simp only [fillIfAddr, own, IfRecord.entry, leBytes_eq]
      simp only [Socket.hostSockAddrToWasiAppSockAddr, leBytes_eq] at addressed
      exact addressed
  | some host =>
      have linked := shows_write (f := ifaHwaddr) named record.info.mac
      have indexed := shows_write (f := ifaIfindex) linked
        (lowBytes 4 record.info.ifIndex.toNat)
      have flagged := shows_write (f := ifaFlags) indexed
        (lowBytes 4 (funcMapIfFlags host.ifaFlags).toNat)
      have addressed := shows_addresses flagged host.ifaAddr host.ifaNetmask host.ifaBroadaddr
        (get_linkBytes (by decide)) (get_linkBytes (by decide)) (get_linkBytes (by decide))
      simp only [fillIfAddr, own, IfRecord.entry, leBytes_eq, storeWrites_append]
      exact addressed

/-- **All records.** The place of each record shows its entry, if all places were empty. -/
theorem shows_fillIfAddrs {records : List IfRecord}
    (empty : ∀ a, ptr ≤ a → a < ptr + ifAddrSize * records.length → mem a = 0) (i : ℕ)
    (bound : i < records.length) :
    Shows (storeWrites (fillIfAddrs ptr records) mem) (ptr + ifAddrSize * i)
      (ifAddrBytes records[i].entry) := by
  induction records generalizing mem ptr i with
  | nil => exact absurd bound (Nat.not_lt_zero i)
  | cons record rest ih =>
      have size : ifAddrSize = 248 := rfl
      have total : ifAddrSize * (record :: rest).length = 248 + ifAddrSize * rest.length := by
        rw [List.length_cons, Nat.mul_succ, Nat.add_comm, size]
      rw [total] at empty
      rw [fillIfAddrs, storeWrites_append]
      cases i with
      | zero =>
          have own : Shows mem ptr (cleared 248) := by
            intro k
            have inside := k.isLt
            rw [empty _ (Nat.le_add_right _ _) (by omega)]
            exact (Vector.getElem_replicate inside).symm
          apply (shows_fillIfAddr own record).congr
          intro a _ below
          exact storeWrites_out (fillIfAddrs_within _ rest) (Or.inl below)
      | succ i =>
          have later : ∀ a, ptr + ifAddrSize ≤ a →
              a < ptr + ifAddrSize + ifAddrSize * rest.length →
                storeWrites (fillIfAddr ptr record) mem a = 0 := by
            intro a low high
            rw [storeWrites_out (fillIfAddr_within ptr record) (Or.inr low)]
            exact empty a (by omega) (by omega)
          have shown := ih later i (Nat.lt_of_succ_lt_succ bound)
          rw [Nat.mul_succ, Nat.add_comm (ifAddrSize * i), ← Nat.add_assoc]
          exact shown

end Writes

/-! ## A call -/

/-- The linear memory through native pointers. -/
def hostView (L : LinearMemory) (mem : Memory) : Memory := fun p => mem (p - L.memoryData)

/-- The memory of the guest after writes through native pointers. -/
def afterWrites (L : LinearMemory) (writes : List HostWrite) (mem : Memory) : Memory := fun a =>
  storeWrites writes (hostView L mem) (L.native a)

section Call

variable (L : LinearMemory) (pReq : ℕ) (hostIfAddrs : List HostIfAddr)
  (malloc : UInt32 → UInt32 → Memory → MallocReturn) (mem : Memory)

/-- The memory after a call that gets a list from the host. Without a record, the number of them
is all that is written. -/
def ifAddrsMem : Memory :=
  match ifAddrsAsk L pReq (.ok hostIfAddrs) mem with
  | .error _ => mem
  | .ok none => store mem (pReq + 8) 4 0
  | .ok (some asked) =>
      let returned := malloc asked.appFuncMalloc asked.size asked.mem
      afterWrites L (ifAddrsFill L pReq asked returned).written returned.mem

/-- The offset of the buffer in the request after a call. -/
def ifAddrsBuf : ℕ := load (ifAddrsMem L pReq hostIfAddrs malloc mem) (pReq + 4) 4

/-- **The report is complete and exact.** The request has the number of its entries and the offset
of a buffer, in which they are one after the other, and nothing has been written elsewhere. -/
structure ReportExact : Prop where
  err : (sockGetIfAddrs L pReq (.ok hostIfAddrs) malloc mem).err = 0
  cnt : load (ifAddrsMem L pReq hostIfAddrs malloc mem) (pReq + 8) 4 = (ifReport hostIfAddrs).length
  entries : ∀ i (bound : i < (ifReport hostIfAddrs).length),
    Shows (ifAddrsMem L pReq hostIfAddrs malloc mem)
      (ifAddrsBuf L pReq hostIfAddrs malloc mem + ifAddrSize * i)
      (ifAddrBytes (ifReport hostIfAddrs)[i])
  written : ∀ w ∈ (sockGetIfAddrs L pReq (.ok hostIfAddrs) malloc mem).written,
    w.Within (L.native (pReq + 4)) (L.native (pReq + 8)) ∨
      ∃ size, (sockGetIfAddrs L pReq (.ok hostIfAddrs) malloc mem).asked = some size ∧
        w.Within (L.native (ifAddrsBuf L pReq hostIfAddrs malloc mem))
          (L.native (ifAddrsBuf L pReq hostIfAddrs malloc mem) + size.toNat)

/-- The guest function gives a buffer of the size that it is asked for, apart from the request,
and leaves the request as it is. -/
structure Allocates (asked : IfAddrsAsked) (returned : MallocReturn) (offset : UInt32) :
    Prop where
  returns : returned.offset = some offset
  not_null : offset ≠ 0
  inside : Inside L.memoryDataSize offset.toNat asked.size.toNat
  apart : offset.toNat + asked.size.toNat ≤ pReq ∨ pReq + 12 ≤ offset.toNat
  request : ∀ k < 12, returned.mem (pReq + k) = asked.mem (pReq + k)

/-- The allocation of the guest succeeds, if the handler calls for it. -/
def AllocationSucceeds : Prop :=
  ∀ asked, ifAddrsAsk L pReq (.ok hostIfAddrs) mem = .ok (some asked) →
    ∃ offset, Allocates L pReq asked (malloc asked.appFuncMalloc asked.size asked.mem) offset

end Call

section Ask

variable {L : LinearMemory} {pReq : ℕ} {hostIfAddrs : List HostIfAddr} {mem : Memory}

/-- The number of records is that of the entries to report. -/
theorem ifAddrCnt_report (hostIfAddrs : List HostIfAddr) :
    (ifAddrCnt (tempIfMap hostIfAddrs)).toNat = (ifReport hostIfAddrs).length % 2 ^ 32 := by
  rw [ifAddrCnt_toNat, ← records_eq_report, List.length_map]

/-- What a valid request comes to: nothing if there is no record, up to 32 bits, and the callback
otherwise, for the records of the report and with their number in the request. -/
theorem ifAddrsAsk_valid (valid : Inside L.memoryDataSize pReq 12) :
    (ifAddrsAsk L pReq (.ok hostIfAddrs) mem = .ok none ∧
        (ifReport hostIfAddrs).length % 2 ^ 32 = 0) ∨
      ∃ asked, ifAddrsAsk L pReq (.ok hostIfAddrs) mem = .ok (some asked) ∧
        asked.records.map IfRecord.entry = ifReport hostIfAddrs ∧
        load asked.mem (pReq + 8) 4 = (ifReport hostIfAddrs).length % 2 ^ 32 := by
  have accepted : L.validateNativeAddr (L.native pReq) 12 ≠ false :=
    ne_false_of_eq_true ((L.validateNativeAddr_native pReq 12).mpr valid)
  have cnt := ifAddrCnt_report hostIfAddrs
  rw [ifAddrsAsk, if_neg accepted]
  dsimp only
  by_cases empty : ifAddrCnt (tempIfMap hostIfAddrs) = 0
  · rw [if_pos empty]
    rw [empty] at cnt
    exact .inl ⟨rfl, cnt.symm⟩
  · rw [if_neg empty]
    refine .inr ⟨_, rfl, records_eq_report hostIfAddrs, ?_⟩
    rw [load_store, cnt]
    exact Nat.mod_mod _ _

end Ask

section Buffer

variable {L : LinearMemory} {pReq : ℕ} {asked : IfAddrsAsked} {returned : MallocReturn}
  {offset : UInt32}

/-- The guest function leaves the number of records. -/
theorem Allocates.cnt (allocates : Allocates L pReq asked returned offset) :
    load returned.mem (pReq + 8) 4 = load asked.mem (pReq + 8) 4 := by
  apply load_congr
  intro k bound
  rw [Nat.add_assoc]
  exact allocates.request (8 + k) (by omega)

/-- The handler from the callback on, with a buffer: the offset goes into the request, the buffer
is cleared for the records that the request says, and the records are filled. -/
theorem ifAddrsFill_allocated (allocates : Allocates L pReq asked returned offset) :
    ifAddrsFill L pReq asked returned =
      { err := 0
        asked := some asked.size
        cleared := some (ifAddrSize * load asked.mem (pReq + 8) 4)
        written := [⟨L.native (pReq + 4), leBytes 4 offset.toNat⟩,
          ⟨(L.addrAppToNative offset).getD 0,
            List.replicate (ifAddrSize * load asked.mem (pReq + 8) 4) 0⟩] ++
              fillIfAddrs ((L.addrAppToNative offset).getD 0) asked.records } := by
  have kept : load (store returned.mem (pReq + 4) 4 offset.toNat) (pReq + 8) 4 =
      load asked.mem (pReq + 8) 4 := by
    rw [load_store_disjoint (Or.inr (by omega)), allocates.cnt]
  rw [ifAddrsFill, allocates.returns]
  simp only [if_neg allocates.not_null, kept]

/-- The writes to the buffer: it is cleared for a number of records, and they are filled. -/
def bufferWrites (p : ℕ) (records : List IfRecord) : List HostWrite :=
  ⟨p, List.replicate (ifAddrSize * records.length) 0⟩ :: fillIfAddrs p records

theorem bufferWrites_within (p : ℕ) (records : List IfRecord) :
    ∀ w ∈ bufferWrites p records, w.Within p (p + ifAddrSize * records.length) := by
  intro w member
  obtain rfl | filled := List.mem_cons.mp member
  · exact ⟨le_rfl, by rw [List.length_replicate]⟩
  · exact fillIfAddrs_within p records w filled

/-- The records are filled in a buffer that has been cleared. -/
theorem shows_bufferWrites {mem : Memory} {p : ℕ} {records : List IfRecord} (i : ℕ)
    (bound : i < records.length) :
    Shows (storeWrites (bufferWrites p records) mem) (p + ifAddrSize * i)
      (ifAddrBytes records[i].entry) := by
  have empty : ∀ a, p ≤ a → a < p + ifAddrSize * records.length →
      storeWrites [⟨p, List.replicate (ifAddrSize * records.length) 0⟩] mem a = 0 := by
    intro a low high
    have inside : a - p < (List.replicate (ifAddrSize * records.length) (0 : UInt8)).length := by
      rw [List.length_replicate]
      omega
    rw [← Nat.add_sub_cancel' low, storeWrites_byte _ inside, List.getElem_replicate]
  exact shows_fillIfAddrs empty i bound

section After

variable {mem : Memory} {buf : ℕ} {records : List IfRecord}
  (apart : buf + ifAddrSize * records.length ≤ pReq ∨ pReq + 12 ≤ buf)

/-- The memory of the guest after the writes to the request and to a buffer. -/
def filledMem (L : LinearMemory) (pReq buf : ℕ) (records : List IfRecord) (mem : Memory) :
    Memory :=
  afterWrites L (⟨L.native (pReq + 4), leBytes 4 buf⟩ :: bufferWrites (L.native buf) records) mem

/-- A byte that is in no record of the buffer. -/
theorem filledMem_out {a : ℕ} (out : a < buf ∨ buf + ifAddrSize * records.length ≤ a) :
    filledMem L pReq buf records mem a =
      storeWrites [⟨L.native (pReq + 4), leBytes 4 buf⟩] (hostView L mem) (L.native a) := by
  apply storeWrites_out (bufferWrites_within (L.native buf) records)
  rw [LinearMemory.native, LinearMemory.native]
  omega

include apart in
/-- The request has the offset of the buffer. -/
theorem load_filledMem_buf (small : buf < 256 ^ 4) :
    load (filledMem L pReq buf records mem) (pReq + 4) 4 = buf := by
  have bytes : ∀ k < 4, filledMem L pReq buf records mem (pReq + 4 + k) = byteAt buf k := by
    intro k bound
    rw [filledMem_out (by omega)]
    have place : L.native (pReq + 4 + k) = L.native (pReq + 4) + k := (Nat.add_assoc _ _ _).symm
    rw [place, storeWrites_byte _ (by rwa [leBytes_length])]
    simp [leBytes]
  rw [load_of_bytes bytes, Nat.mod_eq_of_lt small]

include apart in
/-- The number of records in the request is as before. -/
theorem load_filledMem_cnt :
    load (filledMem L pReq buf records mem) (pReq + 8) 4 = load mem (pReq + 8) 4 := by
  apply load_congr
  intro k bound
  rw [filledMem_out (by omega)]
  have word : ∀ w ∈ [(⟨L.native (pReq + 4), leBytes 4 buf⟩ : HostWrite)],
      w.Within (L.native (pReq + 4)) (L.native (pReq + 8)) := by
    intro w member
    rw [List.mem_singleton.mp member]
    exact ⟨le_rfl, by rw [leBytes_length]; exact le_rfl⟩
  have above : L.native (pReq + 8) ≤ L.native (pReq + 8 + k) := by
    rw [LinearMemory.native, LinearMemory.native]
    omega
  rw [storeWrites_out word (Or.inr above), hostView, LinearMemory.native,
    Nat.add_sub_cancel_left]

/-- The records are in the buffer. -/
theorem shows_filledMem (i : ℕ) (bound : i < records.length) :
    Shows (filledMem L pReq buf records mem) (buf + ifAddrSize * i)
      (ifAddrBytes records[i].entry) := by
  intro k
  have place : L.native (buf + ifAddrSize * i + k) = L.native buf + ifAddrSize * i + k := by
    rw [LinearMemory.native, LinearMemory.native]
    omega
  rw [filledMem, afterWrites, place]
  exact shows_bufferWrites i bound k

end After

end Buffer

section Exact

variable {L : LinearMemory} {pReq : ℕ} {hostIfAddrs : List HostIfAddr}
  {malloc : UInt32 → UInt32 → Memory → MallocReturn} {mem : Memory}

/-- A call that comes to the callback is what follows it. -/
theorem sockGetIfAddrs_asked {asked : IfAddrsAsked}
    (asks : ifAddrsAsk L pReq (.ok hostIfAddrs) mem = .ok (some asked)) :
    sockGetIfAddrs L pReq (.ok hostIfAddrs) malloc mem =
      ifAddrsFill L pReq asked (malloc asked.appFuncMalloc asked.size asked.mem) := by
  rw [sockGetIfAddrs, asks]

theorem ifAddrsMem_asked {asked : IfAddrsAsked}
    (asks : ifAddrsAsk L pReq (.ok hostIfAddrs) mem = .ok (some asked)) :
    ifAddrsMem L pReq hostIfAddrs malloc mem =
      afterWrites L (ifAddrsFill L pReq asked
        (malloc asked.appFuncMalloc asked.size asked.mem)).written
          (malloc asked.appFuncMalloc asked.size asked.mem).mem := by
  rw [ifAddrsMem, asks]

/-- Without an entry there is nothing to ask for. -/
theorem report_of_nothing (asks : ifAddrsAsk L pReq (.ok hostIfAddrs) mem = .ok none)
    (empty : (ifReport hostIfAddrs).length = 0) :
    ReportExact L pReq hostIfAddrs malloc mem := by
  have call : sockGetIfAddrs L pReq (.ok hostIfAddrs) malloc mem = { err := 0 } := by
    rw [sockGetIfAddrs, asks]
  constructor
  · rw [call]
  · rw [ifAddrsMem, asks, empty]
    exact load_store
  · intro i bound
    exact absurd bound (by omega)
  · rw [call]
    exact fun w member => absurd member List.not_mem_nil

/-- With a buffer for all records, the report is in it. -/
theorem report_of_room {asked : IfAddrsAsked} {offset : UInt32}
    (asks : ifAddrsAsk L pReq (.ok hostIfAddrs) mem = .ok (some asked))
    (allocates : Allocates L pReq asked (malloc asked.appFuncMalloc asked.size asked.mem) offset)
    (entries : asked.records.map IfRecord.entry = ifReport hostIfAddrs)
    (cnt : load asked.mem (pReq + 8) 4 = asked.records.length)
    (some : asked.records ≠ [])
    (room : asked.size.toNat = ifAddrSize * asked.records.length) :
    ReportExact L pReq hostIfAddrs malloc mem := by
  have positive : 0 < ifAddrSize * asked.records.length :=
    Nat.mul_pos (by decide) (List.length_pos_iff.mpr some)
  have inside := allocates.inside
  have apart := allocates.apart
  rw [room] at inside apart
  have base : L.addrAppToNative offset = Option.some (L.native offset.toNat) :=
    L.addrAppToNative_eq_some.mpr ⟨by rw [Inside] at inside; omega, rfl⟩
  have filled := ifAddrsFill_allocated allocates
  rw [base, Option.getD_some, cnt] at filled
  have call : sockGetIfAddrs L pReq (.ok hostIfAddrs) malloc mem = _ := sockGetIfAddrs_asked asks
  have after : ifAddrsMem L pReq hostIfAddrs malloc mem =
      filledMem L pReq offset.toNat asked.records
        (malloc asked.appFuncMalloc asked.size asked.mem).mem := by
    rw [ifAddrsMem_asked asks, filled]
    rfl
  have buf : ifAddrsBuf L pReq hostIfAddrs malloc mem = offset.toNat := by
    rw [ifAddrsBuf, after, load_filledMem_buf apart offset.toNat_lt]
  have length : asked.records.length = (ifReport hostIfAddrs).length := by
    rw [← entries, List.length_map]
  constructor
  · rw [call, filled]
  · rw [after, load_filledMem_cnt apart, allocates.cnt, cnt, length]
  · intro i bound
    have own : i < asked.records.length := length ▸ bound
    have entry : (ifReport hostIfAddrs)[i] = asked.records[i].entry := by
      simp only [← entries, List.getElem_map]
    rw [buf, after, entry]
    exact shows_filledMem i own
  · rw [call, filled, buf]
    intro w member
    obtain rfl | member := List.mem_cons.mp member
    · left
      exact ⟨le_rfl, by rw [leBytes_length]; exact le_rfl⟩
    · right
      refine ⟨_, rfl, ?_⟩
      rw [room]
      exact bufferWrites_within _ _ w member

/-- The report is exact if its entries have a size below 2^32. -/
theorem report_of_fits (valid : Inside L.memoryDataSize pReq 12)
    (succeeds : AllocationSucceeds L pReq hostIfAddrs malloc mem)
    (fits : ifAddrSize * (ifReport hostIfAddrs).length < 2 ^ 32) :
    ReportExact L pReq hostIfAddrs malloc mem := by
  have size : ifAddrSize = 248 := rfl
  have short : (ifReport hostIfAddrs).length % 2 ^ 32 = (ifReport hostIfAddrs).length :=
    Nat.mod_eq_of_lt (by rw [size] at fits; omega)
  obtain ⟨asks, nothing⟩ | ⟨asked, asks, entries, cnt⟩ := @ifAddrsAsk_valid L pReq hostIfAddrs
    mem valid
  · exact report_of_nothing asks (short ▸ nothing)
  · obtain ⟨offset, allocates⟩ := succeeds asked asks
    obtain ⟨_, asked_size, some⟩ := ifAddrsAsk_some asks
    have length : asked.records.length = (ifReport hostIfAddrs).length := by
      rw [← entries, List.length_map]
    rw [short, ← length] at cnt
    rw [← length] at fits
    exact report_of_room asks allocates entries cnt some (Socket.asked_size asked_size fits)

/-- The report is exact only if its entries have a size below 2^32: the number of entries is cut
to 32 bits, and so is the size that is asked for. -/
theorem fits_of_report (valid : Inside L.memoryDataSize pReq 12)
    (succeeds : AllocationSucceeds L pReq hostIfAddrs malloc mem)
    (report : ReportExact L pReq hostIfAddrs malloc mem) :
    ifAddrSize * (ifReport hostIfAddrs).length < 2 ^ 32 := by
  have size : ifAddrSize = 248 := rfl
  have counted : (ifReport hostIfAddrs).length < 2 ^ 32 := report.cnt ▸ load_lt _ _ 4
  have short := Nat.mod_eq_of_lt counted
  obtain ⟨asks, nothing⟩ | ⟨asked, asks, entries, cnt⟩ := @ifAddrsAsk_valid L pReq hostIfAddrs
    mem valid
  · rw [size]
    omega
  · obtain ⟨offset, allocates⟩ := succeeds asked asks
    obtain ⟨_, asked_size, _⟩ := ifAddrsAsk_some asks
    rw [short] at cnt
    by_contra long
    -- the buffer is cleared for all entries, and the guest has been asked for less
    have small : asked.size.toNat < 2 ^ 32 := asked.size.toNat_lt
    have written := report.written
    rw [sockGetIfAddrs_asked asks, ifAddrsFill_allocated allocates, cnt] at written
    have outside := written _ (List.mem_append_left _ (List.mem_cons_of_mem _ List.mem_cons_self))
    simp only [HostWrite.Within, List.length_replicate, LinearMemory.native] at outside
    obtain word | ⟨size, asks, buffer⟩ := outside
    · omega
    · cases asks
      omega

end Exact

/-! ## One interface -/

/-- A guest function that gives offset 0x100. -/
def mallocAt : UInt32 → UInt32 → Memory → MallocReturn := fun _ _ mem => ⟨some 0x100, mem⟩

/-- The guest function has room for a size up to the rest of the page. -/
theorem mallocAt_succeeds {hostIfAddrs : List HostIfAddr} {mem : Memory}
    (room : ifAddrSize * ((ifReport hostIfAddrs).length % 2 ^ 32) % 2 ^ 32 ≤ 0xff00) :
    AllocationSucceeds onePage 0 hostIfAddrs mallocAt mem := by
  intro asked asks
  obtain ⟨_, size, _⟩ := ifAddrsAsk_some asks
  have length : asked.records.length = (ifReport hostIfAddrs).length := by
    obtain ⟨none, _⟩ | ⟨other, asks', entries, _⟩ := @ifAddrsAsk_valid onePage 0 hostIfAddrs mem
      (by decide)
    · cases none.symm.trans asks
    · cases asks'.symm.trans asks
      rw [← entries, List.length_map]
  have page : onePage.memoryDataSize = 0x10000 := rfl
  have offset : (0x100 : UInt32).toNat = 0x100 := rfl
  refine ⟨0x100, rfl, by decide, ?_, Or.inr (by decide), fun _ _ => rfl⟩
  rw [Inside, page, offset, size, length]
  omega

/-- An address of the loopback interface. -/
def loAddress (addr : ℕ) : HostIfAddr where
  ifaName := loopback.ifaName
  ifaFlags := 0x49
  ifaAddr := some (.inet (lowBytes 4 addr) (lowBytes 2 0))
  ifaNetmask := some (.inet (lowBytes 4 0xffffffff) (lowBytes 2 0))
  ifaBroadaddr := none

/-- An interface with many addresses has as many entries. -/
theorem ifReport_loAddress (n : ℕ) (some : n ≠ 0) :
    (ifReport ((List.range n).map loAddress)).length = n := by
  have not_nil : (List.range n).map loAddress ≠ [] := by
    rwa [Ne, List.map_eq_nil_iff, List.range_eq_nil]
  have internet : ((List.range n).map loAddress).filter HostIfAddr.isInet =
      (List.range n).map loAddress := by
    apply List.filter_eq_self.mpr
    intro host member
    obtain ⟨addr, _, rfl⟩ := List.mem_map.mp member
    rfl
  have own : ∀ host ∈ (List.range n).map loAddress, host.ifaName = loopback.ifaName := by
    intro host member
    obtain ⟨addr, _, rfl⟩ := List.mem_map.mp member
    rfl
  rw [ifReport_one own not_nil, reportOf, internet, if_neg not_nil, List.length_map,
    List.length_map, List.length_range]

/-- **When `SockGetIfAddrs` reports.** If the allocation of the guest succeeds and the guest leaves
the request alone, the report on the list of the host is complete and exact if and only if its
entries have a size below 2^32. -/
theorem report_exact_iff (L : LinearMemory) (pReq : ℕ) (hostIfAddrs : List HostIfAddr)
    (malloc : UInt32 → UInt32 → Memory → MallocReturn) (mem : Memory)
    (valid : Inside L.memoryDataSize pReq 12)
    (succeeds : AllocationSucceeds L pReq hostIfAddrs malloc mem) :
    ReportExact L pReq hostIfAddrs malloc mem ↔
      ifAddrSize * (ifReport hostIfAddrs).length < 2 ^ 32 :=
  ⟨fits_of_report valid succeeds, report_of_fits valid succeeds⟩

/-- The loopback interface with its link and one address, for a guest whose allocation succeeds. -/
theorem report_exact_loopback :
    ReportExact onePage 0 [loopback, loAddress 0x100007f] mallocAt fun _ => 0 := by
  have length : (ifReport [loopback, loAddress 0x100007f]).length = 1 := by
    have own : ∀ host ∈ [loopback, loAddress 0x100007f], host.ifaName = loopback.ifaName := by
      simp [loAddress]
    rw [ifReport_one own (List.cons_ne_nil _ _)]
    rfl
  have succeeds : AllocationSucceeds onePage 0 [loopback, loAddress 0x100007f] mallocAt
      fun _ => 0 := mallocAt_succeeds (by rw [length]; decide)
  apply (report_exact_iff onePage 0 _ mallocAt _ (by decide) succeeds).mpr
  rw [length]
  decide

/-- For 17318417 addresses the guest is asked for 120 bytes, which it has. -/
theorem long_report_not_exact :
    AllocationSucceeds onePage 0 ((List.range 17318417).map loAddress) mallocAt (fun _ => 0) ∧
      ¬ ReportExact onePage 0 ((List.range 17318417).map loAddress) mallocAt fun _ => 0 := by
  have length := ifReport_loAddress 17318417 (by decide)
  have succeeds : AllocationSucceeds onePage 0 ((List.range 17318417).map loAddress) mallocAt
      fun _ => 0 := mallocAt_succeeds (by rw [length]; decide)
  refine ⟨succeeds, fun report => ?_⟩
  have fits := fits_of_report (by decide) succeeds report
  rw [length] at fits
  exact absurd fits (by decide)

end Socket
end WamrExt
