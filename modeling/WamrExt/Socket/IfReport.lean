import WamrExt.Lib.OrderedGroups
import WamrExt.Socket.IfAddrs

/-!
# What `SockGetIfAddrs` reports

The host lists its interface addresses in any order, with an entry for each address and one for
the link of an interface. The report has them by the names of the interfaces, in increasing order:
an entry for each internet address of a name, in the order of the host, or one entry without an
address (`ifReport`). What is known of the link is in every entry of the name.

The handler collects a map over all names first, and goes over the map then. Its records are the
entries of the report (`records_eq_report`).
-/

set_option autoImplicit false

namespace WamrExt
namespace Socket

open ByteMemory OrderedGroups

/-! ## The report -/

/-- An entry has an internet address. -/
def HostIfAddr.isInet (host : HostIfAddr) : Bool :=
  match host.ifaAddr with
  | some (.inet _ _) | some (.inet6 _ _ _ _) => true
  | some (.packet _ _) | some .other | none => false

/-- The hardware address and the index in a packet entry. -/
def HostIfAddr.packet (host : HostIfAddr) : Option (Vector UInt8 6 × UInt32) :=
  match host.ifaAddr with
  | some (.packet lladdr ifindex) => some (lladdr, ifindex)
  | some (.inet _ _) | some (.inet6 _ _ _ _) | some .other | none => none

/-- `wamr_wasi_ifaddr`, with the name as a C string without its end. -/
structure WasiIfAddr where
  ifaName : List UInt8
  ifaFlags : UInt32
  ifaAddr : Option HostSockAddr
  ifaNetmask : Option HostSockAddr
  ifuBroadaddr : Option HostSockAddr
  ifaHwaddr : Vector UInt8 6
  ifaIfindex : UInt32

/-- The hardware address and the index of the last packet entry, or zeros. -/
def lastPacket (hosts : List HostIfAddr) : Vector UInt8 6 × UInt32 :=
  (hosts.filterMap HostIfAddr.packet).getLast?.getD (Vector.replicate 6 0, 0)

/-- The flags of the last entry. -/
def lastFlags (hosts : List HostIfAddr) : UInt32 :=
  (hosts.getLast?.map HostIfAddr.ifaFlags).getD 0

/-- The entries for a name, from the entries of the host with the name. -/
def reportOf (name : List UInt8) (hosts : List HostIfAddr) : List WasiIfAddr :=
  if hosts.filter HostIfAddr.isInet = [] then
    [⟨name.take (ifNameMaxLen - 1), funcMapIfFlags (lastFlags hosts), none, none, none,
      (lastPacket hosts).1, (lastPacket hosts).2⟩]
  else
    (hosts.filter HostIfAddr.isInet).map fun host =>
      ⟨name.take (ifNameMaxLen - 1), funcMapIfFlags host.ifaFlags, host.ifaAddr, host.ifaNetmask,
        host.ifaBroadaddr, (lastPacket hosts).1, (lastPacket hosts).2⟩

/-- The names of the interfaces in increasing order. -/
def ifNames (hostIfAddrs : List HostIfAddr) : List (List UInt8) :=
  distinct (hostIfAddrs.map HostIfAddr.ifaName)

/-- The report on a list of the host. -/
def ifReport (hostIfAddrs : List HostIfAddr) : List WasiIfAddr :=
  (ifNames hostIfAddrs).flatMap fun name =>
    reportOf name (group HostIfAddr.ifaName hostIfAddrs name)

/-- The report on the entries of one name. -/
theorem ifReport_one {name : List UInt8} {hostIfAddrs : List HostIfAddr}
    (own : ∀ host ∈ hostIfAddrs, host.ifaName = name) (some : hostIfAddrs ≠ []) :
    ifReport hostIfAddrs = reportOf name hostIfAddrs := by
  have names : ifNames hostIfAddrs = [name] := by
    apply eq_of_increasing distinct_increasing (List.pairwise_singleton _ _)
    intro other
    rw [mem_distinct, List.mem_singleton, List.mem_map]
    constructor
    · rintro ⟨host, member, rfl⟩
      exact own host member
    · rintro rfl
      obtain ⟨host, rest, rfl⟩ := List.exists_cons_of_ne_nil some
      exact ⟨host, List.mem_cons_self, own host List.mem_cons_self⟩
  have all : group HostIfAddr.ifaName hostIfAddrs name = hostIfAddrs := by
    apply List.filter_eq_self.mpr
    exact fun host member => decide_eq_true (own host member)
  rw [ifReport, names, List.flatMap_singleton, all]

/-! ## The records of the handler -/

/-- The entry that a record fills. -/
def IfRecord.entry (record : IfRecord) : WasiIfAddr :=
  match record.addr with
  | none =>
      ⟨record.name.take (ifNameMaxLen - 1), funcMapIfFlags record.info.flags, none, none, none,
        record.info.mac, record.info.ifIndex⟩
  | some host =>
      ⟨record.name.take (ifNameMaxLen - 1), funcMapIfFlags host.ifaFlags, host.ifaAddr,
        host.ifaNetmask, host.ifaBroadaddr, record.info.mac, record.info.ifIndex⟩

section Records

/-- `IfMap.change` changes an ordered map. -/
theorem change_eq (name : List UInt8) (f : IfInfo → IfInfo) (map : IfMap) :
    IfMap.change name f map = change {} name f map := by
  induction map with
  | nil => rfl
  | cons entry rest ih =>
      obtain ⟨other, info⟩ := entry
      rw [IfMap.change, change, ih]

/-- What is known of a name comes from the entries with the name. -/
def infoOf (hosts : List HostIfAddr) : IfInfo where
  ifAddrs := hosts.filter HostIfAddr.isInet
  mac := (lastPacket hosts).1
  ifIndex := (lastPacket hosts).2
  flags := lastFlags hosts

/-- One more entry of the host, of any kind. -/
theorem add_infoOf (hosts : List HostIfAddr) (host : HostIfAddr) :
    IfInfo.add host (infoOf hosts) = infoOf (hosts ++ [host]) := by
  have flags : lastFlags (hosts ++ [host]) = host.ifaFlags := by
    simp [lastFlags]
  obtain ⟨name, hostFlags, addr, netmask, broadaddr⟩ := host
  cases addr with
  | none =>
      simp [IfInfo.add, infoOf, flags, lastPacket, HostIfAddr.isInet, HostIfAddr.packet]
  | some addr =>
      cases addr <;>
        simp [IfInfo.add, infoOf, flags, lastPacket, List.filter_cons, HostIfAddr.isInet,
          HostIfAddr.packet]

theorem foldl_add (hosts : List HostIfAddr) :
    hosts.foldl (fun info host => IfInfo.add host info) {} = infoOf hosts := by
  induction hosts using List.reverseRecOn with
  | nil => rfl
  | append_singleton hosts host ih => rw [List.foldl_concat, ih, add_infoOf]

/-- The map of the handler has the names in increasing order, each with what the entries of the
host say of it. -/
theorem tempIfMap_eq (hostIfAddrs : List HostIfAddr) :
    tempIfMap hostIfAddrs = (ifNames hostIfAddrs).map fun name =>
      (name, infoOf (group HostIfAddr.ifaName hostIfAddrs name)) := by
  have collected : tempIfMap hostIfAddrs =
      collectFrom {} HostIfAddr.ifaName IfInfo.add [] hostIfAddrs := by
    simp only [tempIfMap, change_eq]
    rfl
  rw [collected, collect_eq, ifNames]
  simp only [foldl_add]

/-- The records of a name are the entries for it. -/
theorem ifRecords_entries (name : List UInt8) (hosts : List HostIfAddr) :
    (ifRecords (name, infoOf hosts)).map IfRecord.entry = reportOf name hosts := by
  show (if hosts.filter HostIfAddr.isInet = [] then [⟨name, infoOf hosts, none⟩]
    else (hosts.filter HostIfAddr.isInet).map fun addr => ⟨name, infoOf hosts, some addr⟩).map
      IfRecord.entry = reportOf name hosts
  rw [reportOf]
  split
  next => rfl
  next =>
    rw [List.map_map]
    rfl

/-- **The records are the report.** What the handler goes over to fill the buffer of the guest is
the report on the list of the host. -/
theorem records_eq_report (hostIfAddrs : List HostIfAddr) :
    ((tempIfMap hostIfAddrs).flatMap ifRecords).map IfRecord.entry = ifReport hostIfAddrs := by
  rw [tempIfMap_eq, List.flatMap_map, List.map_flatMap, ifReport]
  simp only [ifRecords_entries]

end Records

end Socket
end WamrExt
