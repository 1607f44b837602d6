import WamrExt.Lib.ByteRecord
import WamrExt.Socket.MsgIOVec

/-!
# Socket addresses, byte by byte

A socket address has one layout for the guest, `wamr_wasi_sockaddr_storage`, and one for each
family on the host. Two functions copy the fields from one to the other. Here both sides are
records of bytes.

The layouts of a family are tied by links, and both functions carry a record over them
(`toHost_eq_carry`, `toWasi_eq_carry`). So an address comes back as it was in either direction,
with nothing else changed (`sockAddr_survives`).

The functions on the fields of an address, which the handlers use, do the same as the ones on
bytes (`alone_wasiAppSockAddr`, and `toWasi_eq_setSockAddr` with `alone_putSockAddr`).
-/

set_option autoImplicit false

namespace WamrExt
namespace Socket
namespace SockAddrBytes

open ByteMemory ByteRecord SharedProgram

/-! ## Numbers in bytes -/

/-- The number in the bytes of a field. -/
def number {n : ℕ} (bytes : Vector UInt8 n) : ℕ := leNumber bytes.toList

theorem byteAt_leNumber (bytes : List UInt8) (k : ℕ) (bound : k < bytes.length) :
    byteAt (leNumber bytes) k = bytes[k] := by
  induction bytes generalizing k with
  | nil => exact absurd bound (Nat.not_lt_zero k)
  | cons byte rest ih =>
      have small := byte.toNat_lt
      cases k with
      | zero =>
          apply UInt8.toNat_inj.mp
          rw [byteAt_toNat, leNumber, pow_zero, Nat.div_one]
          simp only [List.getElem_cons_zero]
          omega
      | succ k =>
          have shift : (byte.toNat + 256 * leNumber rest) / 256 = leNumber rest := by omega
          rw [byteAt, leNumber, pow_succ', ← Nat.div_div_eq_div_mul, shift]
          exact ih k (Nat.lt_of_succ_lt_succ bound)

theorem byteAt_number {n : ℕ} (bytes : Vector UInt8 n) (i : Fin n) :
    byteAt (number bytes) i = bytes.get i := by
  rw [number, byteAt_leNumber _ _ (by rw [Vector.length_toList]; exact i.isLt)]
  exact Vector.getElem_toList _

theorem get_lowBytes {n : ℕ} (v : ℕ) (i : Fin n) : (lowBytes n v).get i = byteAt v i :=
  get_ofFn _ i

/-- The bytes of a field are those of its number. -/
theorem lowBytes_number {n : ℕ} (bytes : Vector UInt8 n) : lowBytes n (number bytes) = bytes := by
  apply ext_get
  intro i
  rw [get_lowBytes, byteAt_number]

/-! ## Layouts -/

/-- `wamr_wasi_sockaddr_storage` -/
abbrev WasiSockAddr := Vector UInt8 64

/-- `sockaddr_storage` of the host -/
abbrev HostStorage := Vector UInt8 128

/-- `family`, and the fields of `u_addr.inet` and `u_addr.inet6` -/
abbrev family : Field 64 := ⟨0, 2, by decide⟩
abbrev inetAddr : Field 64 := ⟨4, 4, by decide⟩
abbrev inetPort : Field 64 := ⟨8, 2, by decide⟩
abbrev inet6Addr : Field 64 := ⟨4, 16, by decide⟩
abbrev inet6Port : Field 64 := ⟨20, 2, by decide⟩
abbrev inet6Flowinfo : Field 64 := ⟨24, 4, by decide⟩
abbrev inet6ScopeId : Field 64 := ⟨28, 4, by decide⟩

/-- `ss_family`, and the fields of `sockaddr_in`, `sockaddr_in6` and `sockaddr_ll` -/
abbrev ssFamily : Field 128 := ⟨0, 2, by decide⟩
abbrev sinPort : Field 128 := ⟨2, 2, by decide⟩
abbrev sinAddr : Field 128 := ⟨4, 4, by decide⟩
abbrev sin6Port : Field 128 := ⟨2, 2, by decide⟩
abbrev sin6Flowinfo : Field 128 := ⟨4, 4, by decide⟩
abbrev sin6Addr : Field 128 := ⟨8, 16, by decide⟩
abbrev sin6ScopeId : Field 128 := ⟨24, 4, by decide⟩
abbrev sllIfindex : Field 128 := ⟨4, 4, by decide⟩
abbrev sllAddr : Field 128 := ⟨12, 6, by decide⟩

/-- `AF_INET`, `AF_INET6` and `AF_PACKET` -/
def afInet : ℕ := 2
def afInet6 : ℕ := 10
def afPacket : ℕ := 17

/-- `sizeof(sockaddr_in)` and `sizeof(sockaddr_in6)` -/
def sockaddrInSize : ℕ := 16
def sockaddrIn6Size : ℕ := 28

/-! ## The two functions -/

/-- `WasiAppSockAddrToHostSockAddr`, with `hostSockAddr` and `outAddrLen` -/
def wasiAppSockAddrToHostSockAddr (app : WasiSockAddr) : Except UInt16 (HostStorage × ℕ) :=
  let host : HostStorage := Vector.replicate 128 0
  if number (family.get app) = wasiAfInet then
    let host := ssFamily.set (lowBytes 2 afInet) host
    let host := sinAddr.set (inetAddr.get app) host
    let host := sinPort.set (inetPort.get app) host
    .ok (host, sockaddrInSize)
  else if number (family.get app) = wasiAfInet6 then
    let host := ssFamily.set (lowBytes 2 afInet6) host
    let host := sin6Addr.set (inet6Addr.get app) host
    let host := sin6Port.set (inet6Port.get app) host
    let host := sin6Flowinfo.set (inet6Flowinfo.get app) host
    let host := sin6ScopeId.set (inet6ScopeId.get app) host
    .ok (host, sockaddrIn6Size)
  else .error uvwasiEAFNOSUPPORT

/-- `HostSockAddrToWasiAppSockAddr`, into a record of the guest. The host address may be null. -/
def hostSockAddrToWasiAppSockAddr (host : Option HostStorage) (app : WasiSockAddr) :
    WasiSockAddr :=
  match host with
  | none => family.set (lowBytes 2 wasiAfUnspec) app
  | some host =>
      if number (ssFamily.get host) = afInet then
        let app := family.set (lowBytes 2 wasiAfInet) app
        let app := inetAddr.set (sinAddr.get host) app
        inetPort.set (sinPort.get host) app
      else if number (ssFamily.get host) = afInet6 then
        let app := family.set (lowBytes 2 wasiAfInet6) app
        let app := inet6Addr.set (sin6Addr.get host) app
        let app := inet6Port.set (sin6Port.get host) app
        let app := inet6Flowinfo.set (sin6Flowinfo.get host) app
        inet6ScopeId.set (sin6ScopeId.get host) app
      else family.set (lowBytes 2 wasiAfUnspec) app

/-! ## Carrying over the links of a family -/

/-- A family of addresses: its number for the guest and on the host, the links between the
layouts, and the size of an address on the host. No two fields of a layout overlap. -/
structure Family where
  wasi : ℕ
  host : ℕ
  links : List (Link 64 128)
  size : ℕ
  number_wasi : number (lowBytes 2 wasi) = wasi
  number_host : number (lowBytes 2 host) = host
  separate : Separate links
  separate_back : Separate (links.map Link.back)
  apart : ∀ link ∈ links, ssFamily.Apart link.there
  apart_back : ∀ link ∈ links.map Link.back, family.Apart link.there

/-- `AF_INET` -/
def inet : Family where
  wasi := wasiAfInet
  host := afInet
  links := [⟨4, 4, 4, by decide, by decide⟩, ⟨2, 8, 2, by decide, by decide⟩]
  size := sockaddrInSize
  number_wasi := by decide
  number_host := by decide
  separate := by decide
  separate_back := by decide
  apart := by decide
  apart_back := by decide

/-- `AF_INET6` -/
def inet6 : Family where
  wasi := wasiAfInet6
  host := afInet6
  links := [⟨16, 4, 8, by decide, by decide⟩, ⟨2, 20, 2, by decide, by decide⟩,
    ⟨4, 24, 4, by decide, by decide⟩, ⟨4, 28, 24, by decide, by decide⟩]
  size := sockaddrIn6Size
  number_wasi := by decide
  number_host := by decide
  separate := by decide
  separate_back := by decide
  apart := by decide
  apart_back := by decide

namespace Family

variable (fam : Family)

/-- The host address that the function makes of an address of the family. -/
def toHost (app : WasiSockAddr) : HostStorage :=
  carry fam.links app (ssFamily.set (lowBytes 2 fam.host) (Vector.replicate 128 0))

/-- The record that the function makes of a host address of the family. -/
def toWasi (host : HostStorage) (app : WasiSockAddr) : WasiSockAddr :=
  carry (fam.links.map Link.back) host (family.set (lowBytes 2 fam.wasi) app)

/-- The bytes of a record that belong to the address. -/
def WasiByte (i : Fin 64) : Prop := family.Covers i ∨ ∃ link ∈ fam.links, link.here.Covers i

/-- The bytes on the host that belong to the address. -/
def HostByte (i : Fin 128) : Prop := ssFamily.Covers i ∨ ∃ link ∈ fam.links, link.there.Covers i

instance (i : Fin 64) : Decidable (fam.WasiByte i) := inferInstanceAs (Decidable (_ ∨ _))

instance (i : Fin 128) : Decidable (fam.HostByte i) := inferInstanceAs (Decidable (_ ∨ _))

variable {fam} {app : WasiSockAddr} {host : HostStorage}

/-- The number of a family is in the bytes of the field. -/
theorem get_family (own : number (family.get app) = fam.wasi) :
    family.get app = lowBytes 2 fam.wasi := by
  rw [← own, lowBytes_number]

theorem get_ssFamily (own : number (ssFamily.get host) = fam.host) :
    ssFamily.get host = lowBytes 2 fam.host := by
  rw [← own, lowBytes_number]

theorem ssFamily_toHost : number (ssFamily.get (fam.toHost app)) = fam.host := by
  rw [toHost, get_carry_of_apart fam.apart, Field.get_set, fam.number_host]

theorem family_toWasi : number (family.get (fam.toWasi host app)) = fam.wasi := by
  rw [toWasi, get_carry_of_apart fam.apart_back, Field.get_set, fam.number_wasi]

/-- From the guest to the host and back. -/
theorem toWasi_toHost (own : number (family.get app) = fam.wasi) (into : WasiSockAddr)
    (i : Fin 64) : (fam.toWasi (fam.toHost app) into).get i =
      if fam.WasiByte i then app.get i else into.get i :=
  get_carry_back_tag fam.separate (get_family own) into i

/-- From the host to the guest and back. -/
theorem toHost_toWasi (own : number (ssFamily.get host) = fam.host) (into : WasiSockAddr)
    (i : Fin 128) : (fam.toHost (fam.toWasi host into)).get i =
      if fam.HostByte i then host.get i else 0 := by
  have links : (fam.links.map Link.back).map Link.back = fam.links := by
    rw [List.map_map]
    exact List.map_id _
  have round := get_carry_back_tag (s := family.set (lowBytes 2 fam.wasi) into) fam.separate_back
    (get_ssFamily own) (Vector.replicate 128 0) i
  rw [links] at round
  have zero : (Vector.replicate 128 (0 : UInt8)).get i = 0 := Vector.getElem_replicate i.isLt
  rw [toHost, toWasi, round, zero]
  simp only [List.mem_map, exists_exists_and_eq_and]
  rfl

end Family

/-! ## An address survives -/

section Survives

variable {app : WasiSockAddr} {host : HostStorage}

/-- The families that have addresses. -/
def families : List Family := [inet, inet6]

theorem mem_families {fam : Family} : fam ∈ families ↔ fam = inet ∨ fam = inet6 := by
  rw [families, List.mem_cons, List.mem_singleton]

theorem inet_known : inet ∈ families := mem_families.mpr (Or.inl rfl)

theorem inet6_known : inet6 ∈ families := mem_families.mpr (Or.inr rfl)

theorem toHost_eq_carry {fam : Family} (known : fam ∈ families)
    (own : number (family.get app) = fam.wasi) :
    wasiAppSockAddrToHostSockAddr app = .ok (fam.toHost app, fam.size) := by
  obtain rfl | rfl := mem_families.mp known
  · exact if_pos own
  · have not_inet : number (family.get app) ≠ wasiAfInet := by
      rw [own]
      decide
    exact (if_neg not_inet).trans (if_pos own)

theorem toWasi_eq_carry {fam : Family} (known : fam ∈ families)
    (own : number (ssFamily.get host) = fam.host) (into : WasiSockAddr) :
    hostSockAddrToWasiAppSockAddr (some host) into = fam.toWasi host into := by
  obtain rfl | rfl := mem_families.mp known
  · exact if_pos own
  · have not_inet : number (ssFamily.get host) ≠ afInet := by
      rw [own]
      decide
    exact (if_neg not_inet).trans (if_pos own)

/-- The fields of a record that hold its address: family, address and port, and for IPv6 the flow
info and the scope. -/
def wasiFields (app : WasiSockAddr) : List (Field 64) :=
  if number (family.get app) = wasiAfInet then [family, inetAddr, inetPort]
  else [family, inet6Addr, inet6Port, inet6Flowinfo, inet6ScopeId]

/-- The same fields on the host. -/
def hostFields (host : HostStorage) : List (Field 128) :=
  if number (ssFamily.get host) = afInet then [ssFamily, sinAddr, sinPort]
  else [ssFamily, sin6Addr, sin6Port, sin6Flowinfo, sin6ScopeId]

/-- The size of a host address of its family. -/
def hostAddrLen (host : HostStorage) : ℕ :=
  if number (ssFamily.get host) = afInet then sockaddrInSize else sockaddrIn6Size

theorem wasiFields_eq {fam : Family} (known : fam ∈ families)
    (own : number (family.get app) = fam.wasi) :
    wasiFields app = family :: fam.links.map Link.here := by
  obtain rfl | rfl := mem_families.mp known
  · exact if_pos own
  · rw [wasiFields, own]
    rfl

theorem hostFields_eq {fam : Family} (known : fam ∈ families)
    (own : number (ssFamily.get host) = fam.host) :
    hostFields host = ssFamily :: fam.links.map Link.there := by
  obtain rfl | rfl := mem_families.mp known
  · exact if_pos own
  · rw [hostFields, own]
    rfl

theorem hostAddrLen_eq {fam : Family} (known : fam ∈ families)
    (own : number (ssFamily.get host) = fam.host) : hostAddrLen host = fam.size := by
  obtain rfl | rfl := mem_families.mp known
  · exact if_pos own
  · rw [hostAddrLen, own]
    rfl

/-- The host fields of a family lie in an address of its size. -/
theorem fields_fit : ∀ fam ∈ families,
    ∀ f ∈ ssFamily :: fam.links.map Link.there, f.off + f.len ≤ fam.size := by
  decide

theorem number_of_known {fam : Family} (known : fam ∈ families) : fam.wasi = 1 ∨ fam.wasi = 2 := by
  obtain rfl | rfl := mem_families.mp known
  · exact .inl rfl
  · exact .inr rfl

/-- A record is translated by the layout of its family, or its family is not supported. -/
theorem known_or_refused (app : WasiSockAddr) :
    (∃ fam ∈ families, number (family.get app) = fam.wasi) ∨
      wasiAppSockAddrToHostSockAddr app = .error uvwasiEAFNOSUPPORT := by
  by_cases own : number (family.get app) = wasiAfInet
  · exact .inl ⟨inet, inet_known, own⟩
  · by_cases own6 : number (family.get app) = wasiAfInet6
    · exact .inl ⟨inet6, inet6_known, own6⟩
    · exact .inr ((if_neg own).trans (if_neg own6))

theorem translated_iff (app : WasiSockAddr) :
    (∃ result, wasiAppSockAddrToHostSockAddr app = .ok result) ↔
      number (family.get app) = 1 ∨ number (family.get app) = 2 := by
  constructor
  · rintro ⟨result, translated⟩
    obtain ⟨fam, known, own⟩ | refused := known_or_refused app
    · rw [own]
      exact number_of_known known
    · rw [refused] at translated
      cases translated
  · rintro (own | own)
    · exact ⟨_, toHost_eq_carry inet_known own⟩
    · exact ⟨_, toHost_eq_carry inet6_known own⟩

theorem refused_eq {err : UInt16} (refused : wasiAppSockAddrToHostSockAddr app = .error err) :
    err = uvwasiEAFNOSUPPORT := by
  obtain ⟨fam, known, own⟩ | unsupported := known_or_refused app
  · rw [toHost_eq_carry known own] at refused
    cases refused
  · rw [unsupported] at refused
    exact (Except.error.inj refused).symm

/-- From the guest to the host and back. -/
theorem wasi_survives {len : ℕ} (translated : wasiAppSockAddrToHostSockAddr app = .ok (host, len))
    (into : WasiSockAddr) (i : Fin 64) :
    (hostSockAddrToWasiAppSockAddr (some host) into).get i =
      if ∃ f ∈ wasiFields app, f.Covers i then app.get i else into.get i := by
  obtain ⟨fam, known, own⟩ | refused := known_or_refused app
  · rw [toHost_eq_carry known own] at translated
    cases translated
    rw [toWasi_eq_carry known Family.ssFamily_toHost, Family.toWasi_toHost own,
      wasiFields_eq known own]
    apply if_congr _ rfl rfl
    simp only [Family.WasiByte, List.exists_mem_cons_iff, List.mem_map,
      exists_exists_and_eq_and]
  · rw [refused] at translated
    cases translated

/-- From the host to the guest and back. -/
theorem host_survives {fam : Family} (known : fam ∈ families)
    (own : number (ssFamily.get host) = fam.host) (into : WasiSockAddr) :
    ∃ again,
      wasiAppSockAddrToHostSockAddr (hostSockAddrToWasiAppSockAddr (some host) into) =
        .ok (again, hostAddrLen host) ∧
      (∀ i, again.get i = if ∃ f ∈ hostFields host, f.Covers i then host.get i else 0) ∧
      ∀ f ∈ hostFields host, f.off + f.len ≤ hostAddrLen host := by
  refine ⟨fam.toHost (fam.toWasi host into), ?_, fun i => ?_, ?_⟩
  · rw [toWasi_eq_carry known own, toHost_eq_carry known Family.family_toWasi,
      hostAddrLen_eq known own]
  · rw [Family.toHost_toWasi own, hostFields_eq known own]
    apply if_congr _ rfl rfl
    simp only [Family.HostByte, List.exists_mem_cons_iff, List.mem_map,
      exists_exists_and_eq_and]
  · rw [hostFields_eq known own, hostAddrLen_eq known own]
    exact fields_fit fam known

end Survives

/-- **Socket addresses survive translation.** A record of the guest is translated exactly if its
family is 1 or 2, and the error is `UVWASI_EAFNOSUPPORT` otherwise. Back in any record, the fields
of the address are those it came from and no other byte has changed. An address of the host comes
back from the guest with its fields and zeros besides, and with the length of its family, which
reaches to the end of each field. -/
theorem sockAddr_survives :
    (∀ app, (∃ result, wasiAppSockAddrToHostSockAddr app = .ok result) ↔
      number (family.get app) = 1 ∨ number (family.get app) = 2) ∧
    (∀ app err, wasiAppSockAddrToHostSockAddr app = .error err → err = uvwasiEAFNOSUPPORT) ∧
    (∀ app host len, wasiAppSockAddrToHostSockAddr app = .ok (host, len) → ∀ into i,
      (hostSockAddrToWasiAppSockAddr (some host) into).get i =
        if ∃ f ∈ wasiFields app, f.Covers i then app.get i else into.get i) ∧
    ∀ host, number (ssFamily.get host) = afInet ∨ number (ssFamily.get host) = afInet6 →
      ∀ into, ∃ again,
        wasiAppSockAddrToHostSockAddr (hostSockAddrToWasiAppSockAddr (some host) into) =
          .ok (again, hostAddrLen host) ∧
        (∀ i, again.get i = if ∃ f ∈ hostFields host, f.Covers i then host.get i else 0) ∧
        ∀ f ∈ hostFields host, f.off + f.len ≤ hostAddrLen host := by
  refine ⟨translated_iff, fun app err => refused_eq, fun app host len => wasi_survives, ?_⟩
  rintro host (own | own)
  · exact host_survives inet_known own
  · exact host_survives inet6_known own

/-! ## The functions on fields -/

/-- The address in a host record, of the family that is in it. -/
def hostSockAddr (host : HostStorage) : HostSockAddr :=
  if number (ssFamily.get host) = afInet then .inet (sinAddr.get host) (sinPort.get host)
  else if number (ssFamily.get host) = afInet6 then
    .inet6 (sin6Addr.get host) (sin6Port.get host)
      (UInt32.ofNat (number (sin6Flowinfo.get host)))
      (UInt32.ofNat (number (sin6ScopeId.get host)))
  else if number (ssFamily.get host) = afPacket then
    .packet (sllAddr.get host) (UInt32.ofNat (number (sllIfindex.get host)))
  else .other

/-- A record of the guest with an address of the host. -/
def setSockAddr (addr : Option HostSockAddr) (app : WasiSockAddr) : WasiSockAddr :=
  match addr with
  | some (.inet addr port) =>
      inetPort.set port (inetAddr.set addr (family.set (lowBytes 2 wasiAfInet) app))
  | some (.inet6 addr port flowinfo scopeId) =>
      inet6ScopeId.set (lowBytes 4 scopeId.toNat) (inet6Flowinfo.set (lowBytes 4 flowinfo.toNat)
        (inet6Port.set port (inet6Addr.set addr (family.set (lowBytes 2 wasiAfInet6) app))))
  | some (.packet _ _) | some .other | none => family.set (lowBytes 2 wasiAfUnspec) app

section Fields

variable {mem : Memory} {ptr : ℕ}

theorem leNumber_lt (bytes : List UInt8) : leNumber bytes < 256 ^ bytes.length := by
  induction bytes with
  | nil => exact Nat.one_pos
  | cons byte rest ih =>
      have small := byte.toNat_lt
      rw [leNumber, List.length_cons, pow_succ]
      omega

/-- A field of four bytes is a number of 32 bits. -/
theorem lowBytes_ofNat (bytes : Vector UInt8 4) :
    lowBytes 4 (UInt32.ofNat (number bytes)).toNat = bytes := by
  have small : number bytes < 2 ^ 32 := by
    have bound := leNumber_lt bytes.toList
    rwa [Vector.length_toList] at bound
  rw [UInt32.toNat_ofNat', Nat.mod_eq_of_lt small, lowBytes_number]

/-- The function on bytes sets the address that is in them. -/
theorem toWasi_eq_setSockAddr (host : Option HostStorage) (app : WasiSockAddr) :
    hostSockAddrToWasiAppSockAddr host app = setSockAddr (host.map hostSockAddr) app := by
  cases host with
  | none => rfl
  | some host =>
      rw [hostSockAddrToWasiAppSockAddr, Option.map_some, hostSockAddr]
      by_cases own : number (ssFamily.get host) = afInet
      · rw [if_pos own, if_pos own]
        rfl
      by_cases own6 : number (ssFamily.get host) = afInet6
      · rw [if_neg own, if_pos own6, if_neg own, if_pos own6]
        simp only [setSockAddr, lowBytes_ofNat]
      · rw [if_neg own, if_neg own6, if_neg own, if_neg own6]
        split <;> rfl

/-- The number that is loaded from the bytes of a record. -/
theorem load_eq_leNumber (bytes : List UInt8)
    (shown : ∀ k (bound : k < bytes.length), mem (ptr + k) = bytes[k]) :
    load mem ptr bytes.length = leNumber bytes := by
  induction bytes generalizing ptr with
  | nil => rfl
  | cons byte rest ih =>
      have first : mem ptr = byte := shown 0 (Nat.succ_pos _)
      have later : load mem (ptr + 1) rest.length = leNumber rest := by
        apply ih
        intro k bound
        rw [Nat.add_assoc, Nat.add_comm 1 k]
        exact shown (k + 1) (Nat.succ_lt_succ bound)
      rw [List.length_cons, load, leNumber, first, later]

theorem load_of_shows {n : ℕ} {bytes : Vector UInt8 n} (shows : Shows mem ptr bytes) :
    load mem ptr n = number bytes := by
  have loaded : load mem ptr bytes.toList.length = leNumber bytes.toList := by
    apply load_eq_leNumber
    intro k bound
    rw [Vector.length_toList] at bound
    rw [Vector.getElem_toList]
    exact shows ⟨k, bound⟩
  rwa [Vector.length_toList] at loaded

/-- The address that is made of a record has the fields of the record. -/
theorem hostSockAddr_inet (app : WasiSockAddr) :
    hostSockAddr (inet.toHost app) = .inet (inetAddr.get app) (inetPort.get app) := by
  have filled : ∀ link ∈ inet.links, link.there.get (inet.toHost app) = link.here.get app :=
    get_carry inet.separate
  obtain ⟨addr, rest⟩ := List.forall_mem_cons.mp filled
  have port := rest _ List.mem_cons_self
  rw [hostSockAddr, addr, port]
  exact if_pos Family.ssFamily_toHost

theorem hostSockAddr_inet6 (app : WasiSockAddr) :
    hostSockAddr (inet6.toHost app) = .inet6 (inet6Addr.get app) (inet6Port.get app)
      (UInt32.ofNat (number (inet6Flowinfo.get app)))
      (UInt32.ofNat (number (inet6ScopeId.get app))) := by
  have filled : ∀ link ∈ inet6.links, link.there.get (inet6.toHost app) = link.here.get app :=
    get_carry inet6.separate
  have own : number (ssFamily.get (inet6.toHost app)) = afInet6 := Family.ssFamily_toHost
  obtain ⟨addr, rest⟩ := List.forall_mem_cons.mp filled
  obtain ⟨port, rest⟩ := List.forall_mem_cons.mp rest
  obtain ⟨flowinfo, rest⟩ := List.forall_mem_cons.mp rest
  have scopeId := rest _ List.mem_cons_self
  have not_inet : afInet6 ≠ afInet := by decide
  rw [hostSockAddr, own, if_neg not_inet, if_pos rfl, addr, port, flowinfo, scopeId]

/-- The translation of the record in the header of a message, where nobody else is at the
memory. -/
theorem alone_wasiAppSockAddr {args : MsgArgs} {app : WasiSockAddr}
    (shows : Shows mem args.pAppMsgHdr app) :
    (alone args.place Socket.wasiAppSockAddrToHostSockAddr mem).result =
      (wasiAppSockAddrToHostSockAddr app).map fun made => hostSockAddr made.1 := by
  have getAddr : ∀ (f : Field 64) (k : ℕ → Prog MsgAccess (Except UInt16 HostSockAddr)),
      (alone args.place (Prog.get (.addr f.off f.len) >>= k) mem).result =
        (alone args.place (k (number (f.get app))) mem).result := by
    intro f k
    rw [alone_get, Run.after_result, ← load_of_shows (shows.field (f := f))]
    rfl
  unfold Socket.wasiAppSockAddrToHostSockAddr
  rw [getAddr family]
  by_cases own : number (family.get app) = wasiAfInet
  · rw [if_pos own, getAddr inetAddr, getAddr inetPort, lowBytes_number, lowBytes_number,
      toHost_eq_carry inet_known own, Except.map, hostSockAddr_inet]
    rfl
  rw [if_neg own, getAddr family]
  by_cases own6 : number (family.get app) = wasiAfInet6
  · rw [if_pos own6, getAddr inet6Addr, getAddr inet6Port, getAddr inet6Flowinfo,
      getAddr inet6ScopeId, lowBytes_number, lowBytes_number,
      toHost_eq_carry inet6_known own6, Except.map,
      hostSockAddr_inet6]
    rfl
  · rw [if_neg own6, wasiAppSockAddrToHostSockAddr, if_neg own, if_neg own6]
    rfl

/-- The memory after the writes of a list. -/
def storeWrites (writes : List HostWrite) (mem : Memory) : Memory :=
  writes.foldl (fun mem w => store mem w.ptr w.bytes.length (leNumber w.bytes)) mem

theorem leBytes_eq (n v : ℕ) : leBytes n v = (lowBytes n v).toList := by
  rw [leBytes, lowBytes, Vector.toList_ofFn, List.ofFn_eq_map, ← List.map_coe_finRange_eq_range,
    List.map_map]
  rfl

/-- A write of a field sets it in the record. -/
theorem shows_write {n : ℕ} {f : Field n} {r : Vector UInt8 n} (shows : Shows mem ptr r)
    (v : Vector UInt8 f.len) :
    Shows (storeWrites [⟨ptr + f.off, v.toList⟩] mem) ptr (f.set v r) := by
  show Shows (store mem (ptr + f.off) v.toList.length (leNumber v.toList)) ptr (f.set v r)
  rw [Vector.length_toList]
  exact shows.store (byteAt_number v)

/-- The writes of an address to a record set it. -/
theorem shows_putSockAddr {app : WasiSockAddr} (shows : Shows mem ptr app)
    (addr : Option HostSockAddr) :
    Shows (storeWrites (Socket.hostSockAddrToWasiAppSockAddr ptr addr) mem) ptr
      (setSockAddr addr app) := by
  have unspec := shows_write (f := family) shows (lowBytes 2 wasiAfUnspec)
  cases addr with
  | none =>
      simp only [Socket.hostSockAddrToWasiAppSockAddr, leBytes_eq]
      exact unspec
  | some addr =>
      cases addr with
      | inet addr port =>
          have tagged := shows_write (f := family) shows (lowBytes 2 wasiAfInet)
          have placed := shows_write (f := inetAddr) tagged addr
          simp only [Socket.hostSockAddrToWasiAppSockAddr, leBytes_eq]
          exact shows_write (f := inetPort) placed port
      | inet6 addr port flowinfo scopeId =>
          have tagged := shows_write (f := family) shows (lowBytes 2 wasiAfInet6)
          have placed := shows_write (f := inet6Addr) tagged addr
          have ported := shows_write (f := inet6Port) placed port
          have labelled := shows_write (f := inet6Flowinfo) ported (lowBytes 4 flowinfo.toNat)
          simp only [Socket.hostSockAddrToWasiAppSockAddr, leBytes_eq]
          exact shows_write (f := inet6ScopeId) labelled (lowBytes 4 scopeId.toNat)
      | packet _ _ | other =>
          simp only [Socket.hostSockAddrToWasiAppSockAddr, leBytes_eq]
          exact unspec

/-- The writes of a list as accesses to a record at an address. -/
theorem alone_putSockAddr_mem {A : Type} {place : A → ℕ × ℕ} {field : ℕ → ℕ → A}
    (placed : ∀ off len, place (field off len) = (ptr + off, len)) (writes : List HostWrite) :
    (alone place (putSockAddr field writes) mem).mem =
      storeWrites (writes.map fun w => ⟨ptr + w.ptr, w.bytes⟩) mem := by
  induction writes generalizing mem with
  | nil => rfl
  | cons w rest ih =>
      have first : stored place mem (field w.ptr w.bytes.length) (leNumber w.bytes) =
          store mem (ptr + w.ptr) w.bytes.length (leNumber w.bytes) := by
        rw [stored, placed]
      exact ih.trans (congrArg _ first)

/-- A handler that puts an address sets it in the record, where nobody else is at the memory. -/
theorem alone_putSockAddr {A : Type} {place : A → ℕ × ℕ} {field : ℕ → ℕ → A} {app : WasiSockAddr}
    (placed : ∀ off len, place (field off len) = (ptr + off, len)) (shows : Shows mem ptr app)
    (addr : Option HostSockAddr) :
    Shows (alone place (putSockAddr field (Socket.hostSockAddrToWasiAppSockAddr 0 addr)) mem).mem
      ptr (setSockAddr addr app) := by
  have moved : (Socket.hostSockAddrToWasiAppSockAddr 0 addr).map
      (fun w => (⟨ptr + w.ptr, w.bytes⟩ : HostWrite)) =
        Socket.hostSockAddrToWasiAppSockAddr ptr addr := by
    cases addr with
    | none => rfl
    | some addr => cases addr <;> rfl
  rw [alone_putSockAddr_mem placed, moved]
  exact shows_putSockAddr shows addr

end Fields

end SockAddrBytes
end Socket
end WamrExt
