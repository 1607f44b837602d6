import WamrExt.Lib.RecordedRuns
import WamrExt.Socket.IfReportFill
import WamrExt.Socket.MsgEntries
import WamrExt.Socket.SockOpen

/-!
# The names of sockets

A guest names a socket with `SockBind` and `SockConnect`, and asks for the names of it with
`SockGetSockName` and `SockGetPeerName`. Each handler validates one record of the guest, and the
host only sees what the record is translated to. The calls of all instances go to the sockets of
one host process, and between them the guests change their memory and their descriptors.

What names the sockets have is the business of the host, which may accept or refuse them, change
them and forget them. Nothing is assumed of it (`NameHost`). What the handlers owe to the guests is
that the records stand for the addresses. In every run, two records that went to or came from the
host, whichever instances they belong to, have the same fields exactly when the addresses on the
side of the host are the same (`names_faithful`). So a guest that is given the record of a name that
it knows has got that name, and a name that it was given can be handed on.

The accesses are named as those of a message, whose header starts with such a record.
-/

set_option autoImplicit false

namespace WamrExt
namespace Socket

open ByteMemory ByteRecord SharedProgram Transition Wamr SockAddrBytes

/-! ## The handlers -/

/-- The arguments of the four handlers, with the offset of the pointer. -/
structure NameArgs where
  appSockFD : ℤ
  pAppSockAddr : ℕ

def NameArgs.place (args : NameArgs) : MsgAccess → ℕ × ℕ :=
  MsgArgs.place ⟨args.appSockFD, args.pAppSockAddr, 0, 0⟩

/-- The result of a call, with what it exchanges with the host: the socket, and the address that it
passes on or gets. -/
structure NameResult where
  err : UInt16
  exchanged : Option (ℤ × Option HostSockAddr) := none

section Handlers

variable (L : LinearMemory) (args : NameArgs) (getHostSocketFD : ℤ → Except UInt16 ℤ)

/-- The record passes its validation. -/
def NameArgs.validated : Bool :=
  L.validateNativeAddr (L.native args.pAppSockAddr) (UInt32.ofNat sockAddrSize)

/-- A handler that names a socket with a call of the host. -/
def nameSocket (call : ℤ → HostSockAddr → UInt16) : Prog MsgAccess NameResult :=
  if ¬ args.validated L then pure { err := uvwasiEFAULT }
  else do
    match ← Socket.wasiAppSockAddrToHostSockAddr with
    | .error err => pure { err := err }
    | .ok hostSockAddr =>
        match getHostSocketFD args.appSockFD with
        | .error err => pure { err := err }
        | .ok hostSockFD =>
            pure {
              err := call hostSockFD hostSockAddr
              exchanged := some (hostSockFD, hostSockAddr) }

/-- A handler that asks a call of the host for a name. -/
def askName (call : ℤ → Except UInt16 HostSockAddr) : Prog MsgAccess NameResult :=
  if ¬ args.validated L then pure { err := uvwasiEFAULT }
  else
    match getHostSocketFD args.appSockFD with
    | .error err => pure { err := err }
    | .ok hostSockFD =>
        match call hostSockFD with
        | .error err => pure { err := err, exchanged := some (hostSockFD, none) }
        | .ok hostSockAddr => do
            putSockAddr .addr (hostSockAddrToWasiAppSockAddr 0 (some hostSockAddr))
            pure { err := 0, exchanged := some (hostSockFD, some hostSockAddr) }

/-- `SockBind` and `SockConnect` -/
def sockBind (bind : ℤ → HostSockAddr → UInt16) : Prog MsgAccess NameResult :=
  nameSocket L args getHostSocketFD bind
def sockConnect (connect : ℤ → HostSockAddr → UInt16) : Prog MsgAccess NameResult :=
  nameSocket L args getHostSocketFD connect

/-- `SockGetSockName` and `SockGetPeerName` -/
def sockGetSockName (getsockname : ℤ → Except UInt16 HostSockAddr) : Prog MsgAccess NameResult :=
  askName L args getHostSocketFD getsockname
def sockGetPeerName (getpeername : ℤ → Except UInt16 HostSockAddr) : Prog MsgAccess NameResult :=
  askName L args getHostSocketFD getpeername

end Handlers

/-! ## The address in a record -/

/-- The address of a record, if its family has addresses. -/
def recordAddr (app : WasiSockAddr) : Option HostSockAddr :=
  if number (family.get app) = wasiAfInet then
    some (.inet (inetAddr.get app) (inetPort.get app))
  else if number (family.get app) = wasiAfInet6 then
    some (.inet6 (inet6Addr.get app) (inet6Port.get app)
      (UInt32.ofNat (number (inet6Flowinfo.get app)))
      (UInt32.ofNat (number (inet6ScopeId.get app))))
  else none

/-- The record of 64 bytes at an offset. -/
def recordAt (mem : Memory) (ptr : ℕ) : WasiSockAddr := Vector.ofFn fun i => mem (ptr + i)

/-- An address that a guest can have a record of. -/
def HostSockAddr.ofGuests : HostSockAddr → Bool
  | .inet _ _ | .inet6 _ _ _ _ => true
  | .packet _ _ | .other => false

/-- The fields of the first record are the same in the second one. -/
def SameFields (app other : WasiSockAddr) : Prop := ∀ f ∈ wasiFields app, f.get app = f.get other

section Records

variable {app other : WasiSockAddr} {addr : HostSockAddr}

/-- What a record is translated to is its address. -/
theorem map_translated (app : WasiSockAddr) :
    (SockAddrBytes.wasiAppSockAddrToHostSockAddr app).map (fun made =>
        SockAddrBytes.hostSockAddr made.1) =
      (recordAddr app).elim (.error uvwasiEAFNOSUPPORT) .ok := by
  rw [recordAddr]
  by_cases own : number (family.get app) = wasiAfInet
  · rw [toHost_eq_carry inet_known own, if_pos own, Except.map, hostSockAddr_inet]
    rfl
  by_cases own6 : number (family.get app) = wasiAfInet6
  · rw [toHost_eq_carry inet6_known own6, if_neg own, if_pos own6, Except.map,
      hostSockAddr_inet6]
    rfl
  · rw [SockAddrBytes.wasiAppSockAddrToHostSockAddr, if_neg own, if_neg own6, if_neg own,
      if_neg own6]
    rfl

/-- The number of the bytes of a number. -/
theorem number_lowBytes {n v : ℕ} (small : v < 256 ^ n) : number (lowBytes n v) = v := by
  have shows : Shows (fun k => byteAt v k) 0 (lowBytes n v) := by
    intro i
    rw [get_lowBytes, Nat.zero_add]
  rw [← load_of_shows shows, load_of_bytes fun k _ => by rw [Nat.zero_add]]
  exact Nat.mod_eq_of_lt small

theorem ofNat_number (n : UInt32) : UInt32.ofNat (number (lowBytes 4 n.toNat)) = n := by
  rw [number_lowBytes n.toNat_lt, UInt32.ofNat_toNat]

/-- An address that is set in a record is the address of it. -/
theorem recordAddr_setSockAddr (guests : addr.ofGuests = true) (app : WasiSockAddr) :
    recordAddr (setSockAddr (some addr) app) = some addr := by
  have inet_ne : wasiAfInet6 ≠ wasiAfInet := by decide
  cases addr with
  | inet addr port =>
      have own : number (lowBytes 2 wasiAfInet) = wasiAfInet := number_lowBytes (by decide)
      simp (disch := decide) only [recordAddr, setSockAddr, Field.get_set_of_apart, Field.get_set,
        own, if_pos]
  | inet6 addr port flowinfo scopeId =>
      have own : number (lowBytes 2 wasiAfInet6) = wasiAfInet6 := number_lowBytes (by decide)
      simp (disch := decide) only [recordAddr, setSockAddr, Field.get_set_of_apart, Field.get_set,
        own, inet_ne, if_neg, if_pos, ofNat_number]
  | packet _ _ | other => cases guests

/-- Fields of four bytes with the same number are the same. -/
theorem ofNat_number_inj {v w : Vector UInt8 4} :
    UInt32.ofNat (number v) = UInt32.ofNat (number w) ↔ v = w := by
  refine ⟨fun same => ?_, fun same => same ▸ rfl⟩
  rw [← lowBytes_ofNat v, same, lowBytes_ofNat]

/-- A record with an address is one of the two families. -/
theorem recordAddr_cases (known : recordAddr app = some addr) :
    (family.get app = lowBytes 2 wasiAfInet ∧ wasiFields app = [family, inetAddr, inetPort] ∧
      addr = .inet (inetAddr.get app) (inetPort.get app)) ∨
    (family.get app = lowBytes 2 wasiAfInet6 ∧
      wasiFields app = [family, inet6Addr, inet6Port, inet6Flowinfo, inet6ScopeId] ∧
      addr = .inet6 (inet6Addr.get app) (inet6Port.get app)
        (UInt32.ofNat (number (inet6Flowinfo.get app)))
        (UInt32.ofNat (number (inet6ScopeId.get app)))) := by
  rw [recordAddr] at known
  split at known
  next own =>
    cases known
    exact .inl ⟨inet.get_family own, if_pos own, rfl⟩
  next not_inet =>
    obtain ⟨own, same⟩ := Option.ite_none_right_eq_some.mp known
    cases same
    exact .inr ⟨inet6.get_family own, if_neg not_inet, rfl⟩

/-- Records have the same fields exactly when they have the same address. -/
theorem sameFields_iff {addr' : HostSockAddr} (known : recordAddr app = some addr)
    (known' : recordAddr other = some addr') : SameFields app other ↔ addr = addr' := by
  have families_ne : lowBytes 2 wasiAfInet ≠ lowBytes 2 wasiAfInet6 := by decide
  rw [SameFields]
  obtain ⟨tag, fields, rfl⟩ | ⟨tag, fields, rfl⟩ := recordAddr_cases known <;>
    obtain ⟨tag', _, rfl⟩ | ⟨tag', _, rfl⟩ := recordAddr_cases known' <;>
      rw [fields] <;> simp only [List.forall_mem_cons, tag, tag', true_and]
  · simp
  · exact ⟨fun same => absurd same.1 families_ne, nofun⟩
  · exact ⟨fun same => absurd same.1.symm families_ne, nofun⟩
  · simp [ofNat_number_inj]

end Records

/-! ## What one call does -/

/-- What a call leaves: the address that it exchanges is the one in the record after it, nothing
outside of the record is written, and nothing at all by a call that fails. -/
structure NameCalled (args : NameArgs) (mem : Memory) (run : Run MsgAccess NameResult) : Prop where
  exchanged : ∀ hostSockFD addr, run.result.exchanged = some (hostSockFD, some addr) →
    addr.ofGuests = true → recordAddr (recordAt run.mem args.pAppSockAddr) = some addr
  failed : run.result.err ≠ 0 → run.mem = mem
  frame : ∀ x, x < args.pAppSockAddr ∨ args.pAppSockAddr + sockAddrSize ≤ x → run.mem x = mem x

section Calls

variable {L : LinearMemory} {args : NameArgs} {getHostSocketFD : ℤ → Except UInt16 ℤ}
  {mem : Memory}

/-- A call that exchanges no address and writes nothing. -/
theorem nameCalled_quiet {run : Run MsgAccess NameResult} (same : run.mem = mem)
    (none : ∀ hostSockFD addr, run.result.exchanged ≠ some (hostSockFD, some addr)) :
    NameCalled args mem run :=
  ⟨fun hostSockFD addr given => absurd given (none hostSockFD addr), fun _ => same,
    fun x _ => congrFun same x⟩

theorem shows_recordAt (mem : Memory) (ptr : ℕ) : Shows mem ptr (recordAt mem ptr) := by
  intro i
  rw [recordAt, get_ofFn]

theorem recordAt_eq {ptr : ℕ} {app : WasiSockAddr} (shows : Shows mem ptr app) :
    recordAt mem ptr = app := by
  apply ext_get
  intro i
  rw [recordAt, get_ofFn, shows i]

/-- A handler that names a socket passes on the address of its record, and writes nothing. -/
theorem alone_nameSocket (call : ℤ → HostSockAddr → UInt16) :
    NameCalled args mem (alone args.place (nameSocket L args getHostSocketFD call) mem) ∧
      (alone args.place (nameSocket L args getHostSocketFD call) mem).mem = mem ∧
        ∀ hostSockFD addr, args.validated L = true →
          recordAddr (recordAt mem args.pAppSockAddr) = some addr →
            getHostSocketFD args.appSockFD = .ok hostSockFD →
              (alone args.place (nameSocket L args getHostSocketFD call) mem).result =
                ⟨call hostSockFD addr, some (hostSockFD, some addr)⟩ := by
  have translates : (alone args.place Socket.wasiAppSockAddrToHostSockAddr mem).result =
      (recordAddr (recordAt mem args.pAppSockAddr)).elim (.error uvwasiEAFNOSUPPORT) .ok :=
    (alone_wasiAppSockAddr (shows_recordAt mem args.pAppSockAddr)).trans (map_translated _)
  rw [nameSocket]
  split
  next invalid =>
    exact ⟨nameCalled_quiet rfl nofun, rfl, fun _ _ valid => absurd valid invalid⟩
  next =>
    rw [alone_bind, wasiAppSockAddr_readsOnly.mem_eq, translates]
    cases named : recordAddr (recordAt mem args.pAppSockAddr) with
    | none => exact ⟨nameCalled_quiet rfl nofun, rfl, fun _ _ _ known => nomatch known⟩
    | some addr =>
        cases found : getHostSocketFD args.appSockFD with
        | error err => exact ⟨nameCalled_quiet rfl nofun, rfl, fun _ _ _ _ there => nomatch there⟩
        | ok hostSockFD =>
            refine ⟨⟨?_, fun _ => rfl, fun _ _ => rfl⟩, rfl, ?_⟩
            · rintro _ _ ⟨⟩ _
              exact named
            · rintro _ _ _ ⟨⟩ ⟨⟩
              rfl

/-- A handler that asks for a name puts the address that it gets in its record. -/
theorem alone_askName (call : ℤ → Except UInt16 HostSockAddr) :
    NameCalled args mem (alone args.place (askName L args getHostSocketFD call) mem) ∧
      ∀ hostSockFD addr, args.validated L = true →
        getHostSocketFD args.appSockFD = .ok hostSockFD → call hostSockFD = .ok addr →
          (alone args.place (askName L args getHostSocketFD call) mem).result =
            ⟨0, some (hostSockFD, some addr)⟩ := by
  have placed : ∀ off len, args.place (.addr off len) = (args.pAppSockAddr + off, len) :=
    fun _ _ => rfl
  rw [askName]
  split
  next invalid => exact ⟨nameCalled_quiet rfl nofun, fun _ _ valid => absurd valid invalid⟩
  next =>
    cases found : getHostSocketFD args.appSockFD with
    | error err => exact ⟨nameCalled_quiet rfl nofun, fun _ _ _ there => nomatch there⟩
    | ok hostSockFD =>
        dsimp only
        cases named : call hostSockFD with
        | error err =>
            refine ⟨nameCalled_quiet rfl nofun, fun fd addr _ there given => ?_⟩
            cases there
            cases named.symm.trans given
        | ok addr =>
            dsimp only
            rw [alone_bind]
            have shows := alone_putSockAddr placed (shows_recordAt mem args.pAppSockAddr)
              (some addr)
            refine ⟨⟨fun fd addr' given guests => ?_, fun failed => absurd rfl failed,
              fun x out => ?_⟩, fun fd addr' _ there given => ?_⟩
            · have same : some (hostSockFD, some addr) = some (fd, some addr') := given
              obtain ⟨rfl, rfl⟩ : hostSockFD = fd ∧ addr = addr' := by simpa using same
              exact (congrArg recordAddr (recordAt_eq shows)).trans
                (recordAddr_setSockAddr guests (recordAt mem args.pAppSockAddr))
            · change (alone args.place (putSockAddr .addr
                (hostSockAddrToWasiAppSockAddr 0 (some addr))) mem).mem x = mem x
              rw [alone_putSockAddr_mem placed]
              refine storeWrites_out (fun w member => ?_) out
              obtain ⟨own, inOwn, rfl⟩ := List.mem_map.mp member
              obtain ⟨lower, upper⟩ := sockAddr_within 0 _ own inOwn
              exact ⟨Nat.le_add_right _ _, by simp only [sockAddrSize]; omega⟩
            · obtain rfl := Except.ok.inj there
              obtain rfl := Except.ok.inj (named.symm.trans given)
              rfl

end Calls

/-! ## The sockets of the host -/

/-- The four host calls, on the state of the host. Nothing is known of what they do. -/
structure NameHost (σ : Type) where
  bind : σ → ℤ → HostSockAddr → UInt16 × σ
  connect : σ → ℤ → HostSockAddr → UInt16 × σ
  getsockname : σ → ℤ → Except UInt16 HostSockAddr
  getpeername : σ → ℤ → Except UInt16 HostSockAddr

/-- The host, and the memories and the descriptor tables of the instances. -/
structure NameSystem (σ : Type) where
  host : σ
  mems : ℕ → Memory := fun _ _ => 0
  fds : ℕ → ℤ → Except UInt16 ℤ := fun _ _ => .error uvwasiEBADF

/-- No instance has a descriptor yet. -/
def nameStart {σ : Type} (host : σ) : NameSystem σ := { host := host }

/-- The handlers. -/
inductive NameCall where
  | sockBind
  | sockConnect
  | sockGetSockName
  | sockGetPeerName
  deriving DecidableEq, Repr

inductive NameAction (σ : Type) where
  /-- The guest code of an instance runs. -/
  | guest (inst : ℕ) (mem : Memory)
  /-- A descriptor of an instance gets a socket, or is closed. -/
  | table (inst : ℕ) (app : ℤ) (found : Except UInt16 ℤ)
  /-- The host goes on by itself. -/
  | host (next : σ)
  | call (c : NameCall) (inst : ℕ) (args : NameArgs)

section System

variable {σ : Type} (H : NameHost σ) (Ls : ℕ → LinearMemory)

/-- The handler of a call, with the host in a state. -/
def NameCall.handler (c : NameCall) (L : LinearMemory) (args : NameArgs) (fds : ℤ → Except UInt16 ℤ)
    (host : σ) : Prog MsgAccess NameResult :=
  match c with
  | .sockBind => Socket.sockBind L args fds fun fd addr => (H.bind host fd addr).1
  | .sockConnect => Socket.sockConnect L args fds fun fd addr => (H.connect host fd addr).1
  | .sockGetSockName => Socket.sockGetSockName L args fds (H.getsockname host)
  | .sockGetPeerName => Socket.sockGetPeerName L args fds (H.getpeername host)

/-- The host after a call has exchanged an address with it. -/
def NameCall.hostAfter (c : NameCall) (host : σ) (fd : ℤ) (addr : HostSockAddr) : σ :=
  match c with
  | .sockBind => (H.bind host fd addr).2
  | .sockConnect => (H.connect host fd addr).2
  | .sockGetSockName | .sockGetPeerName => host

/-- A call of an instance. -/
def NameSystem.run (s : NameSystem σ) (c : NameCall) (inst : ℕ) (args : NameArgs) :
    Run MsgAccess NameResult :=
  alone args.place (c.handler H (Ls inst) args (s.fds inst) s.host) (s.mems inst)

/-- One step. -/
def nameStep : Step (NameSystem σ) (NameAction σ) := fun s a =>
  match a with
  | .guest inst mem => some { s with mems := Function.update s.mems inst mem }
  | .table inst app found =>
      some { s with fds := Function.update s.fds inst (Function.update (s.fds inst) app found) }
  | .host next => some { s with host := next }
  | .call c inst args =>
      let run := s.run H Ls c inst args
      some { s with
        mems := Function.update s.mems inst run.mem
        host := match run.result.exchanged with
          | some (fd, some addr) => c.hostAfter H s.host fd addr
          | _ => s.host }

/-! ## Records and addresses -/

/-- What calls have exchanged: the record of the guest, and the address on the side of the host. -/
abbrev Exchanges := List (WasiSockAddr × HostSockAddr)

/-- What a step exchanges. -/
def noteNames (s : NameSystem σ) (a : NameAction σ) (names : Exchanges) : Exchanges :=
  match a with
  | .call c inst args =>
      let run := s.run H Ls c inst args
      match run.result.exchanged with
      | some (_, some addr) =>
          if addr.ofGuests then (recordAt run.mem args.pAppSockAddr, addr) :: names else names
      | _ => names
  | _ => names

variable {H Ls} {s s' : NameSystem σ} {names : Exchanges}

theorem run_called (c : NameCall) (inst : ℕ) (args : NameArgs) :
    NameCalled args (s.mems inst) (s.run H Ls c inst args) := by
  cases c with
  | sockBind | sockConnect => exact (alone_nameSocket _).1
  | sockGetSockName | sockGetPeerName => exact (alone_askName _).1

/-- Every record has the address that it was exchanged for. -/
def NamesMatch (names : Exchanges) : Prop := ∀ p ∈ names, recordAddr p.1 = some p.2

theorem NamesMatch.step {a : NameAction σ} (all : NamesMatch names) :
    NamesMatch (noteNames H Ls s a names) := by
  cases a with
  | guest _ _ | table _ _ _ | host _ => exact all
  | call c inst args =>
      rw [noteNames]
      split
      next fd addr exchanged =>
        split
        next guests =>
          have called : NameCalled args (s.mems inst) (s.run H Ls c inst args) :=
            run_called c inst args
          exact List.forall_mem_cons.mpr ⟨called.exchanged fd addr exchanged guests, all⟩
        next => exact all
      next => exact all

/-- What a call does, for the instances and with the host. -/
structure CallDoes (H : NameHost σ) (Ls : ℕ → LinearMemory) (s s' : NameSystem σ) (c : NameCall)
    (inst : ℕ) (args : NameArgs) : Prop where
  failed : (s.run H Ls c inst args).result.err ≠ 0 → s'.mems = s.mems
  frame : ∀ other x, other ≠ inst ∨ x < args.pAppSockAddr ∨
    args.pAppSockAddr + sockAddrSize ≤ x → s'.mems other x = s.mems other x
  named : ∀ fd addr, args.validated (Ls inst) = true → s.fds inst args.appSockFD = .ok fd →
    recordAddr (recordAt (s.mems inst) args.pAppSockAddr) = some addr →
      (c = .sockBind → (s.run H Ls c inst args).result =
        ⟨(H.bind s.host fd addr).1, some (fd, some addr)⟩) ∧
      (c = .sockConnect → (s.run H Ls c inst args).result =
        ⟨(H.connect s.host fd addr).1, some (fd, some addr)⟩)
  asked : ∀ fd addr, args.validated (Ls inst) = true → s.fds inst args.appSockFD = .ok fd →
    (c = .sockGetSockName ∧ H.getsockname s.host fd = .ok addr ∨
      c = .sockGetPeerName ∧ H.getpeername s.host fd = .ok addr) →
        (s.run H Ls c inst args).result = ⟨0, some (fd, some addr)⟩

theorem call_does {c : NameCall} {inst : ℕ} {args : NameArgs}
    (taken : nameStep H Ls s (.call c inst args) = some s') :
    CallDoes H Ls s s' c inst args := by
  have called : NameCalled args (s.mems inst) (s.run H Ls c inst args) := run_called c inst args
  have mems : s'.mems = Function.update s.mems inst (s.run H Ls c inst args).mem := by
    rw [← Option.some.inj taken]
  refine ⟨fun failed => ?_, fun other x out => ?_, fun fd addr valid there known => ?_,
    fun fd addr valid there => ?_⟩
  · rw [mems, called.failed failed, Function.update_eq_self]
  · rw [mems]
    by_cases same : other = inst
    · subst same
      rw [Function.update_self]
      exact called.frame x (out.resolve_left fun ne => ne rfl)
    · rw [Function.update_of_ne same]
  · constructor <;> rintro rfl <;> exact (alone_nameSocket _).2.2 fd addr valid known there
  · rintro (⟨rfl, answer⟩ | ⟨rfl, answer⟩) <;> exact (alone_askName _).2 fd addr valid there answer

end System

/-- A host whose sockets keep the names that they are bound to. -/
def keepingHost : NameHost (ℤ → Option HostSockAddr) where
  bind names fd addr := (0, Function.update names fd (some addr))
  connect names _ _ := (uvwasiEBADF, names)
  getsockname names fd := (names fd).elim (.error uvwasiEBADF) .ok
  getpeername _ _ := .error uvwasiEBADF

/-- A socket is bound to 127.0.0.1 and port 8080 by one instance, and another has it as well, and
asks for its name. -/
def boundRun : List (NameAction (ℤ → Option HostSockAddr)) :=
  [.table 0 3 (.ok 5), .guest 0 (store (store (store (fun _ => 0) 0x40 2 1) 0x44 4 0x100007f)
    0x48 2 0x901f), .call .sockBind 0 ⟨3, 0x40⟩, .guest 0 (fun _ => 0), .table 1 4 (.ok 5),
    .call .sockGetSockName 1 ⟨4, 0x80⟩]

end Socket
end WamrExt
