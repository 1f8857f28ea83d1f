import H9.EventMgr

/-!
# The loop

`SocketMgr::select_loop` (h9bus/socketmgr.cc) as main runs it: a pass visits the sockets that are
ready, or lets `cron` open the drivers that are not connected, and flushes what is closed. What
the kernel answers, the numbers of new descriptors among it, comes with the steps.
-/

namespace H9

open Prog

/-- A connection that `accept` gives: its descriptor, what `getpeername` then says, and what the
writes to it are going to return. -/
structure Accepted where
  fd : ℕ
  peer : Option (String × String)
  sends : List WriteAnswer

/-- A socket that is ready. -/
inductive Visit
  | accept (answer : Except Errno Accepted)
  | driver (name : String) (answer : ReadAnswer)
  | client (k : ℕ) (inbound : Inbound) (uptime : ℤ)

def Visit.socket : Visit → SocketRef
  | .accept _ => .server
  | .driver name _ => .driver name
  | .client k _ _ => .client k

/-- How `Driver::open` ends: one that fails may leave a descriptor open. -/
inductive OpenAnswer
  | opened (fd : ℕ)
  | failed (leaked : Option ℕ)

inductive LoopStep
  | visit (v : Visit)
  | reopen (name : String) (answer : OpenAnswer)
  | flush

namespace BusMgr

/-- The driver `name` with a change. -/
def setDriver (bm : BusMgr) (name : String) (d : Driver) : BusMgr :=
  { bm with dev := bm.dev.insert name d }

/-- `Driver::on_close` of the driver `name`. -/
def on_close (name : String) : Prog (BusMgr × Server) Exn Unit := do
  let bm ← getFst
  match bm.dev[name]? with
  | none => throw .undefined
  | some d =>
    modifyFst fun bm => bm.setDriver name { d with connected := false }
    onSnd (modify fun s => { s with open_fds := s.open_fds.erase d.socket })

/-- What `BusMgr::cron` does for one driver. -/
def reopen (name : String) (answer : OpenAnswer) : Prog (BusMgr × Server) Exn Unit := do
  let bm ← getFst
  match bm.dev[name]? with
  | none => throw .undefined
  | some d =>
    if d.connected = false ∧ d.retry_auto_connect ≠ 0 then
      match answer with
      | .opened fd =>
        modifyFst fun bm => bm.setDriver name { d with socket := fd, connected := true }
        onSnd do
          modify fun s => { s with open_fds := insert fd s.open_fds }
          SocketMgr.register_socket (.driver name) fd
      | .failed leaked =>
        modifyFst fun bm =>
          bm.setDriver name { d with retry_auto_connect := d.retry_auto_connect - 1 }
        onSnd (modify fun s => { s with open_fds := s.open_fds ∪ leaked.toFinset })
        if d.retry_auto_connect - 1 = 0 then on_close name

/-- `BusMgr::flush_dev`. -/
def flush_dev : Prog (BusMgr × Server) Exn Unit := do
  let bm ← getFst
  forEach bm.dev.toList fun it => do
    if it.2.connected = false then
      onSnd (SocketMgr.unregister_socket (.driver it.1) it.2.socket)
      if it.2.retry_auto_connect = 0 then
        modifyFst fun bm => { bm with dev := bm.dev.erase it.1 }

end BusMgr

namespace SelectLoop

variable (host : Host)

def on_select : Visit → Prog (BusMgr × Server) Exn Unit
  | .accept (.error e) => throw (.system_error e)
  | .accept (.ok connection) => onSnd do
    modify fun s => { s with open_fds := insert connection.fd s.open_fds }
    Server.on_new_connection connection.fd connection.peer connection.sends
  | .driver name answer => BusMgr.on_select EventMgr.handler name answer
  | .client k inbound uptime => EventMgr.recv_msg host uptime k inbound

def on_close : SocketRef → Prog (BusMgr × Server) Exn Unit
  | .server => onSnd (modify fun s => { s with open_fds := s.open_fds.erase s.tcp_server })
  | .driver name => BusMgr.on_close name
  | .client k => onSnd (Server.on_close k)

/-- A ready socket in `select_loop`: the one that is closed is the one visited, whichever asked
for it. -/
def visit (v : Visit) : Prog (BusMgr × Server) Exn Unit :=
  tryCatch (on_select host v) fun
    | .closeSocketException _ => on_close v.socket
    | e => throw e

def step : LoopStep → Prog (BusMgr × Server) Exn Unit
  | .visit v => do
    let s ← get
    if v.socket ∈ s.2.socket_set then visit host v
  | .reopen name answer => BusMgr.reopen name answer
  | .flush => do
    BusMgr.flush_dev
    onSnd Server.flush_clients

end SelectLoop

/-- A pass of the loop: sockets are ready, each looked at once, or none is in time. -/
inductive Pass
  | ready (visits : List Visit) (once : (visits.map Visit.socket).Nodup)
  | cron (opens : String → OpenAnswer)

def Pass.steps (s : BusMgr × Server) : Pass → List LoopStep
  | .ready visits _ => visits.map .visit ++ [.flush]
  | .cron opens => s.1.dev.keys.map (fun name => .reopen name (opens name)) ++ [.flush]

namespace SelectLoop

variable (host : Host)

def pass (p : Pass) : Prog (BusMgr × Server) Exn Unit := do
  let s ← get
  forEach (p.steps s) (step host)

def select_loop (ps : List Pass) : Prog (BusMgr × Server) Exn Unit := forEach ps (pass host)

/-- Each step meets `C` in the state in which it is taken. -/
def StepsMeet (C : LoopStep → BusMgr × Server → Prop) : List LoopStep → BusMgr × Server → Prop
  | [], _ => True
  | e :: es, s =>
    C e s ∧ ∀ s', (step host e).exec s = (.ok (), s') → StepsMeet C es s'

/-- So does each step of each pass. -/
def Meets (C : LoopStep → BusMgr × Server → Prop) : List Pass → BusMgr × Server → Prop
  | [], _ => True
  | p :: ps, s =>
    StepsMeet host C (p.steps s) s ∧ ∀ s', (pass host p).exec s = (.ok (), s') → Meets C ps s'

theorem StepsMeet.cons {host : Host} {C : LoopStep → BusMgr × Server → Prop} {e : LoopStep}
    {es : List LoopStep} {s : BusMgr × Server} (he : C e s)
    (h : StepsMeet host C es ((step host e).exec s).2) : StepsMeet host C (e :: es) s :=
  ⟨he, fun s' hs => by rwa [show ((step host e).exec s).2 = s' from congrArg Prod.snd hs] at h⟩

theorem Meets.cons {host : Host} {C : LoopStep → BusMgr × Server → Prop} {p : Pass}
    {ps : List Pass} {s : BusMgr × Server} (hp : StepsMeet host C (p.steps s) s)
    (h : Meets host C ps ((pass host p).exec s).2) : Meets host C (p :: ps) s :=
  ⟨hp, fun s' hs => by rwa [show ((pass host p).exec s).2 = s' from congrArg Prod.snd hs] at h⟩

/-- A run whose steps can be checked can be checked. -/
instance decidableStepsMeet (host : Host) (C : LoopStep → BusMgr × Server → Prop)
    [∀ e s, Decidable (C e s)] : ∀ es s, Decidable (StepsMeet host C es s)
  | [], _ => .isTrue trivial
  | e :: es, s =>
    match he : (step host e).exec s with
    | (.ok (), s') =>
      have := decidableStepsMeet host C es s'
      decidable_of_iff (C e s ∧ StepsMeet host C es s')
        (and_congr_right' ⟨fun h _ ht => (Prod.mk.inj (he.symm.trans ht)).2 ▸ h, fun h => h s' he⟩)
    | (.error _, _) =>
      decidable_of_iff (C e s) (iff_self_and.2 fun _ _ ht => by cases he.symm.trans ht)

instance decidableMeets (host : Host) (C : LoopStep → BusMgr × Server → Prop)
    [∀ e s, Decidable (C e s)] : ∀ ps s, Decidable (Meets host C ps s)
  | [], _ => .isTrue trivial
  | p :: ps, s =>
    match he : (pass host p).exec s with
    | (.ok (), s') =>
      have := decidableMeets host C ps s'
      decidable_of_iff (StepsMeet host C (p.steps s) s ∧ Meets host C ps s')
        (and_congr_right' ⟨fun h _ ht => (Prod.mk.inj (he.symm.trans ht)).2 ▸ h, fun h => h s' he⟩)
    | (.error _, _) =>
      decidable_of_iff (StepsMeet host C (p.steps s) s)
        (iff_self_and.2 fun _ _ ht => by cases he.symm.trans ht)

end SelectLoop

/-- `Socket::get_socket` of an object that is there. -/
def get_socket (s : BusMgr × Server) : SocketRef → Option ℕ
  | .server => some s.2.tcp_server
  | .driver name => s.1.dev[name]?.map Driver.socket
  | .client k => (s.2.clients k).map TcpClient.socket

/-- The descriptor number a step gets from the kernel, and for which socket. -/
def LoopStep.given (s : BusMgr × Server) : LoopStep → Option (SocketRef × ℕ)
  | .visit (.accept (.ok connection)) => some (.client s.2.next_client, connection.fd)
  | .reopen name (.opened fd) =>
    if s.1.dev[name]?.any (fun d => !d.connected && d.retry_auto_connect != 0) then
      some (.driver name, fd)
    else none
  | _ => none

/-- A number that the kernel gives is not one of a descriptor that is open. -/
def LoopStep.Possible (e : LoopStep) (s : BusMgr × Server) : Prop :=
  ∀ given ∈ e.given s, given.2 ∉ s.2.open_fds

instance (e : LoopStep) (s : BusMgr × Server) : Decidable (e.Possible s) :=
  inferInstanceAs (Decidable (∀ given ∈ e.given s, given.2 ∉ s.2.open_fds))

/-- Nor is it one that another object still has, be it closed. -/
def LoopStep.Unheld (e : LoopStep) (s : BusMgr × Server) : Prop :=
  ∀ given ∈ e.given s, ∀ socket, get_socket s socket = some given.2 → socket = given.1

/-- It has a place in an `fd_set`. -/
def LoopStep.Fits (e : LoopStep) (s : BusMgr × Server) : Prop :=
  ∀ given ∈ e.given s, given.2 < FD_SETSIZE

instance LoopStep.decidableFits (e : LoopStep) (s : BusMgr × Server) : Decidable (e.Fits s) :=
  inferInstanceAs (Decidable (∀ given ∈ e.given s, given.2 < FD_SETSIZE))

/-- Nor is it the number that another driver had, which is closed and is going to be opened
again. -/
def LoopStep.Unawaited (e : LoopStep) (s : BusMgr × Server) : Prop :=
  ∀ given ∈ e.given s, ∀ it ∈ s.1.dev.toList, it.2.connected = false →
    it.2.retry_auto_connect ≠ 0 → it.2.socket = given.2 → given.1 = .driver it.1

instance (e : LoopStep) (s : BusMgr × Server) : Decidable (e.Unawaited s) :=
  inferInstanceAs (Decidable (∀ given ∈ e.given s, ∀ it ∈ s.1.dev.toList, it.2.connected = false →
    it.2.retry_auto_connect ≠ 0 → it.2.socket = given.2 → given.1 = .driver it.1))

/-! ### What is closed -/

/-- The number of a socket that is open. -/
def open_socket (s : BusMgr × Server) : SocketRef → Option ℕ
  | .server => some s.2.tcp_server
  | .driver name => (s.1.dev[name]?.filter Driver.connected).map Driver.socket
  | .client k => ((s.2.clients k).filter fun c => c.h9socket.isSome).map TcpClient.socket

/-- The driver whose `on_close` a step ends with, and the state in which it is called: the driver
visited asked for it, or the last attempt to open it failed. -/
def LoopStep.driver_close (host : Host) (s : BusMgr × Server) :
    LoopStep → Option (String × (BusMgr × Server))
  | .visit (.driver name answer) =>
    if .driver name ∈ s.2.socket_set then
      match (SelectLoop.on_select host (.driver name answer)).exec s with
      | (.error (.closeSocketException _), t) => some (name, t)
      | _ => none
    else none
  | .reopen name (.failed leaked) =>
    match s.1.dev[name]? with
    | some d =>
      if d.connected = false ∧ d.retry_auto_connect = 1 then
        some (name, s.1.setDriver name { d with retry_auto_connect := 0 },
          { s.2 with open_fds := s.2.open_fds ∪ leaked.toFinset })
      else none
    | none => none
  | _ => none

/-- The `::close` of `Driver::on_close`, if the step comes to it, closes the number of no other
socket that is open. -/
def LoopStep.ClosesOwn (host : Host) (e : LoopStep) (s : BusMgr × Server) : Prop :=
  ∀ name t, e.driver_close host s = some (name, t) → ∀ fd, get_socket t (.driver name) = some fd →
    ∀ socket ≠ .driver name, open_socket t socket ≠ some fd

/-! ### The start -/

/-- A driver that main opened, on the descriptor `fd`, and what the writes to it are going to
return. -/
structure Opened where
  name : String
  kind : DriverKind
  fd : ℕ
  writes : List WriteAnswer

/-- What main sets up before the loop: the drivers and the server, each with the descriptor it
got, which it could register, and what else is open. -/
structure Config where
  drivers : List Opened
  server : ℕ
  others : Finset ℕ
  names : (drivers.map Opened.name).Nodup
  fds : (server :: drivers.map Opened.fd).Nodup
  unused : ∀ fd ∈ server :: drivers.map Opened.fd, fd ≠ 0 ∧ fd ∉ others
  below : ∀ fd ∈ server :: drivers.map Opened.fd, fd < FD_SETSIZE

namespace Config

def driver (d : Opened) : Driver :=
  { Driver.new d.name d.kind with socket := d.fd, connected := true, writes := d.writes }

def bus (config : Config) : BusMgr where
  dev := config.drivers.foldl (fun dev d => dev.insert d.name (driver d)) ∅
  heap := .empty

def sockets (config : Config) : List (SocketRef × ℕ) :=
  (.server, config.server) :: config.drivers.map fun d => (.driver d.name, d.fd)

def serverMgr (config : Config) : Server where
  socket_set := (config.sockets.map Prod.fst).toFinset
  event_socket_set := (config.sockets.map Prod.snd).toFinset
  socket_max := (config.sockets.map Prod.snd).foldr max 0
  tcp_server := config.server
  tcp_clients := ∅
  clients _ := none
  next_client := 0
  open_fds := config.others ∪ (config.sockets.map Prod.snd).toFinset
  issues := []
  deliveries := []

def start (config : Config) : BusMgr × Server := (config.bus, config.serverMgr)

end Config

namespace SelectLoop

/-- A serial driver on 5, and the server on 6. -/
def sampleConfig : Config where
  drivers := [⟨"can0", .slcan, 5, []⟩]
  server := 6
  others := {0, 1, 2}
  names := by decide
  fds := by decide
  unused := by decide
  below := by decide

/-- A host whose parser takes no text. -/
def sampleHost : Host where
  xmlReadMemory _ := none
  xmlGetLastError _ := ""
  version := "0"

/-- The adapter is unplugged. -/
def unplug : Visit := .driver "can0" ⟨.ok [], .new⟩

/-- A client connects, and gets the descriptor `fd`. -/
def connect (fd : ℕ) : Visit := .accept (.ok ⟨fd, some ("::1", "4000"), []⟩)

def disconnect (k : ℕ) : Visit := .client k ⟨[], [.eof]⟩ 0

/-- A client's message that asks for a frame. -/
def sendFrameDoc : XmlDoc where
  name := "h9"
  props := [("version", "0.0"), ("id", "1")]
  children := [.element "sendframe" [("priority", "H"), ("type", "1"), ("seqnum", "0"),
    ("source", "1"), ("destination", "2"), ("dlc", "0")] []]

/-- A host that takes every text for that message. -/
def sendFrameHost : Host where
  xmlReadMemory _ := some sendFrameDoc
  xmlGetLastError _ := ""
  version := "0"

/-- The client sends its message: four bytes of length, and a byte. -/
def sendFrame (k : ℕ) : Visit := .client k ⟨[0, 0, 0, 1, 60], [.bytes 3, .bytes 0]⟩ 0

/-- The adapter acknowledges the frame that was written. -/
def acknowledge : Visit := .driver "can0" ⟨.ok ['\r'], .new⟩

/-- One socket is ready. -/
def one (v : Visit) : Pass := .ready [v] (List.nodup_singleton _)

/-- No driver can be opened. -/
def failing : Pass := .cron fun _ => .failed none

end SelectLoop

end H9
