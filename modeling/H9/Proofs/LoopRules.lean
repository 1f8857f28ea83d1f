import H9.Proofs.EventRules
import H9.SelectLoop

/-!
# Invariants of the loop

What a pass does to the sockets: one may be accepted, opened again, closed, unregistered or
removed, and nothing that a driver reads or a client sends does any of that. An invariant that
bears these changes (`LoopRule`) holds after every pass. No socket ever has the descriptor 0
(`Nonzero`), with which it would not be registered. A socket is visited once in a pass, and a
driver that is not connected is unregistered before the next one (`Flushed`), so the drivers
visited are connected.
-/

namespace H9

open Prog SelectLoop

/-! ### What drivers and clients leave alone -/

/-- The clients' side with the same sockets, registered in the same way. -/
structure SameClients (s₀ s : Server) : Prop where
  sockets : ∀ k, (s.clients k).map TcpClient.socket = (s₀.clients k).map TcpClient.socket
  socket_set : s.socket_set = s₀.socket_set
  event_socket_set : s.event_socket_set = s₀.event_socket_set
  socket_max : s.socket_max = s₀.socket_max
  tcp_server : s.tcp_server = s₀.tcp_server
  tcp_clients : s.tcp_clients = s₀.tcp_clients
  next_client : s.next_client = s₀.next_client

theorem SameClients.refl (s : Server) : SameClients s s :=
  ⟨fun _ => rfl, rfl, rfl, rfl, rfl, rfl, rfl⟩

theorem SameClients.touch {s₀ s : Server} (h : SameClients s₀ s) {k : ℕ} {c c' : TcpClient}
    (hc : s.clients k = some c) (hs : c'.socket = c.socket) :
    SameClients s₀ (s.setClient k c') where
  sockets k' := by
    rw [← h.sockets]
    by_cases hk : k' = k
    · subst hk
      simp [Server.setClient, hc, hs]
    · simp [Server.setClient, Function.update_of_ne hk]
  socket_set := h.socket_set
  event_socket_set := h.event_socket_set
  socket_max := h.socket_max
  tcp_server := h.tcp_server
  tcp_clients := h.tcp_clients
  next_client := h.next_client

theorem SameClients.close {s₀ s : Server} (h : SameClients s₀ s) {k : ℕ} {c : TcpClient}
    (hc : s.clients k = some c) : SameClients s₀ (s.closed k c) := by
  have hs : ({ c with h9socket := none, connected := false } : TcpClient).socket = c.socket := rfl
  obtain ⟨h1, h2, h3, h4, h5, h6, h7⟩ := h.touch hc hs
  exact ⟨h1, h2, h3, h4, h5, h6, h7⟩

/-- An invariant of the clients' side that does not look at what the program keeps no record of. -/
structure ServerRule (J : Server → Prop) : Prop extends ClientRule (fun _ => True) J where
  delivered : ∀ {s d}, J s → J (s.delivered d)
  issued : ∀ {s i}, J s → J { s with issues := s.issues ++ [i] }

theorem ServerRule.system {J : Server → Prop} (hJ : ServerRule J) :
    SystemRule (fun _ => True) fun _ s => J s.2 where
  perm _ h := h
  client _ _ := hJ.toClientRule
  pop h := ⟨h, h⟩
  log h _ := hJ.delivered h
  zero h _ := hJ.delivered h

theorem sameClients_rule (s₀ : Server) : ServerRule (SameClients s₀) where
  missing _ _ _ := trivial
  answer _ _ _ _ := trivial
  touch h hc hl := h.touch hc hl.socket
  close h hc := h.close hc
  delivered h := ⟨h.sockets, h.socket_set, h.event_socket_set, h.socket_max, h.tcp_server,
    h.tcp_clients, h.next_client⟩
  issued h := ⟨h.sockets, h.socket_set, h.event_socket_set, h.socket_max, h.tcp_server,
    h.tcp_clients, h.next_client⟩

/-- The same drivers, each connected on the same descriptor, and the same sockets of clients. -/
structure SameSockets (s₀ s : BusMgr × Server) : Prop where
  ports : ∀ n : String, s.1.dev[n]?.map Driver.port = s₀.1.dev[n]?.map Driver.port
  clients : SameClients s₀.2 s.2

/-- What a driver reads and what a client sends keep the ports of the drivers, and `I`, if a frame that
is given to all drivers does (`hsend`). -/
theorem on_select_system (host : Host) {I : (String → List BusFrame) → FrameHeap × Server → Prop}
    (hI : SystemRule (fun _ => True) I) {s : BusMgr × Server}
    (hsend : ∀ bm t k c frame id, BusMgr.Kept (fun _ => True) I s.1 (bm, t) → t.clients k = some c →
      c.h9socket.isSome → Triple (· = (bm, { t with issues := t.issues ++ [⟨k, bm.heap.next⟩] }))
        (BusMgr.send_frame EventMgr.handler frame c.get_client_idstring c.socket id "")
        (fun _ => BusMgr.Kept (fun _ => True) I s.1) (BusMgr.Left (KeptBy (fun _ => True) I) s.1))
    {v : Visit} (hv : ∀ a, v ≠ .accept a) (h : I s.1.queues (s.1.heap, s.2)) :
    (∀ n : String, ((SelectLoop.on_select host v).exec s).2.1.dev[n]?.map Driver.port =
        s.1.dev[n]?.map Driver.port) ∧
      I ((SelectLoop.on_select host v).exec s).2.1.queues
        (((SelectLoop.on_select host v).exec s).2.1.heap, ((SelectLoop.on_select host v).exec s).2.2) := by
  have hkept : BusMgr.Kept (fun _ => True) I s.1 s :=
    ⟨fun _ => rfl, fun _ _ _ _ _ _ _ => trivial, id, h⟩
  have hall : Triple (BusMgr.Kept (fun _ => True) I s.1) (SelectLoop.on_select host v)
      (fun _ => BusMgr.Kept (fun _ => True) I s.1) (BusMgr.Left (KeptBy (fun _ => True) I) s.1) := by
    rcases v with a | ⟨name, answer⟩ | ⟨k, inbound, uptime⟩
    · exact absurd rfl (hv a)
    · exact BusMgr.on_select_rule hI.bus (fun _ => trivial) name answer
    · refine (EventMgr.recv_msg_rule hI.client (fun _ _ => trivial) host uptime inbound
        (B := fun _ => True) ?_).conseq (fun _ h => ⟨h, trivial⟩) (fun _ _ h => h) fun _ _ h => h
      exact fun s₀ _ _ _ _ t c frame id ht hc ho => hsend s₀.1 t k c frame id ht hc ho
  have h := hall s hkept
  rcases he : (SelectLoop.on_select host v).exec s with ⟨e | u, t⟩ <;> rw [he] at h
  · exact ⟨h.ports, h.inv.1⟩
  · exact ⟨h.ports, h.inv⟩

theorem on_select_keeps (host : Host) {J : Server → Prop} (hJ : ServerRule J) {v : Visit}
    (hv : ∀ a, v ≠ .accept a) {s : BusMgr × Server} (h : J s.2) :
    (∀ n : String, ((SelectLoop.on_select host v).exec s).2.1.dev[n]?.map Driver.port =
        s.1.dev[n]?.map Driver.port) ∧ J ((SelectLoop.on_select host v).exec s).2.2 :=
  on_select_system host (I := fun _ t => J t.2) hJ.system
    (fun _ _ _ _ frame id ht _ _ => EventMgr.send_frame_rule hJ.system (fun h => h)
      (fun _ h => hJ.issued h) ht _ frame _ _ id) hv h

theorem on_select_same (host : Host) {v : Visit} (hv : ∀ a, v ≠ .accept a) (s : BusMgr × Server) :
    SameSockets s ((SelectLoop.on_select host v).exec s).2 :=
  have h := on_select_keeps host (sameClients_rule s.2) hv (SameClients.refl s.2)
  ⟨h.1, h.2⟩

/-! ### What a step can do -/

namespace Server

/-- The state after a connection was accepted. -/
def accepted (s : Server) (c : Accepted) (address port : String) : Server :=
  { s with
    clients := Function.update s.clients s.next_client
      (some (TcpClient.new c.fd address port c.sends))
    next_client := s.next_client + 1
    tcp_clients := s.tcp_clients.insert c.fd s.next_client
    open_fds := insert c.fd s.open_fds
    event_socket_set := insert c.fd s.event_socket_set
    socket_set := insert (.client s.next_client) s.socket_set
    socket_max := max s.socket_max c.fd }

/-- The state after `socket` was opened on `fd`, and registered. -/
def opened (s : Server) (socket : SocketRef) (fd : ℕ) : Server :=
  { s with
    open_fds := insert fd s.open_fds
    event_socket_set := insert fd s.event_socket_set
    socket_set := insert socket s.socket_set
    socket_max := max s.socket_max fd }

/-- The state after `socket` was unregistered. -/
def unregistered (s : Server) (socket : SocketRef) (fd : ℕ) : Server :=
  { s with
    event_socket_set := s.event_socket_set.erase fd
    socket_set := s.socket_set.erase socket
    socket_max := if s.socket_max ≤ fd then fd else s.socket_max }

/-- The state after a client was unregistered and its object deleted. -/
def removed (s : Server) (fd k : ℕ) (c : TcpClient) : Server :=
  { s.unregistered (.client k) c.socket with
    tcp_clients := s.tcp_clients.erase fd
    clients := Function.update s.clients k none }

end Server

theorem exec_unregister {fd : ℕ} (h0 : fd ≠ 0) (r : SocketRef) (s : Server) :
    (SocketMgr.unregister_socket r fd).exec s = (.ok (), s.unregistered r fd) := by
  unfold SocketMgr.unregister_socket
  rw [if_neg h0, exec_modify]
  rfl

/-- The driver `n` is `d`, and the others are as they were. -/
structure BusMgr.Set (n : String) (d : Driver) (bm bm' : BusMgr) : Prop where
  dev : ∀ m : String, bm'.dev[m]? = if n = m then some d else bm.dev[m]?
  heap : bm'.heap = bm.heap

theorem BusMgr.set_setDriver (bm : BusMgr) (n : String) (d : Driver) :
    BusMgr.Set n d bm (bm.setDriver n d) where
  dev m := by simp only [setDriver, Std.TreeMap.getElem?_insert, Std.LawfulEqCmp.compare_eq_iff_eq]
  heap := rfl

theorem queues_set {n : String} {d d' : Driver} {bm bm' : BusMgr} (hd : bm.dev[n]? = some d)
    (hq : d'.send_queue = d.send_queue) (hset : BusMgr.Set n d' bm bm') :
    bm'.queues = bm.queues := by
  funext m
  unfold BusMgr.queues
  rw [hset.dev]
  split_ifs with hm
  · rw [← hm, hd, Option.map_some, Option.map_some, hq]
  · rfl

theorem queues_erase {bm : BusMgr} {n m : String} {b : BusFrame}
    (h : b ∈ BusMgr.queues { bm with dev := bm.dev.erase n } m) : b ∈ bm.queues m := by
  unfold BusMgr.queues at h ⊢
  simp only [Std.TreeMap.getElem?_erase, Std.LawfulEqCmp.compare_eq_iff_eq] at h
  split_ifs at h
  · cases h
  · exact h

theorem accept_cases {host : Host} {s s' : BusMgr × Server} {answer : Except Errno Accepted}
    (h : (visit host (.accept answer)).exec s = (.ok (), s')) :
    ∃ c address port, answer = .ok c ∧ c.fd ≠ 0 ∧ s' = (s.1, s.2.accepted c address port) := by
  obtain ⟨bm, srv⟩ := s
  unfold SelectLoop.visit SelectLoop.on_select at h
  rw [exec_tryCatch] at h
  rcases answer with e | c
  · cases h
  · dsimp only at h
    unfold Server.on_new_connection SocketMgr.register_socket at h
    rw [exec_onSnd, exec_bind, exec_modify] at h
    rcases hp : c.peer with _ | ⟨address, port⟩
    · rw [hp] at h
      cases h
    · rw [hp] at h
      simp only [exec_bind, exec_get, exec_modify, exec_ite, exec_throw] at h
      by_cases h0 : c.fd = 0
      · rw [if_pos h0] at h
        cases h
      rw [if_neg h0] at h
      by_cases hbig : FD_SETSIZE ≤ c.fd
      · rw [if_pos hbig] at h
        cases h
      · rw [if_neg hbig] at h
        exact ⟨c, address, port, rfl, h0, (Prod.mk.inj h).2.symm⟩

/-- A visit that returns: nothing asked for the socket to be closed, or it is closed. -/
theorem visit_cases {host : Host} {s s' : BusMgr × Server} {v : Visit}
    (h : (visit host v).exec s = (.ok (), s')) :
    (SelectLoop.on_select host v).exec s = (.ok (), s') ∨
      ∃ ref t, (SelectLoop.on_select host v).exec s = (.error (.closeSocketException ref), t) ∧
        (SelectLoop.on_close v.socket).exec t = (.ok (), s') := by
  unfold SelectLoop.visit at h
  rw [exec_tryCatch] at h
  rcases he : (SelectLoop.on_select host v).exec s with ⟨e | u, t⟩ <;> rw [he] at h
  · rcases e with ref | _
    case closeSocketException => exact .inr ⟨ref, t, rfl, h⟩
    all_goals cases h
  · exact .inl h

theorem on_close_driver {n : String} {s s' : BusMgr × Server}
    (h : (BusMgr.on_close n).exec s = (.ok (), s')) :
    ∃ d, s.1.dev[n]? = some d ∧ s' = (s.1.setDriver n { d with connected := false },
      { s.2 with open_fds := s.2.open_fds.erase d.socket }) := by
  unfold BusMgr.on_close at h
  rw [exec_bind, exec_getFst] at h
  dsimp only at h
  rcases hd : s.1.dev[n]? with _ | d <;> rw [hd] at h
  · cases h
  · exact ⟨d, rfl, (Prod.mk.inj h).2.symm⟩

theorem on_close_client {k : ℕ} {s s' : BusMgr × Server}
    (h : (SelectLoop.on_close (.client k)).exec s = (.ok (), s')) :
    ∃ c, s.2.clients k = some c ∧ s' = (s.1, s.2.closed k c) := by
  unfold SelectLoop.on_close Server.on_close at h
  rw [exec_onSnd, exec_bind] at h
  rcases hc : s.2.clients k with _ | c
  · rw [Server.client_none hc] at h
    cases h
  · rw [Server.client_some hc] at h
    exact ⟨c, rfl, (Prod.mk.inj h).2.symm⟩

/-- A visit that is not of the server: what `on_select` leaves, or that with the driver or the client
closed. -/
theorem visit_closes {host : Host} {s s' : BusMgr × Server} {v : Visit} (hv : ∀ a, v ≠ .accept a)
    (h : (SelectLoop.visit host v).exec s = (.ok (), s')) :
    ∃ t, t = ((SelectLoop.on_select host v).exec s).2 ∧ (s' = t ∨
      (∃ n d, v.socket = .driver n ∧ t.1.dev[n]? = some d ∧
        s' = (t.1.setDriver n { d with connected := false },
          { t.2 with open_fds := t.2.open_fds.erase d.socket })) ∨
      ∃ k c, v.socket = .client k ∧ t.2.clients k = some c ∧ s' = (t.1, t.2.closed k c)) := by
  rcases visit_cases h with hok | ⟨ref, t, herr, hclose⟩
  · exact ⟨s', by rw [hok], .inl rfl⟩
  · refine ⟨t, by rw [herr], .inr ?_⟩
    rcases v with a | ⟨n, answer⟩ | ⟨k, inbound, uptime⟩
    · exact absurd rfl (hv a)
    · obtain ⟨d, hd, hs'⟩ := on_close_driver hclose
      exact .inl ⟨n, d, rfl, hd, hs'⟩
    · obtain ⟨c, hc, hs'⟩ := on_close_client hclose
      exact .inr ⟨k, c, rfl, hc, hs'⟩

/-- What is open after `Driver::open` failed: the last of its attempts closes the old number once
more. -/
def leftOpen (fds : Finset ℕ) (d : Driver) (leaked : Option ℕ) : Finset ℕ :=
  if d.retry_auto_connect = 1 then (fds ∪ leaked.toFinset).erase d.socket
  else fds ∪ leaked.toFinset

theorem reopen_cases {n : String} {answer : OpenAnswer} {s s' : BusMgr × Server}
    (h : (BusMgr.reopen n answer).exec s = (.ok (), s')) :
    s' = s ∨ ∃ d, s.1.dev[n]? = some d ∧ d.connected = false ∧ d.retry_auto_connect ≠ 0 ∧
      ((∃ fd, answer = .opened fd ∧ fd ≠ 0 ∧
        s' = (s.1.setDriver n { d with socket := fd, connected := true },
          s.2.opened (.driver n) fd)) ∨
      ∃ leaked bm', answer = .failed leaked ∧
        BusMgr.Set n { d with retry_auto_connect := d.retry_auto_connect - 1 } s.1 bm' ∧
        s' = (bm', { s.2 with open_fds := leftOpen s.2.open_fds d leaked })) := by
  obtain ⟨bm, srv⟩ := s
  unfold BusMgr.reopen at h
  rw [exec_bind, exec_getFst] at h
  dsimp only at h ⊢
  rcases hd : bm.dev[n]? with _ | d
  · rw [hd] at h
    cases h
  rw [hd] at h
  dsimp only at h
  rw [exec_ite] at h
  by_cases hc : d.connected = false ∧ d.retry_auto_connect ≠ 0
  swap
  · rw [if_neg hc] at h
    exact .inl (Prod.mk.inj h).2.symm
  rw [if_pos hc] at h
  refine .inr ⟨d, rfl, hc.1, hc.2, ?_⟩
  rcases answer with fd | leaked
  · unfold SocketMgr.register_socket at h
    simp only [exec_bind, exec_modifyFst, exec_onSnd, exec_modify, exec_ite, exec_throw] at h
    by_cases h0 : fd = 0
    · rw [if_pos h0] at h
      cases h
    rw [if_neg h0] at h
    by_cases hbig : FD_SETSIZE ≤ fd
    · rw [if_pos hbig] at h
      cases h
    · rw [if_neg hbig] at h
      exact .inl ⟨fd, rfl, h0, (Prod.mk.inj h).2.symm⟩
  · set d' : Driver := { d with retry_auto_connect := d.retry_auto_connect - 1 } with hd'
    have hset := bm.set_setDriver n d'
    simp only [exec_bind, exec_modifyFst, exec_onSnd, exec_modify, exec_ite] at h
    have hlast : d.retry_auto_connect - 1 = 0 ↔ d.retry_auto_connect = 1 := by
      have := hc.2
      omega
    by_cases h0 : d.retry_auto_connect - 1 = 0
    · rw [if_pos h0] at h
      obtain ⟨d'', hd'', rfl⟩ := on_close_driver h
      obtain rfl : d' = d'' := by
        rw [hset.dev, if_pos rfl] at hd''
        exact Option.some.inj hd''
      refine .inr ⟨leaked, (bm.setDriver n d').setDriver n { d' with connected := false }, rfl,
        ⟨fun m => ?_, rfl⟩, ?_⟩
      · rw [(BusMgr.set_setDriver _ n _).dev, hset.dev, hd', ← hc.1]
        split_ifs <;> rfl
      · rw [leftOpen, if_pos (hlast.1 h0)]
    · rw [if_neg h0] at h
      refine .inr ⟨leaked, _, rfl, hset, ?_⟩
      rw [leftOpen, if_neg fun h1 => h0 (hlast.2 h1)]
      exact (Prod.mk.inj h).2.symm

/-! ### The numbers of the sockets -/

theorem SameSockets.get_socket {s₀ s : BusMgr × Server} (h : SameSockets s₀ s) :
    ∀ r, get_socket s r = get_socket s₀ r
  | .server => congrArg some h.clients.tcp_server
  | .client k => h.clients.sockets k
  | .driver n => by
    have hp := congrArg (Option.map fun p : String × DriverKind × ℕ × Bool × ℕ => p.2.2.1)
      (h.ports n)
    rw [Option.map_map, Option.map_map] at hp
    exact hp

theorem get_socket_set {bm bm' : BusMgr} {srv srv' : Server} {n : String} {d : Driver} {fd : ℕ}
    (hset : BusMgr.Set n d bm bm') (hfd : d.socket = fd) (hclients : srv'.clients = srv.clients)
    (hserver : srv'.tcp_server = srv.tcp_server) (r : SocketRef) :
    get_socket (bm', srv') r = if r = .driver n then some fd else get_socket (bm, srv) r := by
  subst hfd
  rcases r with _ | m | k
  · simp [get_socket, hserver]
  · simp only [get_socket, hset.dev, SocketRef.driver.injEq]
    by_cases hm : n = m
    · simp [hm]
    · rw [if_neg hm, if_neg (Ne.symm hm)]
  · simp [get_socket, hclients]

theorem get_socket_erase {s : BusMgr × Server} {n : String} (r : SocketRef) :
    get_socket ({ s.1 with dev := s.1.dev.erase n }, s.2) r =
      if r = .driver n then none else get_socket s r := by
  rcases r with _ | m | k
  · simp [get_socket]
  · simp only [get_socket, Std.TreeMap.getElem?_erase, Std.LawfulEqCmp.compare_eq_iff_eq,
      SocketRef.driver.injEq]
    by_cases hm : n = m
    · simp [hm]
    · rw [if_neg hm, if_neg (Ne.symm hm)]
  · simp [get_socket]

theorem get_socket_accepted {s : BusMgr × Server} {c : Accepted} {address port : String}
    (r : SocketRef) : get_socket (s.1, s.2.accepted c address port) r =
      if r = .client s.2.next_client then some c.fd else get_socket s r := by
  rcases r with _ | m | k
  · simp [get_socket, Server.accepted]
  · simp [get_socket]
  · by_cases hk : k = s.2.next_client
    · simp [get_socket, Server.accepted, hk, TcpClient.new]
    · simp [get_socket, Server.accepted, hk]

theorem get_socket_removed {s : BusMgr × Server} {fd k : ℕ} {c : TcpClient} (r : SocketRef) :
    get_socket (s.1, s.2.removed fd k c) r =
      if r = .client k then none else get_socket s r := by
  rcases r with _ | m | k'
  · simp [get_socket, Server.removed, Server.unregistered]
  · simp [get_socket]
  · by_cases hk : k' = k
    · simp [get_socket, Server.removed, hk]
    · simp [get_socket, Server.removed, Server.unregistered, hk]

/-- No socket has the descriptor 0. -/
def Nonzero (s : BusMgr × Server) : Prop := ∀ r, get_socket s r ≠ some 0

theorem Nonzero.congr {s₀ s : BusMgr × Server} (h : Nonzero s₀)
    (hs : ∀ r, get_socket s r = get_socket s₀ r) : Nonzero s := by
  intro r
  rw [hs]
  exact h r

theorem Nonzero.change {s₀ s : BusMgr × Server} (h : Nonzero s₀) {r₀ : SocketRef} {fd : Option ℕ}
    (hfd : fd ≠ some 0) (hs : ∀ r, get_socket s r = if r = r₀ then fd else get_socket s₀ r) :
    Nonzero s := by
  intro r
  rw [hs]
  split_ifs
  · exact hfd
  · exact h r

theorem Nonzero.driver {s : BusMgr × Server} (h : Nonzero s) {n : String} {d : Driver}
    (hd : s.1.dev[n]? = some d) : d.socket ≠ 0 :=
  fun h0 => h (.driver n) (by rw [get_socket, hd, Option.map_some, h0])

theorem Nonzero.client {s : BusMgr × Server} (h : Nonzero s) {k : ℕ} {c : TcpClient}
    (hc : s.2.clients k = some c) : c.socket ≠ 0 :=
  fun h0 => h (.client k) (by rw [get_socket, hc, Option.map_some, h0])

/-! ### The rule -/

/-- The drivers that are not connected but registered are among `V`. -/
def Flushed (V : List SocketRef) (s : BusMgr × Server) : Prop :=
  ∀ (n : String) (d : Driver), s.1.dev[n]? = some d → d.connected = false →
    .driver n ∈ s.2.socket_set → .driver n ∈ V

/-- The visit is not of a driver that is not connected. -/
def Live (v : Visit) (s : BusMgr × Server) : Prop :=
  ∀ (n : String) (d : Driver), v.socket = .driver n → s.1.dev[n]? = some d → d.connected = true

theorem Flushed.live {V : List SocketRef} {s : BusMgr × Server} (h : Flushed V s) {v : Visit}
    (hV : v.socket ∉ V) (hmem : v.socket ∈ s.2.socket_set) : Live v s := by
  intro n d hn hd
  by_contra hc
  exact hV (hn ▸ h n d hd (Bool.eq_false_of_not_eq_true hc) (hn ▸ hmem))

/-- `I` bears the steps that meet `C`, and `E` holds after one of them that leaves. -/
structure LoopRule (host : Host) (C : LoopStep → BusMgr × Server → Prop)
    (I E : BusMgr × Server → Prop) : Prop where
  accept : ∀ {s c address port}, I s → C (.visit (.accept (.ok c))) s → c.fd ≠ 0 →
    I (s.1, s.2.accepted c address port)
  visit : ∀ {s s' v}, I s → C (.visit v) s → (∀ a, v ≠ .accept a) → Live v s →
    (visit host v).exec s = (.ok (), s') → I s'
  opened : ∀ {s fd} {n : String} {d : Driver}, I s → C (.reopen n (.opened fd)) s →
    s.1.dev[n]? = some d → d.connected = false → d.retry_auto_connect ≠ 0 →
      .driver n ∉ s.2.socket_set → fd ≠ 0 →
        I (s.1.setDriver n { d with socket := fd, connected := true }, s.2.opened (.driver n) fd)
  failed : ∀ {s leaked bm'} {n : String} {d : Driver}, I s → C (.reopen n (.failed leaked)) s →
    s.1.dev[n]? = some d → d.connected = false → d.retry_auto_connect ≠ 0 →
      BusMgr.Set n { d with retry_auto_connect := d.retry_auto_connect - 1 } s.1 bm' →
        I (bm', { s.2 with open_fds := leftOpen s.2.open_fds d leaked })
  unregister : ∀ {s} {n : String} {d : Driver}, I s → s.1.dev[n]? = some d →
    d.connected = false → I (s.1, s.2.unregistered (.driver n) d.socket)
  remove : ∀ {s} {n : String} {d : Driver}, I s → s.1.dev[n]? = some d → d.connected = false →
    .driver n ∉ s.2.socket_set → I ({ s.1 with dev := s.1.dev.erase n }, s.2)
  flush_client : ∀ {s c} {fd k : ℕ}, I s → s.2.tcp_clients[fd]? = some k →
    s.2.clients k = some c → c.connected = false → I (s.1, s.2.removed fd k c)
  stop : ∀ {s s' e x}, I s → C e s → (step host e).exec s = (.error x, s') → E s'

/-! ### `flush` -/

/-- `I` in a pass in which the sockets in `V` were visited. -/
structure LoopInv (I : BusMgr × Server → Prop) (V : List SocketRef) (s : BusMgr × Server) :
    Prop where
  inv : I s
  nonzero : Nonzero s
  flushed : Flushed V s

/-- In a walk over a map, the key at hand was not seen before. -/
theorem key_notMem {α β : Type} [Ord α] [Std.TransOrd α] [Std.LawfulEqOrd α]
    {t : Std.TreeMap α β} {pre post : List (α × β)} {it : α × β}
    (hl : t.toList = pre ++ it :: post) : it.1 ∉ pre.map Prod.fst := by
  have hd := t.distinct_keys_toList
  rw [hl, List.pairwise_append] at hd
  intro hmem
  obtain ⟨x, hx, he⟩ := List.mem_map.1 hmem
  exact hd.2.2 x hx it List.mem_cons_self (Std.LawfulEqCmp.compare_eq_iff_eq.2 he)

theorem entry_of_walk {α β : Type} [Ord α] [Std.TransOrd α] [Std.LawfulEqOrd α]
    {t : Std.TreeMap α β} {pre post : List (α × β)} {it : α × β}
    (hl : t.toList = pre ++ it :: post) : t[it.1]? = some it.2 := by
  refine Std.TreeMap.mem_toList_iff_getElem?_eq_some.1 ?_
  rw [hl]
  exact List.mem_append_right pre List.mem_cons_self

namespace LoopRule

variable {host : Host} {C : LoopStep → BusMgr × Server → Prop} {I E : BusMgr × Server → Prop}

/-- On a walk over the drivers `dev`, of which those in `seen` are done. -/
structure Flushing (I : BusMgr × Server → Prop) (dev : Std.TreeMap String Driver)
    (seen : List (String × Driver)) (s : BusMgr × Server) : Prop where
  inv : I s
  nonzero : Nonzero s
  old : ∀ (n : String) (d : Driver), s.1.dev[n]? = some d → dev[n]? = some d
  left : ∀ (n : String) (d : Driver), dev[n]? = some d → n ∉ seen.map Prod.fst →
    s.1.dev[n]? = some d
  done : ∀ (n : String) (d : Driver), s.1.dev[n]? = some d → n ∈ seen.map Prod.fst →
    d.connected = false → .driver n ∉ s.2.socket_set

theorem flushing_step (hI : LoopRule host C I E) {dev : Std.TreeMap String Driver}
    {pre post : List (String × Driver)} {n : String} {d : Driver}
    (hl : dev.toList = pre ++ (n, d) :: post) :
    Triple (Flushing I dev pre) (do
      if d.connected = false then
        onSnd (SocketMgr.unregister_socket (.driver n) d.socket)
        if d.retry_auto_connect = 0 then modifyFst fun bm => { bm with dev := bm.dev.erase n } :
          Prog (BusMgr × Server) Exn Unit)
      (fun _ => Flushing I dev (pre ++ [(n, d)])) fun _ _ => True := by
  rintro ⟨bm, srv⟩ ⟨hinv, hnz, hold, hleft, hdone⟩
  have hd : bm.dev[n]? = some d := hleft n d (entry_of_walk hl) (key_notMem hl)
  have hseen : ∀ m, m ∈ (pre ++ [(n, d)]).map Prod.fst ↔ m ∈ pre.map Prod.fst ∨ m = n := by simp
  have h0 : d.socket ≠ 0 := hnz.driver hd
  by_cases hc : d.connected = false
  swap
  · rw [if_neg hc]
    refine ⟨hinv, hnz, hold, fun m c hm hs => hleft m c hm fun h => hs ((hseen m).2 (.inl h)),
      fun m c hm hs hcon => ?_⟩
    rcases (hseen m).1 hs with hs | rfl
    · exact hdone m c hm hs hcon
    · rw [show (bm, srv).1.dev[m]? = some d from hd] at hm
      exact absurd (Option.some.inj hm ▸ hcon) hc
  rw [if_pos hc, exec_bind, exec_onSnd, exec_unregister h0]
  dsimp only
  rw [exec_ite, exec_modifyFst]
  have hinv' := hI.unregister hinv hd hc
  have hnz' : Nonzero (bm, srv.unregistered (.driver n) d.socket) :=
    hnz.congr fun r => by cases r <;> rfl
  have hnot : SocketRef.driver n ∉ (srv.unregistered (.driver n) d.socket).socket_set :=
    Finset.notMem_erase _ _
  have hdone' : ∀ (m : String) (c : Driver), bm.dev[m]? = some c →
      m ∈ (pre ++ [(n, d)]).map Prod.fst → c.connected = false →
        SocketRef.driver m ∉ srv.socket_set.erase (.driver n) := by
    intro m c hm hs hcon hmem
    obtain ⟨hne, hmem⟩ := Finset.mem_erase.1 hmem
    rcases (hseen m).1 hs with hs | rfl
    · exact hdone m c hm hs hcon hmem
    · exact hne rfl
  by_cases hr : d.retry_auto_connect = 0
  · rw [if_pos hr]
    have herase : ∀ m : String, (bm.dev.erase n)[m]? = if n = m then none else bm.dev[m]? := by
      intro m
      simp only [Std.TreeMap.getElem?_erase, Std.LawfulEqCmp.compare_eq_iff_eq]
    have hkeep : ∀ (m : String) (c : Driver), (bm.dev.erase n)[m]? = some c →
        bm.dev[m]? = some c := by
      intro m c hm
      rw [herase] at hm
      split_ifs at hm
      exact hm
    refine ⟨hI.remove hinv' hd hc hnot, hnz'.change (by simp) get_socket_erase,
      fun m c hm => hold m c (hkeep m c hm), fun m c hm hs => ?_,
      fun m c hm => hdone' m c (hkeep m c hm)⟩
    have hmn : n ≠ m := fun h => hs ((hseen m).2 (.inr h.symm))
    exact ((herase m).trans (if_neg hmn)).trans (hleft m c hm fun h => hs ((hseen m).2 (.inl h)))
  · rw [if_neg hr]
    exact ⟨hinv', hnz', hold, fun m c hm hs => hleft m c hm fun h => hs ((hseen m).2 (.inl h)), hdone'⟩

/-- Every driver that is not connected is unregistered, and removed if it was given up. -/
theorem flush_dev (hI : LoopRule host C I E) {s s' : BusMgr × Server} (h : I s)
    (hnz : Nonzero s) (hrun : BusMgr.flush_dev.exec s = (.ok (), s')) : LoopInv I [] s' := by
  have hloop := Triple.forEach_prefix s.1.dev.toList (I := Flushing I s.1.dev)
    (R := fun _ _ => True) fun pre it post hl => hI.flushing_step hl
  have hend := hloop.ok
    ⟨h, hnz, fun _ _ h => h, fun _ _ h _ => h, fun _ _ _ hs => absurd hs (by simp)⟩ hrun
  refine ⟨hend.inv, hend.nonzero, fun n d hd hc hmem => absurd hmem (hend.done n d hd ?_ hc)⟩
  have hmem := Std.TreeMap.mem_toList_iff_getElem?_eq_some.2 (hend.old n d hd)
  exact List.mem_map.2 ⟨_, hmem, rfl⟩

/-- On a walk over the clients `clients`, of which those in `seen` are done. -/
structure FlushingClients (I : BusMgr × Server → Prop) (bm : BusMgr)
    (clients : Std.TreeMap ℕ ℕ) (seen : List (ℕ × ℕ)) (srv : Server) : Prop where
  loop : LoopInv I [] (bm, srv)
  left : ∀ fd k : ℕ, clients[fd]? = some k → fd ∉ seen.map Prod.fst →
    srv.tcp_clients[fd]? = some k

theorem flushingClients_step (hI : LoopRule host C I E) {bm : BusMgr}
    {clients : Std.TreeMap ℕ ℕ} {pre post : List (ℕ × ℕ)} {it : ℕ × ℕ}
    (hl : clients.toList = pre ++ it :: post) :
    Triple (FlushingClients I bm clients pre) (do
      let c ← Server.client it.2
      if c.connected = false then
        SocketMgr.unregister_socket (.client it.2) c.socket
        modify fun s =>
          { s with
            tcp_clients := s.tcp_clients.erase it.1
            clients := Function.update s.clients it.2 none })
      (fun _ => FlushingClients I bm clients (pre ++ [it])) fun _ _ => True := by
  obtain ⟨fd, k⟩ := it
  rintro srv ⟨⟨hinv, hnz, hflush⟩, hleft⟩
  have hentry : srv.tcp_clients[fd]? = some k := hleft fd k (entry_of_walk hl) (key_notMem hl)
  rw [exec_bind]
  rcases hc : srv.clients k with _ | c
  · rw [Server.client_none hc]
    trivial
  have h0 : c.socket ≠ 0 := hnz.client (s := (bm, srv)) hc
  have hseen : ∀ m, m ∉ (pre ++ [(fd, k)]).map Prod.fst → m ∉ pre.map Prod.fst ∧ fd ≠ m := by
    intro m hm
    simp only [List.map_append, List.map_cons, List.map_nil, List.mem_append,
      List.mem_singleton, not_or] at hm
    exact ⟨hm.1, Ne.symm hm.2⟩
  rw [Server.client_some hc]
  dsimp only
  rw [exec_ite]
  by_cases hcon : c.connected = false
  swap
  · rw [if_neg hcon]
    exact ⟨⟨hinv, hnz, hflush⟩, fun m k' hm hs => hleft m k' hm (hseen m hs).1⟩
  rw [if_pos hcon, exec_bind, exec_unregister h0]
  dsimp only
  rw [exec_modify]
  refine ⟨⟨hI.flush_client hinv hentry hc hcon,
    hnz.change (by simp) (get_socket_removed (s := (bm, srv))),
    fun n d hd hdc hmem => hflush n d hd hdc (Finset.mem_of_mem_erase hmem)⟩,
    fun m k' hm hs => ?_⟩
  obtain ⟨hs, hne⟩ := hseen m hs
  have herase : (srv.tcp_clients.erase fd)[m]? = srv.tcp_clients[m]? := by
    simp only [Std.TreeMap.getElem?_erase, Std.LawfulEqCmp.compare_eq_iff_eq, if_neg hne]
  exact herase.trans (hleft m k' hm hs)

theorem flush (hI : LoopRule host C I E) {s s' : BusMgr × Server} (h : I s) (hnz : Nonzero s)
    (hrun : (SelectLoop.step host .flush).exec s = (.ok (), s')) : LoopInv I [] s' := by
  unfold SelectLoop.step at hrun
  rw [exec_bind] at hrun
  rcases he : BusMgr.flush_dev.exec s with ⟨e | u, bm, srv⟩
  · rw [he] at hrun
    cases hrun
  have hdev := hI.flush_dev h hnz he
  rw [he] at hrun
  dsimp only at hrun
  rw [exec_onSnd] at hrun
  have hloop := Triple.forEach_prefix srv.tcp_clients.toList
    (I := FlushingClients I bm srv.tcp_clients) (R := fun _ _ => True)
    fun pre it post hl => hI.flushingClients_step hl
  have hfl : Server.flush_clients.exec srv = ((Server.flush_clients.exec srv).1, s'.2) :=
    Prod.ext rfl (congrArg (fun x => x.2.2) hrun)
  have hok : (Server.flush_clients.exec srv).1 = .ok () := congrArg (fun x => x.1) hrun
  rw [hok] at hfl
  have hend := hloop.ok ⟨hdev, fun _ _ h _ => h⟩ hfl
  have hs' : s' = (bm, s'.2) := Prod.ext (congrArg (fun x => x.2.1) hrun).symm rfl
  rw [hs']
  exact hend.loop

/-! ### The loop -/

theorem visit_nonzero {s s' : BusMgr × Server} {v : Visit} (hv : ∀ a, v ≠ .accept a)
    (h : Nonzero s) (hrun : (SelectLoop.visit host v).exec s = (.ok (), s')) : Nonzero s' := by
  obtain ⟨t, hsel, hcases⟩ := visit_closes hv hrun
  have ht : Nonzero t := h.congr (hsel ▸ on_select_same host hv s).get_socket
  rcases hcases with rfl | ⟨n, d, -, hd, rfl⟩ | ⟨k, c, -, hc, rfl⟩
  · exact ht
  · have h0 : some d.socket ≠ some 0 := fun h0 => ht.driver hd (Option.some.inj h0)
    have hset := t.1.set_setDriver n { d with connected := false }
    exact ht.change h0 (get_socket_set hset rfl rfl rfl)
  · have hcl : SameSockets t (t.1, t.2.closed k c) :=
      ⟨fun _ => rfl, (SameClients.refl t.2).close hc⟩
    exact ht.congr hcl.get_socket

/-- A visit that is not of the server unregisters no driver, and disconnects none but the one
visited. -/
theorem visit_flushed {V : List SocketRef} {s s' : BusMgr × Server} {v : Visit}
    (hv : ∀ a, v ≠ .accept a) (hf : Flushed V s)
    (hrun : (SelectLoop.visit host v).exec s = (.ok (), s')) : Flushed (v.socket :: V) s' := by
  obtain ⟨t, hsel, hcases⟩ := visit_closes hv hrun
  have hsame : SameSockets s t := hsel ▸ on_select_same host hv s
  have ht : Flushed V t := by
    intro n d hd hc hmem
    obtain ⟨d₀, hd₀, hp⟩ := BusMgr.exists_port hsame.ports hd
    rw [hsame.clients.socket_set] at hmem
    refine hf n d₀ hd₀ ?_ hmem
    rw [← hc]
    exact congrArg (fun p : String × DriverKind × ℕ × Bool × ℕ => p.2.2.2.1) hp
  rcases hcases with rfl | ⟨name, d, hname, hd, rfl⟩ | ⟨k, c, -, hc, rfl⟩
  · exact fun n d hd hc hmem => List.mem_cons_of_mem _ (ht n d hd hc hmem)
  · intro n c hc hcon hmem
    by_cases hn : name = n
    · exact List.mem_cons.2 (.inl (hname.trans (congrArg SocketRef.driver hn)).symm)
    · rw [(t.1.set_setDriver name _).dev, if_neg hn] at hc
      exact List.mem_cons_of_mem _ (ht n c hc hcon hmem)
  · exact fun n d hd hc hmem => List.mem_cons_of_mem _ (ht n d hd hc hmem)


theorem step_visit (hI : LoopRule host C I E) {V : List SocketRef} {s s' : BusMgr × Server}
    {v : Visit} (h : LoopInv I V s) (hV : v.socket ∉ V) (hC : C (.visit v) s)
    (hrun : (SelectLoop.step host (.visit v)).exec s = (.ok (), s')) :
    LoopInv I (v.socket :: V) s' := by
  obtain ⟨h, hnz, hf⟩ := h
  unfold SelectLoop.step at hrun
  simp only [exec_bind, exec_get, exec_ite] at hrun
  by_cases hmem : v.socket ∈ s.2.socket_set
  swap
  · rw [if_neg hmem] at hrun
    obtain rfl := (Prod.mk.inj hrun).2
    exact ⟨h, hnz, fun n d hd hc hm => List.mem_cons_of_mem _ (hf n d hd hc hm)⟩
  rw [if_pos hmem] at hrun
  by_cases hv : ∀ a, v ≠ .accept a
  · exact ⟨hI.visit h hC hv (hf.live hV hmem) hrun, visit_nonzero hv hnz hrun,
      visit_flushed hv hf hrun⟩
  · push Not at hv
    obtain ⟨a, rfl⟩ := hv
    obtain ⟨c, address, port, rfl, h0, rfl⟩ := accept_cases hrun
    refine ⟨hI.accept h hC h0, hnz.change (fun h => h0 (Option.some.inj h)) get_socket_accepted,
      fun n d hd hc hm => List.mem_cons_of_mem _ (hf n d hd hc ?_)⟩
    exact Finset.mem_of_mem_insert_of_ne hm fun h => SocketRef.noConfusion h

theorem forEach_step (hI : LoopRule host C I E) {e : LoopStep} {es : List LoopStep}
    {A B : BusMgr × Server → Prop} {Q : Unit → BusMgr × Server → Prop} (hA : ∀ s, A s → I s)
    (hstep : ∀ s t, A s → C e s → (step host e).exec s = (.ok (), t) → B t)
    (hrest : Triple (fun t => B t ∧ StepsMeet host C es t) (forEach es (step host)) Q
      fun _ => E) :
    Triple (fun s => A s ∧ StepsMeet host C (e :: es) s) (forEach (e :: es) (step host)) Q
      fun _ => E := by
  rintro s ⟨h, hC, hmeet⟩
  rw [show forEach (e :: es) (step host) = step host e >>= fun _ => forEach es (step host) from rfl,
    exec_bind]
  rcases he : (step host e).exec s with ⟨x | u, t⟩
  · exact hI.stop (hA s h) hC he
  · exact hrest t ⟨hstep s t h hC he, hmeet t he⟩

theorem forEach_flush (hI : LoopRule host C I E) {A : BusMgr × Server → Prop}
    (hA : ∀ s, A s → I s ∧ Nonzero s) :
    Triple (fun s => A s ∧ StepsMeet host C [.flush] s) (forEach [.flush] (step host))
      (fun _ => LoopInv I []) fun _ => E :=
  hI.forEach_step (fun s h => (hA s h).1) (fun s _ h _ he => hI.flush (hA s h).1 (hA s h).2 he)
    fun _ h => h.1

/-- The sockets that are ready, and then `flush`. -/
theorem ready (hI : LoopRule host C I E) : ∀ (visits : List Visit) {V : List SocketRef},
    (visits.map Visit.socket).Nodup → (∀ r ∈ visits.map Visit.socket, r ∉ V) →
      Triple (fun s => LoopInv I V s ∧ StepsMeet host C (visits.map .visit ++ [.flush]) s)
        (forEach (visits.map .visit ++ [.flush]) (step host)) (fun _ => LoopInv I []) fun _ => E
  | [], _, _, _ => hI.forEach_flush fun _ h => ⟨h.inv, h.nonzero⟩
  | v :: visits, V, hnd, hV => by
    rw [List.map_cons, List.nodup_cons] at hnd
    rw [List.map_cons, List.forall_mem_cons] at hV
    refine hI.forEach_step (fun _ h => h.inv)
      (fun s t h hC he => hI.step_visit h hV.1 hC he) ?_
    refine hI.ready visits hnd.2 fun r hr hmem => ?_
    rcases List.mem_cons.1 hmem with rfl | hmem
    · exact hnd.1 hr
    · exact hV.2 r hr hmem

/-- A driver is opened again, and registered under its new number. -/
theorem reopen (hI : LoopRule host C I E) {s s' : BusMgr × Server} (h : LoopInv I [] s)
    {n : String} {answer : OpenAnswer} (hC : C (.reopen n answer) s)
    (hrun : (BusMgr.reopen n answer).exec s = (.ok (), s')) : LoopInv I [] s' := by
  obtain ⟨h, hnz, hf⟩ := h
  rcases reopen_cases hrun with rfl | ⟨d, hd, hcon, hr, ⟨fd, rfl, h0, rfl⟩ |
    ⟨leaked, bm', rfl, hset, rfl⟩⟩
  · exact ⟨h, hnz, hf⟩
  · have hset := s.1.set_setDriver n { d with socket := fd, connected := true }
    have hnot : SocketRef.driver n ∉ s.2.socket_set :=
      fun hm => absurd (hf n d hd hcon hm) List.not_mem_nil
    refine ⟨hI.opened h hC hd hcon hr hnot h0,
      hnz.change (fun h => h0 (Option.some.inj h)) (get_socket_set hset rfl rfl rfl),
      fun m c hm hc hmem => ?_⟩
    rw [hset.dev] at hm
    split_ifs at hm with hmn
    · obtain rfl := Option.some.inj hm
      cases hc
    · refine hf m c hm hc (Finset.mem_of_mem_insert_of_ne hmem fun he => ?_)
      exact hmn (SocketRef.driver.inj he).symm
  · have h0 : some d.socket ≠ some 0 := fun h0 => hnz.driver hd (Option.some.inj h0)
    refine ⟨hI.failed h hC hd hcon hr hset, hnz.change h0 (get_socket_set hset rfl rfl rfl),
      fun m c hm hc hmem => ?_⟩
    rw [hset.dev] at hm
    split_ifs at hm with hmn
    · subst hmn
      exact hf n d hd hcon hmem
    · exact hf m c hm hc hmem

/-- The drivers, opened again where they are not connected, and then `flush`. -/
theorem cron (hI : LoopRule host C I E) {opens : String → OpenAnswer} : ∀ (names : List String),
    Triple (fun s => LoopInv I [] s ∧
        StepsMeet host C (names.map (fun n => .reopen n (opens n)) ++ [.flush]) s)
      (forEach (names.map (fun n => .reopen n (opens n)) ++ [.flush]) (step host))
      (fun _ => LoopInv I []) fun _ => E
  | [] => hI.forEach_flush fun _ h => ⟨h.inv, h.nonzero⟩
  | _ :: names => hI.forEach_step (fun _ h => h.inv)
      (fun _ _ h hC he => hI.reopen h hC he) (hI.cron names)

theorem pass (hI : LoopRule host C I E) (p : Pass) :
    Triple (fun s => LoopInv I [] s ∧ StepsMeet host C (p.steps s) s) (pass host p)
      (fun _ => LoopInv I []) fun _ => E := by
  intro s h
  rcases p with ⟨visits, once⟩ | opens
  · exact hI.ready visits once (fun _ _ => List.not_mem_nil) s h
  · exact hI.cron s.1.dev.keys s h

theorem select_loop (hI : LoopRule host C I E) : ∀ ps : List Pass,
    Triple (fun s => LoopInv I [] s ∧ Meets host C ps s) (select_loop host ps)
      (fun _ => LoopInv I []) fun _ => E
  | [] => fun _ h => h.1
  | p :: ps => by
    rintro s ⟨h, hp, hrest⟩
    have hpass := hI.pass p s ⟨h, hp⟩
    rw [show SelectLoop.select_loop host (p :: ps) =
      SelectLoop.pass host p >>= fun _ => SelectLoop.select_loop host ps from rfl, exec_bind]
    rcases he : (SelectLoop.pass host p).exec s with ⟨x | u, t⟩ <;> rw [he] at hpass
    · exact hpass
    · exact hI.select_loop ps t ⟨hpass, hrest t he⟩

/-! ### What each step meets -/

/-- A step taken when `I` holds, and no visit is of a driver that is not connected. -/
structure Ready (I : BusMgr × Server → Prop) (e : LoopStep) (s : BusMgr × Server) : Prop where
  inv : I s
  nonzero : Nonzero s
  live : ∀ v, e = .visit v → v.socket ∈ s.2.socket_set → Live v s

variable {P : LoopStep → BusMgr × Server → Prop}

theorem ready_meets (hI : LoopRule host C I E) (hP : ∀ {e s}, Ready I e s → C e s → P e s) :
    ∀ (visits : List Visit) {V : List SocketRef} {s : BusMgr × Server},
      (visits.map Visit.socket).Nodup → (∀ r ∈ visits.map Visit.socket, r ∉ V) →
        LoopInv I V s → StepsMeet host C (visits.map .visit ++ [.flush]) s →
          StepsMeet host P (visits.map .visit ++ [.flush]) s
  | [], _, _, _, _, h, hC =>
    ⟨hP ⟨h.inv, h.nonzero, fun v hv => by cases hv⟩ hC.1, fun _ _ => trivial⟩
  | v :: visits, V, s, hnd, hV, h, hC => by
    rw [List.map_cons, List.nodup_cons] at hnd
    rw [List.map_cons, List.forall_mem_cons] at hV
    refine ⟨hP ⟨h.inv, h.nonzero, fun w hw => ?_⟩ hC.1, fun s' he => ?_⟩
    · obtain rfl := LoopStep.visit.inj hw
      exact h.flushed.live hV.1
    · refine ready_meets hI hP visits hnd.2 (fun r hr hmem => ?_) (hI.step_visit h hV.1 hC.1 he)
        (hC.2 s' he)
      rcases List.mem_cons.1 hmem with rfl | hmem
      · exact hnd.1 hr
      · exact hV.2 r hr hmem

theorem cron_meets (hI : LoopRule host C I E) (hP : ∀ {e s}, Ready I e s → C e s → P e s)
    {opens : String → OpenAnswer} : ∀ (names : List String) {s : BusMgr × Server}, LoopInv I [] s →
      StepsMeet host C (names.map (fun n => .reopen n (opens n)) ++ [.flush]) s →
        StepsMeet host P (names.map (fun n => .reopen n (opens n)) ++ [.flush]) s
  | [], _, h, hC => ⟨hP ⟨h.inv, h.nonzero, fun v hv => by cases hv⟩ hC.1, fun _ _ => trivial⟩
  | _ :: names, _, h, hC =>
    ⟨hP ⟨h.inv, h.nonzero, fun v hv => by cases hv⟩ hC.1,
      fun s' he => cron_meets hI hP names (hI.reopen h hC.1 he) (hC.2 s' he)⟩

/-- In a run whose steps meet `C`, each meets what `C` and the invariant give. -/
theorem meets (hI : LoopRule host C I E) (hP : ∀ {e s}, Ready I e s → C e s → P e s) :
    ∀ (ps : List Pass) {s : BusMgr × Server}, LoopInv I [] s → Meets host C ps s →
      Meets host P ps s
  | [], _, _, _ => trivial
  | p :: ps, s, h, hC => by
    refine ⟨?_, fun s' he => hI.meets hP ps ((hI.pass p).ok ⟨h, hC.1⟩ he) (hC.2 s' he)⟩
    rcases p with ⟨visits, once⟩ | opens
    · exact hI.ready_meets hP visits once (fun _ _ => List.not_mem_nil) h hC.1
    · exact hI.cron_meets hP s.1.dev.keys h hC.1

end LoopRule

theorem SelectLoop.Meets.last {host : Host} {C : LoopStep → BusMgr × Server → Prop} {p : Pass} :
    ∀ {ps : List Pass} {s s' : BusMgr × Server}, Meets host C (ps ++ [p]) s →
      (select_loop host ps).exec s = (.ok (), s') → StepsMeet host C (p.steps s') s'
  | [], _, _, h, he => (Prod.mk.inj he).2 ▸ h.1
  | _ :: _, _, _, h, he => by
    obtain ⟨t, ht, he⟩ := exec_forEach_cons.1 he
    exact SelectLoop.Meets.last (h.2 t ht) he

theorem SelectLoop.StepsMeet.exit {host : Host} {C : LoopStep → BusMgr × Server → Prop} {x : Exn}
    {s' : BusMgr × Server} : ∀ {es : List LoopStep} {s : BusMgr × Server}, StepsMeet host C es s →
      (forEach es (step host)).exec s = (.error x, s') →
        ∃ e t, C e t ∧ (step host e).exec t = (.error x, s')
  | [], _, _, he => by cases he
  | e :: es, s, h, he => by
    rw [show forEach (e :: es) (step host) = step host e >>= fun _ => forEach es (step host) from rfl,
      exec_bind] at he
    rcases hstep : (step host e).exec s with ⟨y | u, t⟩ <;> rw [hstep] at he
    · exact ⟨e, s, h.1, hstep.trans he⟩
    · exact SelectLoop.StepsMeet.exit (h.2 t hstep) he

/-- A run that leaves does so in one of its steps. -/
theorem SelectLoop.Meets.exit {host : Host} {C : LoopStep → BusMgr × Server → Prop} {x : Exn}
    {s' : BusMgr × Server} : ∀ {ps : List Pass} {s : BusMgr × Server}, Meets host C ps s →
      (select_loop host ps).exec s = (.error x, s') →
        ∃ e t, C e t ∧ (step host e).exec t = (.error x, s')
  | [], _, _, he => by cases he
  | p :: ps, s, h, he => by
    rw [show select_loop host (p :: ps) = pass host p >>= fun _ => select_loop host ps from rfl,
      exec_bind] at he
    rcases hpass : (pass host p).exec s with ⟨y | u, t⟩ <;> rw [hpass] at he
    · exact SelectLoop.StepsMeet.exit h.1 (hpass.trans he)
    · exact SelectLoop.Meets.exit (h.2 t hpass) he

/-! ### The start -/

theorem getElem?_drivers {n : String} {d : Driver} : ∀ (l : List Opened)
    (dev : Std.TreeMap String Driver), (l.map Opened.name).Nodup →
      (∀ x ∈ l, dev[x.name]? = none) →
        ((l.foldl (fun dev x => dev.insert x.name (Config.driver x)) dev)[n]? = some d ↔
          dev[n]? = some d ∨ ∃ x ∈ l, x.name = n ∧ Config.driver x = d)
  | [], dev, _, _ => by simp
  | x :: l, dev, hnd, hnone => by
    rw [List.map_cons, List.nodup_cons] at hnd
    have hins : ∀ m : String, (dev.insert x.name (Config.driver x))[m]? =
        if x.name = m then some (Config.driver x) else dev[m]? := by
      intro m
      simp only [Std.TreeMap.getElem?_insert, Std.LawfulEqCmp.compare_eq_iff_eq]
    rw [List.foldl_cons, getElem?_drivers l _ hnd.2 fun y hy => ?_, hins]
    · by_cases hx : x.name = n
      · subst hx
        have hno : ¬ ∃ y ∈ l, y.name = x.name ∧ Config.driver y = d :=
          fun ⟨y, hy, he, _⟩ => hnd.1 (he ▸ List.mem_map_of_mem hy)
        simp [hno, hnone x List.mem_cons_self]
      · simp [hx]
    · have hxy : x.name ≠ y.name := fun he => hnd.1 (he ▸ List.mem_map_of_mem hy)
      rw [hins, if_neg hxy]
      exact hnone y (List.mem_cons_of_mem _ hy)

namespace Config

variable (config : Config)

theorem getElem?_bus {n : String} {d : Driver} :
    config.bus.dev[n]? = some d ↔ ∃ x ∈ config.drivers, x.name = n ∧ driver x = d := by
  rw [bus, getElem?_drivers config.drivers ∅ config.names (by simp)]
  simp

/-- The sockets at the start are those that main registered. -/
theorem mem_sockets {r : SocketRef} {fd : ℕ} :
    (r, fd) ∈ config.sockets ↔ get_socket config.start r = some fd := by
  rcases r with _ | n | k
  · simp [sockets, get_socket, start, serverMgr, eq_comm]
  · simp only [sockets, get_socket, start, List.mem_cons, List.mem_map, Prod.mk.injEq,
      SocketRef.driver.injEq, Option.map_eq_some_iff, getElem?_bus]
    constructor
    · rintro (⟨h, -⟩ | ⟨x, hx, rfl, rfl⟩)
      · cases h
      · exact ⟨driver x, ⟨x, hx, rfl, rfl⟩, rfl⟩
    · rintro ⟨d, ⟨x, hx, rfl, rfl⟩, rfl⟩
      exact .inr ⟨x, hx, rfl, rfl⟩
  · simp [sockets, get_socket, start, serverMgr]

theorem sockets_snd : config.sockets.map Prod.snd = config.server :: config.drivers.map Opened.fd := by
  simp [sockets]

theorem start_queues (n : String) : config.start.1.queues n = [] := by
  unfold BusMgr.queues
  rcases hd : config.start.1.dev[n]? with _ | d
  · rfl
  · obtain ⟨x, -, -, rfl⟩ := config.getElem?_bus.1 hd
    rfl

theorem start_nonzero : Nonzero config.start := by
  intro r h
  have h := List.mem_map_of_mem (f := Prod.snd) ((config.mem_sockets).2 h)
  rw [sockets_snd] at h
  exact (config.unused 0 h).1 rfl

theorem start_flushed : Flushed [] config.start := by
  intro n d hd hc _
  obtain ⟨x, -, -, rfl⟩ := (config.getElem?_bus).1 hd
  cases hc

end Config

end H9
