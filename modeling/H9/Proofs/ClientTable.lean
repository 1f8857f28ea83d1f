import H9.Proofs.LoopRules

/-!
# The clients in the two registries

`ServerMgr` has the clients by their descriptors and `SocketMgr` among its sockets. A client is put
into both when it is accepted and taken out of both by `flush_clients`, which walks over the map: a
client whose descriptor another one got before the walk is in the map no more, and stays among the
sockets for good. The two agree (`ClientsAgree`) as long as none is overwritten in the map.
-/

namespace H9

open Prog SelectLoop

/-- The clients that are registered are those in the map, each of them connected and under its
own descriptor, and there is no other client. -/
structure ClientsAgree (s : BusMgr × Server) : Prop where
  registered : ∀ k, .client k ∈ s.2.socket_set ↔ ∃ fd : ℕ, s.2.tcp_clients[fd]? = some k
  entry : ∀ fd k : ℕ, s.2.tcp_clients[fd]? = some k →
    ∃ c, s.2.clients k = some c ∧ c.socket = fd ∧ c.connected = true
  object : ∀ k c, s.2.clients k = some c → s.2.tcp_clients[c.socket]? = some k

/-- No connection gets a number under which the map still has a client. -/
def LoopStep.Unmapped : LoopStep → BusMgr × Server → Prop
  | .visit (.accept (.ok c)), s => c.fd ∉ s.2.tcp_clients
  | _, _ => True

instance : ∀ (e : LoopStep) (s : BusMgr × Server), Decidable (e.Unmapped s)
  | .visit (.accept (.ok c)), s => inferInstanceAs (Decidable (c.fd ∉ s.2.tcp_clients))
  | .visit (.accept (.error _)), _ | .visit (.driver _ _), _ | .visit (.client _ _ _), _
  | .reopen _ _, _ | .flush, _ => .isTrue trivial

/-- The same while a pass goes on, in which clients are closed but still there. -/
structure ClientTable (s : BusMgr × Server) : Prop where
  registered : ∀ k, .client k ∈ s.2.socket_set ↔ ∃ fd : ℕ, s.2.tcp_clients[fd]? = some k
  entry : ∀ fd k : ℕ, s.2.tcp_clients[fd]? = some k → get_socket s (.client k) = some fd
  object : ∀ k fd, get_socket s (.client k) = some fd → s.2.tcp_clients[fd]? = some k
  next : ∀ k fd, get_socket s (.client k) = some fd → k < s.2.next_client

/-- The clients in the map are there, each under its own descriptor, and the next number is new. -/
structure Populated (s : BusMgr × Server) : Prop where
  entry : ∀ fd k : ℕ, s.2.tcp_clients[fd]? = some k → get_socket s (.client k) = some fd
  next : ∀ k fd, get_socket s (.client k) = some fd → k < s.2.next_client

/-- The clients in the map are connected. -/
def AllConnected (s : Server) : Prop :=
  ∀ (fd k : ℕ) c, s.tcp_clients[fd]? = some k → s.clients k = some c → c.connected = true

theorem ClientTable.agree {s : BusMgr × Server} (h : ClientTable s) (hc : AllConnected s.2) :
    ClientsAgree s where
  registered := h.registered
  entry fd k hk := by
    obtain ⟨c, hs, hfd⟩ := Option.map_eq_some_iff.1 (h.entry fd k hk)
    exact ⟨c, hs, hfd, hc fd k c hk hs⟩
  object k c hk := h.object k c.socket (by rw [get_socket, hk, Option.map_some])

/-! ### The steps -/

theorem Populated.congr {s s' : BusMgr × Server} (h : Populated s)
    (hget : ∀ k, get_socket s' (.client k) = get_socket s (.client k))
    (hmap : s'.2.tcp_clients = s.2.tcp_clients) (hnext : s'.2.next_client = s.2.next_client) :
    Populated s' where
  entry fd k hk := by
    rw [hget]
    exact h.entry fd k (hmap ▸ hk)
  next k fd hk := by
    rw [hget] at hk
    rw [hnext]
    exact h.next k fd hk

theorem Populated.same {s s' : BusMgr × Server} (h : Populated s) (hs : SameSockets s s') :
    Populated s' :=
  h.congr (fun k => hs.get_socket (.client k)) hs.clients.tcp_clients hs.clients.next_client

theorem tcp_clients_accepted (s : Server) (c : Accepted) (address port : String) (fd : ℕ) :
    (s.accepted c address port).tcp_clients[fd]? =
      if c.fd = fd then some s.next_client else s.tcp_clients[fd]? := by
  simp only [Server.accepted, Std.TreeMap.getElem?_insert, Std.LawfulEqCmp.compare_eq_iff_eq]

theorem tcp_clients_removed (s : Server) (fd k : ℕ) (c : TcpClient) (m : ℕ) :
    (s.removed fd k c).tcp_clients[m]? = if fd = m then none else s.tcp_clients[m]? := by
  simp only [Server.removed, Std.TreeMap.getElem?_erase, Std.LawfulEqCmp.compare_eq_iff_eq]

theorem accept_populated {s : BusMgr × Server} (h : Populated s) {c : Accepted}
    {address port : String} : Populated (s.1, s.2.accepted c address port) := by
  have hget := fun k => @get_socket_accepted s c address port (.client k)
  have hnew : ∀ fd : ℕ, s.2.tcp_clients[fd]? ≠ some s.2.next_client :=
    fun fd hk => absurd (h.next _ fd (h.entry fd _ hk)) (lt_irrefl _)
  refine ⟨fun fd k hk => ?_, fun k fd hk => ?_⟩
  · have hk := (tcp_clients_accepted s.2 c address port fd).symm.trans hk
    rw [hget]
    split_ifs at hk with he
    · obtain rfl := Option.some.inj hk
      rw [if_pos rfl, he]
    · rw [if_neg, h.entry fd k hk]
      rintro he
      exact hnew fd (SocketRef.client.inj he ▸ hk)
  · rw [hget] at hk
    split_ifs at hk with he
    · exact SocketRef.client.inj he ▸ Nat.lt_succ_self _
    · exact Nat.lt_succ_of_lt (h.next k fd hk)

theorem Populated.one {s : BusMgr × Server} (h : Populated s) {fd m k : ℕ}
    (hk : s.2.tcp_clients[fd]? = some k) (hm : s.2.tcp_clients[m]? = some k) : m = fd :=
  Option.some.inj ((h.entry m k hm).symm.trans (h.entry fd k hk))

theorem removed_populated {s : BusMgr × Server} (h : Populated s) {fd k : ℕ} {c : TcpClient}
    (hk : s.2.tcp_clients[fd]? = some k) : Populated (s.1, s.2.removed fd k c) := by
  have hget := fun k' => @get_socket_removed s fd k c (.client k')
  refine ⟨fun m k' hm => ?_, fun k' m hm => ?_⟩
  · have hm := (tcp_clients_removed s.2 fd k c m).symm.trans hm
    split_ifs at hm with hne
    rw [hget, if_neg, h.entry m k' hm]
    rintro he
    exact hne (h.one hk (SocketRef.client.inj he ▸ hm)).symm
  · rw [hget] at hm
    split_ifs at hm
    exact h.next k' m hm

/-- No step leaves a client in the map that is not there, be its descriptor given twice. -/
theorem populated_loop (host : Host) (C : LoopStep → BusMgr × Server → Prop) :
    LoopRule host C Populated fun _ => True where
  accept h _ _ := accept_populated h
  visit {s s' v} h _ hv _ hrun := by
    obtain ⟨t, hsel, hcases⟩ := visit_closes hv hrun
    have ht := h.same (hsel ▸ on_select_same host hv s)
    rcases hcases with rfl | ⟨n, d, -, hd, rfl⟩ | ⟨k, c, -, hc, rfl⟩
    · exact ht
    · exact ht.congr (fun k => by rfl) rfl rfl
    · exact ht.same ⟨fun _ => rfl, (SameClients.refl t.2).close hc⟩
  opened h _ _ _ _ _ _ := h.congr (fun k => by rfl) rfl rfl
  failed h _ _ _ _ _ := h.congr (fun k => by rfl) rfl rfl
  unregister h _ _ := h.congr (fun k => by rfl) rfl rfl
  remove h _ _ _ := h.congr (fun k => by rfl) rfl rfl
  flush_client h hk _ _ := removed_populated h hk
  stop _ _ _ := trivial

theorem ClientTable.populated {s : BusMgr × Server} (h : ClientTable s) : Populated s :=
  ⟨h.entry, h.next⟩

theorem ClientTable.congr {s s' : BusMgr × Server} (h : ClientTable s)
    (hget : ∀ k, get_socket s' (.client k) = get_socket s (.client k))
    (hset : ∀ k, .client k ∈ s'.2.socket_set ↔ .client k ∈ s.2.socket_set)
    (hmap : s'.2.tcp_clients = s.2.tcp_clients) (hnext : s'.2.next_client = s.2.next_client) :
    ClientTable s' where
  registered k := by rw [hset, hmap, h.registered]
  entry fd k hk := by
    rw [hget]
    exact h.entry fd k (hmap ▸ hk)
  object k fd hk := by
    rw [hget] at hk
    rw [hmap]
    exact h.object k fd hk
  next k fd hk := by
    rw [hget] at hk
    rw [hnext]
    exact h.next k fd hk

theorem ClientTable.same {s s' : BusMgr × Server} (h : ClientTable s) (hs : SameSockets s s') :
    ClientTable s' :=
  h.congr (fun k => hs.get_socket (.client k)) (fun k => by rw [hs.clients.socket_set])
    hs.clients.tcp_clients hs.clients.next_client

theorem accept_clientTable {s : BusMgr × Server} (h : ClientTable s) {c : Accepted}
    {address port : String} (hfd : c.fd ∉ s.2.tcp_clients) :
    ClientTable (s.1, s.2.accepted c address port) := by
  have hmap := tcp_clients_accepted s.2 c address port
  have hnone : s.2.tcp_clients[c.fd]? = none := Std.TreeMap.getElem?_eq_none hfd
  have hp : Populated (s.1, s.2.accepted c address port) := accept_populated h.populated
  refine ⟨fun k => ?_, hp.entry, fun k fd hk => ?_, hp.next⟩
  · change SocketRef.client k ∈ insert (SocketRef.client s.2.next_client) s.2.socket_set ↔
      ∃ fd : ℕ, (s.2.accepted c address port).tcp_clients[fd]? = some k
    rw [Finset.mem_insert, h.registered, SocketRef.client.injEq]
    constructor
    · rintro (rfl | ⟨fd, hk⟩)
      · exact ⟨c.fd, (hmap _).trans (if_pos rfl)⟩
      · refine ⟨fd, (hmap fd).trans ((if_neg ?_).trans hk)⟩
        rintro rfl
        exact absurd (hnone.symm.trans hk) (by simp)
    · rintro ⟨fd, hk⟩
      rw [hmap] at hk
      split_ifs at hk
      · exact .inl (Option.some.inj hk).symm
      · exact .inr ⟨fd, hk⟩
  · rw [get_socket_accepted] at hk
    refine (hmap fd).trans ?_
    split_ifs at hk with he
    · rw [if_pos (Option.some.inj hk), SocketRef.client.inj he]
    · have hold := h.object k fd hk
      rw [if_neg, hold]
      rintro rfl
      exact absurd (hnone.symm.trans hold) (by simp)

theorem removed_clientTable {s : BusMgr × Server} (h : ClientTable s) {fd k : ℕ} {c : TcpClient}
    (hk : s.2.tcp_clients[fd]? = some k) : ClientTable (s.1, s.2.removed fd k c) := by
  have hmap := tcp_clients_removed s.2 fd k c
  have hp : Populated (s.1, s.2.removed fd k c) := removed_populated h.populated hk
  refine ⟨fun k' => ?_, hp.entry, fun k' m hm => ?_, hp.next⟩
  · change SocketRef.client k' ∈ s.2.socket_set.erase (SocketRef.client k) ↔
      ∃ m : ℕ, (s.2.removed fd k c).tcp_clients[m]? = some k'
    rw [Finset.mem_erase, h.registered, Ne, SocketRef.client.injEq]
    constructor
    · rintro ⟨hne, m, hm⟩
      refine ⟨m, (hmap m).trans ((if_neg ?_).trans hm)⟩
      rintro rfl
      exact hne (Option.some.inj (hm.symm.trans hk))
    · rintro ⟨m, hm⟩
      rw [hmap] at hm
      split_ifs at hm with hne
      refine ⟨?_, m, hm⟩
      rintro rfl
      exact hne (h.populated.one hk hm).symm
  · rw [get_socket_removed] at hm
    split_ifs at hm with he
    have hold := h.object k' m hm
    refine (hmap m).trans ((if_neg ?_).trans hold)
    rintro rfl
    exact he (congrArg SocketRef.client (Option.some.inj (hold.symm.trans hk)))

theorem clientTable_loop (host : Host) :
    LoopRule host LoopStep.Unmapped ClientTable fun _ => True where
  accept h hC _ := accept_clientTable h hC
  visit {s s' v} h _ hv _ hrun := by
    obtain ⟨t, hsel, hcases⟩ := visit_closes hv hrun
    have ht := h.same (hsel ▸ on_select_same host hv s)
    rcases hcases with rfl | ⟨n, d, -, hd, rfl⟩ | ⟨k, c, -, hc, rfl⟩
    · exact ht
    · exact ht.congr (fun k => by rfl) (fun k => by rfl) rfl rfl
    · exact ht.same ⟨fun _ => rfl, (SameClients.refl t.2).close hc⟩
  opened h _ _ _ _ _ _ := h.congr (fun k => by rfl) (fun k => by simp [Server.opened]) rfl rfl
  failed h _ _ _ _ _ := h.congr (fun k => by rfl) (fun k => by rfl) rfl rfl
  unregister h _ _ := h.congr (fun k => by rfl) (fun k => by simp [Server.unregistered]) rfl rfl
  remove h _ _ _ := h.congr (fun k => by rfl) (fun k => by rfl) rfl rfl
  flush_client h hk _ _ := removed_clientTable h hk
  stop _ _ _ := trivial

/-! ### `flush_clients` -/

/-- On a walk over the clients `clients`: those in `seen` that are still in the map are connected. -/
structure Walked (clients : Std.TreeMap ℕ ℕ) (seen : List (ℕ × ℕ)) (s : Server) : Prop where
  old : ∀ fd k : ℕ, s.tcp_clients[fd]? = some k → clients[fd]? = some k
  done : ∀ (fd k : ℕ) c, s.tcp_clients[fd]? = some k → fd ∈ seen.map Prod.fst →
    s.clients k = some c → c.connected = true

theorem walked_step {clients : Std.TreeMap ℕ ℕ} {pre post : List (ℕ × ℕ)} {it : ℕ × ℕ}
    (hl : clients.toList = pre ++ it :: post) :
    Triple (Walked clients pre) (do
      let c ← Server.client it.2
      if c.connected = false then
        SocketMgr.unregister_socket (.client it.2) c.socket
        modify fun s =>
          { s with
            tcp_clients := s.tcp_clients.erase it.1
            clients := Function.update s.clients it.2 none })
      (fun _ => Walked clients (pre ++ [it])) fun _ _ => True := by
  obtain ⟨fd, k⟩ := it
  have hentry : clients[fd]? = some k := entry_of_walk hl
  have hseen : ∀ m, m ∈ (pre ++ [(fd, k)]).map Prod.fst → m ∈ pre.map Prod.fst ∨ m = fd := by
    simp
  rintro s ⟨hold, hdone⟩
  rw [exec_bind]
  rcases hc : s.clients k with _ | c
  · rw [Server.client_none hc]
    trivial
  rw [Server.client_some hc]
  dsimp only
  rw [exec_ite]
  by_cases hcon : c.connected = false
  swap
  · rw [if_neg hcon]
    refine ⟨hold, fun m k' c' hm hs hc' => ?_⟩
    rcases hseen m hs with hs | rfl
    · exact hdone m k' c' hm hs hc'
    · obtain rfl := Option.some.inj ((hold m k' hm).symm.trans hentry)
      obtain rfl := Option.some.inj (hc.symm.trans hc')
      exact Bool.eq_true_of_not_eq_false hcon
  rw [if_pos hcon]
  have hun : ∀ t : Server, t.tcp_clients = s.tcp_clients → t.clients = s.clients →
      Walked clients (pre ++ [(fd, k)]) { t with
        tcp_clients := t.tcp_clients.erase fd, clients := Function.update t.clients k none } := by
    intro t htcp hcl
    have hmap : ∀ m k' : ℕ, (t.tcp_clients.erase fd)[m]? = some k' →
        fd ≠ m ∧ s.tcp_clients[m]? = some k' := by
      intro m k' hm
      rw [htcp] at hm
      simp only [Std.TreeMap.getElem?_erase, Std.LawfulEqCmp.compare_eq_iff_eq] at hm
      split_ifs at hm with hne
      exact ⟨hne, hm⟩
    refine ⟨fun m k' hm => hold m k' (hmap m k' hm).2, fun m k' c' hm hs hc' => ?_⟩
    obtain ⟨hne, hm⟩ := hmap m k' hm
    have hc' : Function.update t.clients k none k' = some c' := hc'
    rw [hcl] at hc'
    have hk : k' ≠ k := by
      rintro rfl
      rw [Function.update_self] at hc'
      cases hc'
    rw [Function.update_of_ne hk] at hc'
    exact hdone m k' c' hm ((hseen m hs).resolve_right (Ne.symm hne)) hc'
  rw [exec_bind]
  unfold SocketMgr.unregister_socket
  rw [exec_ite]
  split_ifs
  · exact hun s rfl rfl
  · exact hun _ rfl rfl

theorem flush_allConnected {host : Host} {s s' : BusMgr × Server}
    (h : (SelectLoop.step host .flush).exec s = (.ok (), s')) : AllConnected s'.2 := by
  unfold SelectLoop.step at h
  rw [exec_bind] at h
  rcases he : BusMgr.flush_dev.exec s with ⟨e | u, bm, srv⟩ <;> rw [he] at h
  · cases h
  dsimp only at h
  rw [exec_onSnd] at h
  have hloop := Triple.forEach_prefix srv.tcp_clients.toList (I := Walked srv.tcp_clients)
    (R := fun _ _ => True) fun pre it post hl => walked_step hl
  have hfl : Server.flush_clients.exec srv = (.ok (), s'.2) :=
    Prod.ext (congrArg (fun x => x.1) h :) (congrArg (fun x => x.2.2) h :)
  have hend := hloop.ok ⟨fun _ _ h => h, fun _ _ _ _ hs => absurd hs (by simp)⟩ hfl
  intro fd k c hk hc
  have hmem := Std.TreeMap.mem_toList_iff_getElem?_eq_some.2 (hend.old fd k hk)
  exact hend.done fd k c hk (List.mem_map.2 ⟨_, hmem, rfl⟩) hc

theorem pass_allConnected {host : Host} {p : Pass} {s s' : BusMgr × Server}
    (h : (SelectLoop.pass host p).exec s = (.ok (), s')) : AllConnected s'.2 := by
  have hsteps : ∃ es, p.steps s = es ++ [.flush] := by
    rcases p with ⟨visits, once⟩ | opens <;> exact ⟨_, rfl⟩
  obtain ⟨es, hes⟩ := hsteps
  have hrun : (forEach (p.steps s) (SelectLoop.step host)).exec s = (.ok (), s') := h
  rw [hes] at hrun
  obtain ⟨t, -, hrun⟩ := exec_forEach_append.1 hrun
  obtain ⟨u, hu, hrun⟩ := exec_forEach_cons.1 hrun
  obtain rfl := (Prod.mk.inj hrun).2
  exact flush_allConnected hu

theorem select_loop_allConnected {host : Host} : ∀ {ps : List Pass} {s s' : BusMgr × Server},
    AllConnected s.2 → (select_loop host ps).exec s = (.ok (), s') → AllConnected s'.2
  | [], _, _, h, hrun => (Prod.mk.inj hrun).2 ▸ h
  | _ :: _, _, _, _, hrun => by
    obtain ⟨t, ht, hrun⟩ := exec_forEach_cons.1 hrun
    exact select_loop_allConnected (pass_allConnected ht) hrun

/-! ### The loop -/

theorem start_clientTable (config : Config) : ClientTable config.start where
  registered k := by simp [Config.start, Config.serverMgr, Config.sockets]
  entry fd k h := by simp [Config.start, Config.serverMgr] at h
  object k fd h := by simp [get_socket, Config.start, Config.serverMgr] at h
  next k fd h := by simp [get_socket, Config.start, Config.serverMgr] at h

/-- In every run in which no connection gets a number under which the map still has a client, the
two registries agree after every pass. -/
theorem select_loop_clientsAgree (host : Host) (config : Config) (ps : List Pass)
    (h : Meets host LoopStep.Unmapped ps config.start) {s : BusMgr × Server}
    (hrun : (select_loop host ps).exec config.start = (.ok (), s)) : ClientsAgree s := by
  have hend := ((clientTable_loop host).select_loop ps).ok
    ⟨⟨start_clientTable config, config.start_nonzero, config.start_flushed⟩, h⟩ hrun
  refine hend.inv.agree (select_loop_allConnected (s := config.start) (fun fd k c hk => ?_) hrun)
  simp [Config.start, Config.serverMgr] at hk

namespace SelectLoop

/-- A client goes, and another one comes in the same pass and gets the descriptor `fd`. -/
def renewed (fd : ℕ) : List Pass :=
  [one (connect 7), .ready [disconnect 0, connect fd] (by simp [disconnect, connect, Visit.socket])]

end SelectLoop

/-- The new client gets a number of its own. -/
theorem select_loop_clientsAgree_renewed :
    ClientsAgree ((select_loop sampleHost (renewed 8)).exec sampleConfig.start).2 :=
  select_loop_clientsAgree sampleHost sampleConfig (renewed 8) (by decide +kernel)
    (Prod.ext (by decide +kernel) rfl)

/-- The new client gets the number of the one that went: the object of the first is among the
sockets for good. -/
theorem not_select_loop_clientsAgree : ¬ ∀ (host : Host) (config : Config) (ps : List Pass)
    (s : BusMgr × Server), Meets host LoopStep.Possible ps config.start →
      (select_loop host ps).exec config.start = (.ok (), s) → ClientsAgree s := by
  intro h
  have hmeet : Meets sampleHost LoopStep.Possible (renewed 7) sampleConfig.start := by
    decide +kernel
  have hok : ((select_loop sampleHost (renewed 7)).exec sampleConfig.start).1 = .ok () := by
    decide +kernel
  have hmem : .client 0 ∈
      ((select_loop sampleHost (renewed 7)).exec sampleConfig.start).2.2.socket_set := by
    decide +kernel
  have hclosed : (((select_loop sampleHost (renewed 7)).exec sampleConfig.start).2.2.clients 0).map
      TcpClient.connected = some false := by decide +kernel
  rcases hrun : (select_loop sampleHost (renewed 7)).exec sampleConfig.start with ⟨r, s⟩
  rw [hrun] at hok hmem hclosed
  obtain rfl : r = .ok () := hok
  have hagree := h sampleHost sampleConfig (renewed 7) s hmeet hrun
  obtain ⟨fd, hk⟩ := (hagree.registered 0).1 hmem
  obtain ⟨c, hc, -, hcon⟩ := hagree.entry fd 0 hk
  rw [hc, Option.map_some, hcon] at hclosed
  exact absurd (Option.some.inj hclosed) (by decide)

end H9
