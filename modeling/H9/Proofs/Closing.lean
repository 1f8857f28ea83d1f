import H9.Proofs.Registry

/-!
# What the drivers close

A socket that is open has a number of its own among those the process has open, and no driver
that is closed and going to be opened again still has it (`Ownership`). So what `Driver::on_close`
closes is the driver's own, or nobody's. A driver keeps its number when it is closed, though, and
the kernel does not know that.
-/

namespace H9

open Prog SelectLoop

structure Ownership (s : BusMgr × Server) : Prop where
  own : ∀ r fd, open_socket s r = some fd → fd ∈ s.2.open_fds
  distinct : ∀ r r' fd, open_socket s r = some fd → open_socket s r' = some fd → r = r'
  awaited : ∀ (n : String) (d : Driver), s.1.dev[n]? = some d → d.connected = false →
    d.retry_auto_connect ≠ 0 → ∀ r, open_socket s r ≠ some d.socket
  next : ∀ k, s.2.next_client ≤ k → s.2.clients k = none

/-! ### The numbers of the open sockets -/

theorem open_socket_driver {s : BusMgr × Server} {n : String} {d : Driver}
    (hd : s.1.dev[n]? = some d) :
    open_socket s (.driver n) = if d.connected then some d.socket else none := by
  rw [open_socket, hd]
  rcases hc : d.connected <;> simp [hc]

theorem open_socket_client {s : BusMgr × Server} {k : ℕ} {c : TcpClient}
    (hc : s.2.clients k = some c) :
    open_socket s (.client k) = if c.h9socket.isSome then some c.socket else none := by
  rw [open_socket, hc]
  rcases hh : c.h9socket <;> simp [hh]

theorem open_socket_ports (srv : Server) {bm bm' : BusMgr}
    (h : ∀ n : String, bm'.dev[n]?.map Driver.port = bm.dev[n]?.map Driver.port) (r : SocketRef) :
    open_socket (bm', srv) r = open_socket (bm, srv) r := by
  rcases r with _ | n | k
  · rfl
  · have hp := h n
    rcases hd' : bm'.dev[n]? with _ | d' <;> rcases hd : bm.dev[n]? with _ | d <;>
      rw [hd', hd] at hp
    · rw [open_socket, open_socket, hd', hd]
    · cases hp
    · cases hp
    · obtain ⟨-, -, hs, hc, -⟩ := Driver.port_eq (Option.some.inj hp)
      rw [open_socket_driver (s := (bm', srv)) hd', open_socket_driver (s := (bm, srv)) hd, hs, hc]
  · rfl

theorem open_socket_set (srv : Server) {bm bm' : BusMgr} {srv' : Server} {n : String} {d : Driver}
    (hset : BusMgr.Set n d bm bm') (hclients : srv'.clients = srv.clients)
    (hserver : srv'.tcp_server = srv.tcp_server) (r : SocketRef) :
    open_socket (bm', srv') r =
      if r = .driver n then if d.connected then some d.socket else none
      else open_socket (bm, srv) r := by
  rcases r with _ | m | k
  · simp [open_socket, hserver]
  · by_cases hm : n = m
    · subst hm
      have hd : bm'.dev[n]? = some d := by rw [hset.dev, if_pos rfl]
      rw [open_socket_driver (s := (bm', srv')) hd, if_pos rfl]
    · simp only [open_socket, hset.dev, if_neg hm, SocketRef.driver.injEq, if_neg (Ne.symm hm)]
  · simp [open_socket, hclients]

/-- One client's object is another one, or gone. -/
theorem open_socket_update (bm : BusMgr) (srv srv' : Server) {k : ℕ} {v : Option TcpClient}
    (hclients : srv'.clients = Function.update srv.clients k v)
    (hserver : srv'.tcp_server = srv.tcp_server) (r : SocketRef) :
    open_socket (bm, srv') r =
      if r = .client k then (v.filter fun c => c.h9socket.isSome).map TcpClient.socket
      else open_socket (bm, srv) r := by
  rcases r with _ | m | k'
  · simp [open_socket, hserver]
  · simp [open_socket]
  · by_cases hk : k' = k
    · simp [open_socket, hclients, hk]
    · simp [open_socket, hclients, hk]

theorem get_socket_of_open {s : BusMgr × Server} {r : SocketRef} {fd : ℕ}
    (h : open_socket s r = some fd) : get_socket s r = some fd := by
  rcases r with _ | n | k
  · exact h
  · obtain ⟨d, hd, rfl⟩ := Option.map_eq_some_iff.1 h
    rw [get_socket, (Option.filter_eq_some_iff.1 hd).1, Option.map_some]
  · obtain ⟨c, hc, rfl⟩ := Option.map_eq_some_iff.1 h
    rw [get_socket, (Option.filter_eq_some_iff.1 hc).1, Option.map_some]

namespace Ownership

variable {s s' : BusMgr × Server}

theorem mono (h : Ownership s)
    (hopen : ∀ r fd, open_socket s' r = some fd → open_socket s r = some fd ∧ fd ∈ s'.2.open_fds)
    (hdev : ∀ (n : String) (d : Driver), s'.1.dev[n]? = some d → d.connected = false →
      d.retry_auto_connect ≠ 0 → ∀ r, open_socket s' r ≠ some d.socket)
    (hnext : ∀ k, s'.2.next_client ≤ k → s'.2.clients k = none) : Ownership s' where
  own r fd hr := (hopen r fd hr).2
  distinct r r' fd hr hr' := h.distinct r r' fd (hopen r fd hr).1 (hopen r' fd hr').1
  awaited := hdev
  next := hnext

theorem open_on (h : Ownership s) {r₀ : SocketRef} {fd : ℕ}
    (hget : ∀ r, open_socket s' r = if r = r₀ then some fd else open_socket s r)
    (hfd : fd ∉ s.2.open_fds) (hfds : s'.2.open_fds = insert fd s.2.open_fds)
    (hdev : ∀ (n : String) (d : Driver), s'.1.dev[n]? = some d → d.connected = false →
      d.retry_auto_connect ≠ 0 → d.socket ≠ fd ∧ ∀ r ≠ r₀, open_socket s r ≠ some d.socket)
    (hnext : ∀ k, s'.2.next_client ≤ k → s'.2.clients k = none) : Ownership s' where
  own r fd' hr := by
    rw [hget] at hr
    rw [hfds]
    split_ifs at hr with he
    · exact Finset.mem_insert.2 (.inl (Option.some.inj hr).symm)
    · exact Finset.mem_insert_of_mem (h.own r fd' hr)
  distinct r r' fd' hr hr' := by
    rw [hget] at hr hr'
    split_ifs at hr hr' with he he' he'
    · rw [he, he']
    · exact absurd (h.own r' fd' hr') (Option.some.inj hr ▸ hfd)
    · exact absurd (h.own r fd' hr) (Option.some.inj hr' ▸ hfd)
    · exact h.distinct r r' fd' hr hr'
  awaited n d hd hc hr r := by
    obtain ⟨hne, hold⟩ := hdev n d hd hc hr
    rw [hget]
    split_ifs with he
    · exact fun h' => hne (Option.some.inj h').symm
    · exact hold r he
  next := hnext

/-- The objects of later clients are not there yet, whatever becomes of one that is. -/
theorem next_update (h : Ownership s) {k : ℕ} {c : TcpClient} (hc : s.2.clients k = some c)
    (v : Option TcpClient) {k' : ℕ} (hk' : s.2.next_client ≤ k') :
    Function.update s.2.clients k v k' = none := by
  have hne : k' ≠ k := by
    rintro rfl
    cases (h.next k' hk').symm.trans hc
  exact (Function.update_of_ne hne _ _).trans (h.next k' hk')

theorem congr {bm bm' : BusMgr} {srv : Server} (h : Ownership (bm, srv))
    (hp : ∀ n : String, bm'.dev[n]?.map Driver.port = bm.dev[n]?.map Driver.port) :
    Ownership (bm', srv) := by
  have hopen := open_socket_ports srv hp
  refine h.mono (fun r fd hr => ?_) (fun n d hd hc hr r => ?_) h.next
  · rw [hopen] at hr
    exact ⟨hr, h.own r fd hr⟩
  · obtain ⟨d₀, hd₀, hd₀'⟩ := BusMgr.exists_port hp hd
    obtain ⟨-, -, hs, hcon, hre⟩ := Driver.port_eq hd₀'
    rw [hopen, ← hs]
    exact h.awaited n d₀ hd₀ (hcon.trans hc) (fun h0 => hr (hre.symm.trans h0)) r

end Ownership

/-! ### The clients -/

theorem ownership_closed {bm : BusMgr} {srv : Server} {k : ℕ} {c : TcpClient}
    (h : Ownership (bm, srv)) (hc : srv.clients k = some c) : Ownership (bm, srv.closed k c) := by
  have hopen : ∀ r, open_socket (bm, srv.closed k c) r =
      if r = .client k then none else open_socket (bm, srv) r :=
    open_socket_update bm srv (srv.closed k c) rfl rfl
  refine h.mono (fun r fd hr => ?_) (fun n d hd hcon hr r => ?_) fun k' => h.next_update hc _
  · rw [hopen] at hr
    split_ifs at hr with he
    refine ⟨hr, ?_⟩
    have hmem := h.own r fd hr
    change fd ∈ if c.h9socket.isSome then srv.open_fds.erase c.socket else srv.open_fds
    split_ifs with hh
    · refine Finset.mem_erase.2 ⟨?_, hmem⟩
      rintro rfl
      exact he (h.distinct _ _ _ hr ((open_socket_client (s := (bm, srv)) hc).trans (if_pos hh)))
    · exact hmem
  · rw [hopen]
    split_ifs
    · simp
    · exact h.awaited n d hd hcon hr r

theorem ownership_rule (bm : BusMgr) : ServerRule fun srv => Ownership (bm, srv) where
  missing _ _ _ := trivial
  answer _ _ _ _ := trivial
  touch {srv k c c'} h hc hl := by
    have hopen : ∀ r, open_socket (bm, srv.setClient k c') r = open_socket (bm, srv) r := by
      intro r
      rw [open_socket_update bm srv (srv.setClient k c') rfl rfl]
      split_ifs with he
      · rw [he, open_socket_client (s := (bm, srv)) hc, ← hl.h9socket, ← hl.socket,
          ← open_socket_client (s := (bm, srv.setClient k c')) (Function.update_self k _ _)]
        simp [open_socket, Server.setClient]
      · rfl
    refine h.mono (fun r fd hr => ?_) (fun n d hd hcon hr r => ?_) fun k' => h.next_update hc _
    · rw [hopen] at hr
      exact ⟨hr, h.own r fd hr⟩
    · rw [hopen]
      exact h.awaited n d hd hcon hr r
  close h hc := ownership_closed h hc
  delivered h := ⟨h.own, h.distinct, h.awaited, h.next⟩
  issued h := ⟨h.own, h.distinct, h.awaited, h.next⟩

theorem on_select_ownership (host : Host) {v : Visit} (hv : ∀ a, v ≠ .accept a)
    {s : BusMgr × Server} (h : Ownership s) :
    Ownership ((SelectLoop.on_select host v).exec s).2 :=
  have hk := on_select_keeps host (ownership_rule s.1) hv h
  hk.2.congr hk.1

/-! ### The steps -/

theorem ownership_driver_closed {s : BusMgr × Server} {n : String} {d : Driver} (h : Ownership s)
    (hd : s.1.dev[n]? = some d) (hcon : d.connected = true) :
    Ownership (s.1.setDriver n { d with connected := false },
      { s.2 with open_fds := s.2.open_fds.erase d.socket }) := by
  have hset := s.1.set_setDriver n { d with connected := false }
  have hown : open_socket s (.driver n) = some d.socket :=
    (open_socket_driver hd).trans (if_pos hcon)
  have hopen : ∀ r, open_socket (s.1.setDriver n { d with connected := false },
      { s.2 with open_fds := s.2.open_fds.erase d.socket }) r =
        if r = .driver n then none else open_socket s r :=
    fun r => open_socket_set s.2 hset (by rfl) (by rfl) r
  have hne : ∀ r, r ≠ .driver n → open_socket s r ≠ some d.socket :=
    fun r hr h' => hr (h.distinct r _ _ h' hown)
  refine h.mono (fun r fd hr => ?_) (fun m c hm hc hr r => ?_) h.next
  · rw [hopen] at hr
    split_ifs at hr with he
    refine ⟨hr, Finset.mem_erase.2 ⟨?_, h.own r fd hr⟩⟩
    rintro rfl
    exact hne r he hr
  · rw [hopen]
    split_ifs with he
    · simp
    rw [hset.dev] at hm
    split_ifs at hm with hmn
    · obtain rfl := Option.some.inj hm
      exact hne r he
    · exact h.awaited m c hm hc hr r

theorem visit_ownership {host : Host} {s s' : BusMgr × Server} (h : Ownership s) {v : Visit}
    (hv : ∀ a, v ≠ .accept a) (hlive : Live v s)
    (hrun : (SelectLoop.visit host v).exec s = (.ok (), s')) : Ownership s' := by
  obtain ⟨t, hsel, hcases⟩ := visit_closes hv hrun
  have ht : Ownership t := hsel ▸ on_select_ownership host hv h
  have hsame : SameSockets s t := hsel ▸ on_select_same host hv s
  rcases hcases with rfl | ⟨n, d, hn, hd, rfl⟩ | ⟨k, c, -, hc, rfl⟩
  · exact ht
  · refine ownership_driver_closed ht hd ?_
    obtain ⟨d₀, hd₀, hp⟩ := BusMgr.exists_port hsame.ports hd
    rw [← (Driver.port_eq hp).2.2.2.1]
    exact hlive n d₀ hn hd₀
  · exact ownership_closed ht hc

theorem LoopStep.Unawaited.driver {e : LoopStep} {s : BusMgr × Server} (h : e.Unawaited s)
    {r : SocketRef} {fd : ℕ} (he : e.given s = some (r, fd)) {n : String} {d : Driver}
    (hd : s.1.dev[n]? = some d) (hc : d.connected = false) (hr : d.retry_auto_connect ≠ 0)
    (hfd : d.socket = fd) : r = .driver n :=
  h (r, fd) he (n, d) (Std.TreeMap.mem_toList_iff_getElem?_eq_some.2 hd) hc hr hfd

/-- The kernel gives no number that is open, or that a driver going to be opened again had. -/
def LoopStep.Unused (e : LoopStep) (s : BusMgr × Server) : Prop := e.Possible s ∧ e.Unawaited s

instance (e : LoopStep) (s : BusMgr × Server) : Decidable (e.Unused s) :=
  inferInstanceAs (Decidable (e.Possible s ∧ e.Unawaited s))

theorem ownership_loop (host : Host) :
    LoopRule host LoopStep.Unused Ownership fun _ => True where
  accept {s c address port} h hC _ := by
    obtain ⟨hpos, hun⟩ := hC
    have hgiven : (LoopStep.visit (.accept (.ok c))).given s =
      some (.client s.2.next_client, c.fd) := rfl
    have hget : ∀ r, open_socket (s.1, s.2.accepted c address port) r =
        if r = .client s.2.next_client then some c.fd else open_socket s r :=
      open_socket_update s.1 s.2 (s.2.accepted c address port) rfl rfl
    refine h.open_on hget (hpos _ hgiven) rfl (fun n d hd hcon hr => ⟨fun he => ?_,
      fun r _ => h.awaited n d hd hcon hr r⟩) fun k hk => ?_
    · exact SocketRef.noConfusion (hun.driver hgiven hd hcon hr he)
    · have hk : s.2.next_client + 1 ≤ k := hk
      exact (Function.update_of_ne (by omega) _ _).trans (h.next k (by omega))
  visit h _ hv hlive hrun := visit_ownership h hv hlive hrun
  opened {s fd n d} h hC hd hcon hr _ _ := by
    obtain ⟨hpos, hun⟩ := hC
    have hgiven : (LoopStep.reopen n (.opened fd)).given s = some (.driver n, fd) := by
      simp [LoopStep.given, hd, hcon, hr]
    have hset := s.1.set_setDriver n { d with socket := fd, connected := true }
    have hget : ∀ r, open_socket (s.1.setDriver n { d with socket := fd, connected := true },
        s.2.opened (.driver n) fd) r = if r = .driver n then some fd else open_socket s r :=
      open_socket_set s.2 hset (by rfl) (by rfl)
    refine h.open_on hget (hpos _ hgiven) rfl (fun m c hm hc hr' => ?_) h.next
    rw [hset.dev] at hm
    split_ifs at hm with hmn
    · obtain rfl := Option.some.inj hm
      cases hc
    · refine ⟨fun he => hmn (SocketRef.driver.inj (hun.driver hgiven hm hc hr' he)),
        fun r _ => h.awaited m c hm hc hr' r⟩
  failed {s leaked bm' n d} h _ hd hcon hr hset := by
    have hopen : ∀ r, open_socket (bm', { s.2 with open_fds := leftOpen s.2.open_fds d leaked }) r =
        open_socket s r := by
      intro r
      rw [open_socket_set s.2 hset (by rfl) (by rfl)]
      split_ifs with he hc
      · cases hcon.symm.trans hc
      · rw [he, open_socket_driver hd, hcon]
        rfl
      · rfl
    refine h.mono (fun r fd hfd => ?_) (fun m c hm hc hr' r => ?_) h.next
    · rw [hopen] at hfd
      refine ⟨hfd, ?_⟩
      have hmem : fd ∈ s.2.open_fds ∪ leaked.toFinset :=
        Finset.mem_union_left _ (h.own r fd hfd)
      change fd ∈ leftOpen s.2.open_fds d leaked
      unfold leftOpen
      split_ifs
      · refine Finset.mem_erase.2 ⟨?_, hmem⟩
        rintro rfl
        exact h.awaited n d hd hcon hr r hfd
      · exact hmem
    · rw [hopen]
      rw [hset.dev] at hm
      split_ifs at hm with hmn
      · obtain rfl := Option.some.inj hm
        exact h.awaited n d hd hcon hr r
      · exact h.awaited m c hm hc hr' r
  unregister h _ _ := ⟨h.own, h.distinct, h.awaited, h.next⟩
  remove {s n d} h hd hcon _ := by
    have hdev : ∀ (m : String) (c : Driver), (s.1.dev.erase n)[m]? = some c →
        s.1.dev[m]? = some c := by
      intro m c hm
      rw [Std.TreeMap.getElem?_erase] at hm
      split_ifs at hm
      exact hm
    have hopen : ∀ r fd, open_socket ({ s.1 with dev := s.1.dev.erase n }, s.2) r = some fd →
        open_socket s r = some fd := by
      rintro (_ | m | k) fd hr
      · exact hr
      · obtain ⟨c, hm, hfd⟩ := Option.map_eq_some_iff.1 hr
        obtain ⟨hm, hc⟩ := Option.filter_eq_some_iff.1 hm
        rw [open_socket_driver (hdev m c hm), if_pos hc, hfd]
      · exact hr
    exact h.mono (fun r fd hr => ⟨hopen r fd hr, h.own r fd (hopen r fd hr)⟩)
      (fun m c hm hc hr' r hr => h.awaited m c (hdev m c hm) hc hr' r (hopen r _ hr)) h.next
  flush_client {s c fd k} h _ hc _ := by
    have hopen : ∀ r fd', open_socket (s.1, s.2.removed fd k c) r = some fd' →
        open_socket s r = some fd' := by
      intro r fd' hr
      rw [open_socket_update s.1 s.2 (s.2.removed fd k c) rfl rfl] at hr
      split_ifs at hr
      · cases hr
      · exact hr
    refine h.mono (fun r fd' hr => ⟨hopen r fd' hr, h.own r fd' (hopen r fd' hr)⟩)
      (fun n d hd hcon hr' r hr => h.awaited n d hd hcon hr' r (hopen r _ hr)) fun k' hk' => ?_
    by_cases hne : k' = k
    · exact hne ▸ Function.update_self _ _ _
    · exact (Function.update_of_ne hne _ _).trans (h.next k' hk')
  stop _ _ _ := trivial

/-! ### The start -/

theorem start_ownership (config : Config) : Ownership config.start where
  own r fd hr := by
    have hmem := config.mem_sockets.2 (get_socket_of_open hr)
    refine Finset.mem_union_right _ (List.mem_toFinset.2 ?_)
    exact List.mem_map_of_mem (f := Prod.snd) hmem
  distinct r r' fd hr hr' :=
    (start_registry config).distinct r r' fd (get_socket_of_open hr) (get_socket_of_open hr')
  awaited n d hd hc _ _ := by
    obtain ⟨x, -, -, rfl⟩ := config.getElem?_bus.1 hd
    cases hc
  next _ _ := rfl

/-! ### What is closed -/

/-- The two ways to `Driver::on_close`. -/
theorem driver_close_cases {host : Host} {e : LoopStep} {s t : BusMgr × Server} {name : String}
    (h : e.driver_close host s = some (name, t)) :
    (∃ answer ref, e = .visit (.driver name answer) ∧ .driver name ∈ s.2.socket_set ∧
      (SelectLoop.on_select host (.driver name answer)).exec s =
        (.error (.closeSocketException ref), t)) ∨
    ∃ leaked d, e = .reopen name (.failed leaked) ∧ s.1.dev[name]? = some d ∧
      (d.connected = false ∧ d.retry_auto_connect = 1) ∧
        t = (s.1.setDriver name { d with retry_auto_connect := 0 },
          { s.2 with open_fds := s.2.open_fds ∪ leaked.toFinset }) := by
  unfold LoopStep.driver_close at h
  split at h
  · rename_i n answer
    split_ifs at h with hmem
    split at h
    · rename_i ref t' he
      obtain ⟨rfl, rfl⟩ := Prod.mk.inj (Option.some.inj h)
      exact .inl ⟨answer, ref, rfl, hmem, he⟩
    · cases h
  · rename_i n leaked
    split at h
    · rename_i d hd
      split_ifs at h with hc
      obtain ⟨rfl, rfl⟩ := Prod.mk.inj (Option.some.inj h)
      exact .inr ⟨leaked, d, rfl, hd, hc, rfl⟩
    · cases h
  · cases h

theorem Ownership.closesOwn {host : Host} {e : LoopStep} {s : BusMgr × Server}
    (h : Ownership s) (hlive : ∀ v, e = .visit v → v.socket ∈ s.2.socket_set → Live v s) :
    e.ClosesOwn host s := by
  intro name t hclose fd hfd r hr hopen
  rcases driver_close_cases hclose with ⟨answer, ref, rfl, hmem, he⟩ | ⟨leaked, d, rfl, hd, hc, rfl⟩
  · have hv : ∀ a, Visit.driver name answer ≠ .accept a := fun a ha => Visit.noConfusion ha
    have hsel := on_select_ownership host hv h
    have hsame := on_select_same host hv s
    rw [he] at hsel hsame
    obtain ⟨d, hd, rfl⟩ := Option.map_eq_some_iff.1 hfd
    obtain ⟨d₀, hd₀, hp⟩ := BusMgr.exists_port hsame.ports hd
    have hcon : d.connected = true := by
      rw [← (Driver.port_eq hp).2.2.2.1]
      exact hlive _ rfl hmem name d₀ rfl hd₀
    exact hr (hsel.distinct r _ _ hopen ((open_socket_driver hd).trans (if_pos hcon)))
  · have hset := s.1.set_setDriver name { d with retry_auto_connect := 0 }
    have hget : get_socket (s.1.setDriver name { d with retry_auto_connect := 0 },
        { s.2 with open_fds := s.2.open_fds ∪ leaked.toFinset }) (.driver name) = some d.socket := by
      rw [get_socket, hset.dev, if_pos rfl, Option.map_some]
    obtain rfl := Option.some.inj (hget.symm.trans hfd)
    rw [open_socket_set s.2 hset (by rfl) (by rfl), if_neg hr] at hopen
    exact h.awaited name d hd hc.1 (by omega) r hopen

/-- In every run in which the kernel gives no number that is open, and none that a driver going
to be opened again had, a driver closes the number of no other open socket. -/
theorem select_loop_closesOwn (host : Host) (config : Config) (ps : List Pass)
    (h : Meets host LoopStep.Unused ps config.start) :
    Meets host (LoopStep.ClosesOwn host) ps config.start :=
  (ownership_loop host).meets (fun he _ => he.inv.closesOwn he.live) ps
    ⟨start_ownership config, config.start_nonzero, config.start_flushed⟩ h

namespace SelectLoop

/-- The adapter is unplugged, a client connects and gets `fd`, and `n` attempts to open the
adapter again fail. -/
def unplugged (fd n : ℕ) : List Pass := [one unplug, one (connect fd)] ++ List.replicate n failing

end SelectLoop

/-- The client has a number of its own. -/
theorem select_loop_closesOwn_unplugged :
    Meets sampleHost (LoopStep.ClosesOwn sampleHost) (unplugged 7 10) sampleConfig.start :=
  select_loop_closesOwn sampleHost sampleConfig (unplugged 7 10) (by decide +kernel)

/-- The client has the number that the adapter had, and the last attempt closes it. -/
theorem not_select_loop_closesOwn : ¬ ∀ (host : Host) (config : Config) (ps : List Pass),
    Meets host LoopStep.Possible ps config.start →
      Meets host (LoopStep.ClosesOwn host) ps config.start := by
  intro h
  have hmeet := h sampleHost sampleConfig (unplugged 5 9 ++ [failing]) (by decide +kernel)
  have hok : ((select_loop sampleHost (unplugged 5 9)).exec sampleConfig.start).1 = .ok () := by
    decide +kernel
  have hkeys : ((select_loop sampleHost (unplugged 5 9)).exec sampleConfig.start).2.1.dev.keys =
    ["can0"] := by decide +kernel
  have hclose : (((LoopStep.reopen "can0" (.failed none)).driver_close sampleHost
      ((select_loop sampleHost (unplugged 5 9)).exec sampleConfig.start).2).map fun c =>
        (c.1, get_socket c.2 (.driver "can0"), open_socket c.2 (.client 0))) =
      some ("can0", some 5, some 5) := by decide +kernel
  rcases hrun : (select_loop sampleHost (unplugged 5 9)).exec sampleConfig.start with ⟨r, s⟩
  rw [hrun] at hok hkeys hclose
  obtain rfl : r = .ok () := hok
  have hstep := hmeet.last hrun
  rw [failing, Pass.steps, show s.1.dev.keys = ["can0"] from hkeys] at hstep
  obtain ⟨⟨n, t⟩, ht, hc⟩ := Option.map_eq_some_iff.1 hclose
  obtain ⟨rfl, hc⟩ := Prod.mk.inj hc
  obtain ⟨hfd, hclient⟩ := Prod.mk.inj hc
  exact hstep.1 "can0" t ht 5 hfd (.client 0) (by decide) hclient

end H9
