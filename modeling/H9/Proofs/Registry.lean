import H9.Proofs.LoopRules

/-!
# The sockets `select` waits for

While no two sockets have the same descriptor number, the set of the events is that of the
numbers of the registered sockets (`Registry`). Nothing that a driver or a client does changes a
registration (`SameRegistry`); a socket that is accepted or opened again gets a number that no
other has, and `flush` takes out the number of the socket it takes out.
-/

namespace H9

open Prog SelectLoop

/-- `event_socket_set` is the set of the descriptors of `socket_set`, and `socket_max` bounds
them. -/
def Registered (s : BusMgr × Server) : Prop :=
  (∀ fd, fd ∈ s.2.event_socket_set ↔ ∃ socket ∈ s.2.socket_set, get_socket s socket = some fd) ∧
    ∀ socket ∈ s.2.socket_set, ∃ fd, get_socket s socket = some fd ∧ fd ≤ s.2.socket_max

structure Registry (s : BusMgr × Server) : Prop where
  distinct : ∀ r r' fd, get_socket s r = some fd → get_socket s r' = some fd → r = r'
  events : ∀ fd, fd ∈ s.2.event_socket_set ↔ ∃ r ∈ s.2.socket_set, get_socket s r = some fd
  bound : ∀ r ∈ s.2.socket_set, ∃ fd, get_socket s r = some fd ∧ fd ≤ s.2.socket_max
  clients : ∀ fd k : ℕ, s.2.tcp_clients[fd]? = some k → get_socket s (.client k) = some fd
  next : ∀ k fd, get_socket s (.client k) = some fd → k < s.2.next_client

/-- The same sockets, registered in the same way. -/
structure SameRegistry (s₀ s : BusMgr × Server) : Prop where
  sockets : ∀ r, get_socket s r = get_socket s₀ r
  socket_set : s.2.socket_set = s₀.2.socket_set
  event_socket_set : s.2.event_socket_set = s₀.2.event_socket_set
  socket_max : s.2.socket_max = s₀.2.socket_max
  tcp_clients : s.2.tcp_clients = s₀.2.tcp_clients
  next_client : s.2.next_client = s₀.2.next_client

theorem SameRegistry.trans {s₀ s₁ s₂ : BusMgr × Server} (h : SameRegistry s₀ s₁)
    (h' : SameRegistry s₁ s₂) : SameRegistry s₀ s₂ where
  sockets r := (h'.sockets r).trans (h.sockets r)
  socket_set := h'.socket_set.trans h.socket_set
  event_socket_set := h'.event_socket_set.trans h.event_socket_set
  socket_max := h'.socket_max.trans h.socket_max
  tcp_clients := h'.tcp_clients.trans h.tcp_clients
  next_client := h'.next_client.trans h.next_client

theorem Registry.congr {s₀ s : BusMgr × Server} (h : Registry s₀) (hs : SameRegistry s₀ s) :
    Registry s where
  distinct r r' fd := by
    rw [hs.sockets, hs.sockets]
    exact h.distinct r r' fd
  events fd := by
    rw [hs.event_socket_set, hs.socket_set, h.events]
    simp only [hs.sockets]
  bound r hr := by
    rw [hs.socket_set] at hr
    rw [hs.sockets, hs.socket_max]
    exact h.bound r hr
  clients fd k hk := by
    rw [hs.tcp_clients] at hk
    rw [hs.sockets]
    exact h.clients fd k hk
  next k fd hk := by
    rw [hs.sockets] at hk
    rw [hs.next_client]
    exact h.next k fd hk

/-! ### What changes no registration -/

theorem sameRegistry_of_sockets {s₀ s : BusMgr × Server} (h : SameSockets s₀ s) :
    SameRegistry s₀ s where
  sockets := h.get_socket
  socket_set := h.clients.socket_set
  event_socket_set := h.clients.event_socket_set
  socket_max := h.clients.socket_max
  tcp_clients := h.clients.tcp_clients
  next_client := h.clients.next_client

theorem sameRegistry_set {s : BusMgr × Server} {bm : BusMgr} {n : String} {d d' : Driver}
    (hd : s.1.dev[n]? = some d) (hs : d'.socket = d.socket) (hset : BusMgr.Set n d' s.1 bm)
    (fds : Finset ℕ) : SameRegistry s (bm, { s.2 with open_fds := fds }) where
  sockets r := by
    rw [get_socket_set hset hs rfl rfl]
    split_ifs with hr
    · subst hr
      rw [get_socket, hd, Option.map_some]
    · rfl
  socket_set := rfl
  event_socket_set := rfl
  socket_max := rfl
  tcp_clients := rfl
  next_client := rfl

/-! ### What changes a registration -/

theorem Registry.register {s s' : BusMgr × Server} (h : Registry s) {r : SocketRef} {fd : ℕ}
    (hr : ∀ r', r' ≠ r → get_socket s r' ≠ some fd)
    (hget : ∀ r', get_socket s' r' = if r' = r then some fd else get_socket s r')
    (hset : s'.2.socket_set = insert r s.2.socket_set)
    (hev : s'.2.event_socket_set = insert fd s.2.event_socket_set)
    (hmax : s'.2.socket_max = max s.2.socket_max fd)
    (hreg : r ∈ s.2.socket_set → get_socket s r = some fd)
    (hclients : ∀ fd k : ℕ, s'.2.tcp_clients[fd]? = some k → get_socket s' (.client k) = some fd)
    (hnext : ∀ k fd, get_socket s' (.client k) = some fd → k < s'.2.next_client) :
    Registry s' where
  distinct r₁ r₂ fd' h₁ h₂ := by
    rw [hget] at h₁ h₂
    split_ifs at h₁ h₂ with e₁ e₂ e₂
    · rw [e₁, e₂]
    · exact absurd (h₂.trans h₁.symm) (hr r₂ e₂)
    · exact absurd (h₁.trans h₂.symm) (hr r₁ e₁)
    · exact h.distinct r₁ r₂ fd' h₁ h₂
  events fd' := by
    rw [hev, hset, Finset.mem_insert, h.events]
    constructor
    · rintro (rfl | ⟨r', hr', hg⟩)
      · exact ⟨r, Finset.mem_insert_self _ _, by rw [hget, if_pos rfl]⟩
      · refine ⟨r', Finset.mem_insert_of_mem hr', ?_⟩
        rw [hget]
        split_ifs with he
        · subst he
          exact (hreg hr').symm.trans hg
        · exact hg
    · rintro ⟨r', hr', hg⟩
      rw [hget] at hg
      split_ifs at hg with he
      · exact .inl (Option.some.inj hg).symm
      · exact .inr ⟨r', (Finset.mem_insert.1 hr').resolve_left he, hg⟩
  bound r' hr' := by
    rw [hset] at hr'
    rw [hget, hmax]
    split_ifs with he
    · exact ⟨fd, rfl, le_max_right _ _⟩
    · obtain ⟨fd', hg, hle⟩ := h.bound r' ((Finset.mem_insert.1 hr').resolve_left he)
      exact ⟨fd', hg, hle.trans (le_max_left _ _)⟩
  clients := hclients
  next := hnext

theorem Registry.unregister {s s' : BusMgr × Server} (h : Registry s) {r : SocketRef} {fd : ℕ}
    (hr : get_socket s r = some fd)
    (hget : ∀ r', r' ≠ r → get_socket s' r' = get_socket s r')
    (hgone : get_socket s' r = some fd ∨ get_socket s' r = none)
    (hset : s'.2.socket_set = s.2.socket_set.erase r)
    (hev : s'.2.event_socket_set = s.2.event_socket_set.erase fd)
    (hmax : s'.2.socket_max = if s.2.socket_max ≤ fd then fd else s.2.socket_max)
    (hclients : ∀ fd k : ℕ, s'.2.tcp_clients[fd]? = some k → get_socket s' (.client k) = some fd)
    (hnext : s'.2.next_client = s.2.next_client) : Registry s' := by
  have hsub : ∀ r' fd', get_socket s' r' = some fd' → get_socket s r' = some fd' := by
    intro r' fd' hg
    by_cases he : r' = r
    · subst he
      rcases hgone with hg' | hg'
      · rw [hg'] at hg
        rw [hr, hg]
      · rw [hg'] at hg
        cases hg
    · rwa [hget r' he] at hg
  refine ⟨fun r₁ r₂ fd' h₁ h₂ => h.distinct r₁ r₂ fd' (hsub _ _ h₁) (hsub _ _ h₂),
    fun fd' => ?_, fun r' hr' => ?_, hclients,
    fun k fd' hk => hnext ▸ h.next k fd' (hsub _ _ hk)⟩
  · rw [hev, hset, Finset.mem_erase, h.events]
    constructor
    · rintro ⟨hne, r', hr', hg⟩
      have he : r' ≠ r := by
        rintro rfl
        exact hne (Option.some.inj (hg.symm.trans hr))
      exact ⟨r', Finset.mem_erase.2 ⟨he, hr'⟩, by rw [hget r' he, hg]⟩
    · rintro ⟨r', hr', hg⟩
      obtain ⟨he, hr'⟩ := Finset.mem_erase.1 hr'
      rw [hget r' he] at hg
      refine ⟨?_, r', hr', hg⟩
      rintro rfl
      exact he (h.distinct r' r fd' hg hr)
  · rw [hset] at hr'
    obtain ⟨he, hr'⟩ := Finset.mem_erase.1 hr'
    obtain ⟨fd', hg, hle⟩ := h.bound r' hr'
    refine ⟨fd', by rw [hget r' he, hg], ?_⟩
    rw [hmax]
    split_ifs with hle'
    · exact hle.trans hle'
    · exact hle

theorem Registry.remove {s : BusMgr × Server} (h : Registry s) {n : String}
    (hn : .driver n ∉ s.2.socket_set) :
    Registry ({ s.1 with dev := s.1.dev.erase n }, s.2) := by
  have hget := fun r => get_socket_erase (s := s) (n := n) r
  have hsub : ∀ r fd, get_socket ({ s.1 with dev := s.1.dev.erase n }, s.2) r = some fd →
      get_socket s r = some fd := by
    intro r fd hg
    rw [hget] at hg
    split_ifs at hg
    exact hg
  have hreg : ∀ r ∈ s.2.socket_set,
      get_socket ({ s.1 with dev := s.1.dev.erase n }, s.2) r = get_socket s r := by
    intro r hr
    rw [hget, if_neg]
    rintro rfl
    exact hn hr
  refine ⟨fun r₁ r₂ fd h₁ h₂ => h.distinct r₁ r₂ fd (hsub _ _ h₁) (hsub _ _ h₂),
    fun fd => ?_, fun r hr => ?_, fun fd k hk => h.clients fd k hk, fun k fd hk => h.next k fd hk⟩
  · rw [h.events]
    exact exists_congr fun r => and_congr_right fun hr => by rw [hreg r hr]
  · rw [hreg r hr]
    exact h.bound r hr

/-! ### The steps -/

theorem accept_registry {s : BusMgr × Server} (h : Registry s) {c : Accepted}
    {address port : String} (hfd : ∀ r, get_socket s r = some c.fd → r = .client s.2.next_client) :
    Registry (s.1, s.2.accepted c address port) := by
  obtain ⟨bm, srv⟩ := s
  have hnew : get_socket (bm, srv) (.client srv.next_client) = none := by
    rcases hg : get_socket (bm, srv) (.client srv.next_client) with _ | fd
    · rfl
    · exact absurd (h.next _ _ hg) (lt_irrefl _)
  have hnot : ∀ r, get_socket (bm, srv) r ≠ some c.fd := fun r hr => by
    rw [hfd r hr, hnew] at hr
    cases hr
  have hget := @get_socket_accepted (bm, srv) c address port
  refine h.register (r := .client srv.next_client) (fun r _ => hnot r) hget rfl rfl rfl
    (fun hr => ?_) (fun fd' k hk => ?_) fun k fd' hk => ?_
  · obtain ⟨fd', hg, -⟩ := h.bound _ hr
    rw [hnew] at hg
    cases hg
  · have hk' : (srv.tcp_clients.insert c.fd srv.next_client)[fd']? = some k := hk
    simp only [Std.TreeMap.getElem?_insert, Std.LawfulEqCmp.compare_eq_iff_eq] at hk'
    rw [hget]
    split_ifs at hk' with he
    · obtain rfl := Option.some.inj hk'
      rw [if_pos rfl, he]
    · have hold := h.clients fd' k hk'
      rw [if_neg fun h' => (h.next k fd' hold).ne (SocketRef.client.inj h'), hold]
  · rw [hget] at hk
    split_ifs at hk with he
    · exact SocketRef.client.inj he ▸ Nat.lt_succ_self _
    · exact Nat.lt_succ_of_lt (h.next k fd' hk)

theorem visit_registry {host : Host} {s s' : BusMgr × Server} (h : Registry s) {v : Visit}
    (hv : ∀ a, v ≠ .accept a) (hrun : (SelectLoop.visit host v).exec s = (.ok (), s')) :
    Registry s' := by
  obtain ⟨t, hsel, hcases⟩ := visit_closes hv hrun
  have ht := h.congr (sameRegistry_of_sockets (hsel ▸ on_select_same host hv s))
  -- closing a socket does not unregister it
  rcases hcases with rfl | ⟨n, d, -, hd, rfl⟩ | ⟨k, c, -, hc, rfl⟩
  · exact ht
  · have hset := t.1.set_setDriver n { d with connected := false }
    exact ht.congr (sameRegistry_set hd (by rfl) hset _)
  · exact ht.congr (sameRegistry_of_sockets ⟨fun _ => rfl, (SameClients.refl t.2).close hc⟩)

theorem flush_client_registry {s : BusMgr × Server} (h : Registry s) {fd k : ℕ} {c : TcpClient}
    (hk : s.2.tcp_clients[fd]? = some k) (hc : s.2.clients k = some c) :
    Registry (s.1, s.2.removed fd k c) := by
  have hg : get_socket s (.client k) = some c.socket := by rw [get_socket, hc, Option.map_some]
  have hget := @get_socket_removed s fd k c
  refine h.unregister hg (fun r hne => (hget r).trans (if_neg hne))
    (.inr ((hget _).trans (if_pos rfl))) rfl rfl rfl (fun m k' hm => ?_) rfl
  have hm' : (s.2.tcp_clients.erase fd)[m]? = some k' := hm
  simp only [Std.TreeMap.getElem?_erase, Std.LawfulEqCmp.compare_eq_iff_eq] at hm'
  split_ifs at hm' with hne
  have hold := h.clients m k' hm'
  have hk' : k' ≠ k := by
    rintro rfl
    exact hne (Option.some.inj ((h.clients fd k' hk).symm.trans hold))
  rw [hget, if_neg fun he => hk' (SocketRef.client.inj he), hold]

theorem registry_loop (host : Host) {C : LoopStep → BusMgr × Server → Prop}
    (hunheld : ∀ e s, C e s → e.Unheld s) : LoopRule host C Registry fun _ => True where
  accept h hC _ := accept_registry h (hunheld _ _ hC _ rfl)
  visit h _ hv _ hrun := visit_registry h hv hrun
  opened {s fd n d} h hC hd hcon hr hnot _ := by
    have hgiven : (LoopStep.reopen n (.opened fd)).given s = some (.driver n, fd) := by
      simp [LoopStep.given, hd, hcon, hr]
    have hset := s.1.set_setDriver n { d with socket := fd, connected := true }
    exact h.register (r := .driver n) (fun r hne hg => hne (hunheld _ _ hC _ hgiven r hg))
      (get_socket_set hset rfl rfl rfl) rfl rfl rfl (fun hr => absurd hr hnot)
      (fun fd' k hk => h.clients fd' k hk) fun k fd' hk => h.next k fd' hk
  failed h _ hd _ _ hset := h.congr (sameRegistry_set hd (by rfl) hset _)
  unregister {s n d} h hd _ := by
    have hg : get_socket s (.driver n) = some d.socket := by rw [get_socket, hd, Option.map_some]
    exact h.unregister hg (fun r _ => by cases r <;> rfl) (.inl hg) rfl rfl rfl
      (fun fd k hk => h.clients fd k hk) rfl
  remove h _ _ hnot := h.remove hnot
  flush_client h hk hc _ := flush_client_registry h hk hc
  stop _ _ _ := trivial

/-! ### The end of an `fd_set` -/

theorem Exn.For.ne_overrun {e : Exn} {r : SocketRef} (h : e.For r) : e ≠ .overrun := by
  rintro rfl
  exact h

/-- Nothing that the program does is a write behind the end. -/
def Fitting {σ α : Type} (p : Prog σ Exn α) : Prop :=
  Triple (fun _ => True) p (fun _ _ => True) fun e _ => e ≠ .overrun

namespace Fitting

variable {σ α β : Type}

theorem pure (a : α) : Fitting (Pure.pure a : Prog σ Exn α) := fun _ h => h

theorem modify (f : σ → σ) : Fitting (modify f : Prog σ Exn PUnit) := fun _ h => h

theorem throw {e : Exn} (h : e ≠ .overrun) : Fitting (MonadExcept.throw e : Prog σ Exn α) :=
  fun _ _ => h

theorem bind {p : Prog σ Exn α} {f : α → Prog σ Exn β} (hp : Fitting p) (hf : ∀ a, Fitting (f a)) :
    Fitting (p >>= f) := Triple.bind hp hf

theorem ite {c : Prop} [Decidable c] {p q : Prog σ Exn α} (hp : c → Fitting p) (hq : ¬ c → Fitting q) :
    Fitting (if c then p else q) := Triple.ite hp hq

theorem onSnd {p : Prog σ Exn α} (hp : Fitting p) : Fitting (Prog.onSnd p : Prog (β × σ) Exn α) :=
  Triple.onSnd fun _ => hp

theorem forEach {f : α → Prog σ Exn Unit} (l : List α) (h : ∀ a, Fitting (f a)) :
    Fitting (Prog.forEach l f) := Triple.forEach l fun a _ => h a

end Fitting

theorem register_fitting (r : SocketRef) {fd : ℕ} (h : fd < FD_SETSIZE) :
    Fitting (SocketMgr.register_socket r fd) :=
  .ite (fun _ => .throw (by simp)) fun _ => .ite (fun hbig => absurd h (Nat.not_lt.2 hbig)) fun _ =>
    .modify _

theorem unregister_fitting (r : SocketRef) (fd : ℕ) : Fitting (SocketMgr.unregister_socket r fd) :=
  .ite (fun _ => .pure ()) fun _ => .modify _

theorem client_fitting (k : ℕ) : Fitting (Server.client k) := by
  refine .bind (p := get) (fun _ h => h) fun s => ?_
  split
  · exact .pure _
  · exact .throw (by simp)

theorem driver_on_close_fitting (n : String) : Fitting (BusMgr.on_close n) := by
  refine .bind (p := getFst) (fun _ h => h) fun bm => ?_
  split
  · exact .throw (by simp)
  · exact .bind (.modify _) fun _ => .onSnd (.modify _)

theorem on_close_fitting : ∀ r : SocketRef, Fitting (SelectLoop.on_close r)
  | .server => .onSnd (.modify _)
  | .driver n => driver_on_close_fitting n
  | .client k => .onSnd (.bind (client_fitting k) fun _ => .modify _)

theorem flush_fitting (host : Host) : Fitting (SelectLoop.step host .flush) := by
  refine .bind ?_ fun _ => .onSnd ?_
  · refine .bind (p := getFst) (fun _ h => h) fun bm => .forEach _ fun it => ?_
    refine .ite (fun _ => ?_) fun _ => .pure _
    exact .bind (.onSnd (unregister_fitting _ _)) fun _ => .ite (fun _ => .modify _) fun _ => .pure _
  · refine .bind (p := get) (fun _ h => h) fun s => .forEach _ fun it => ?_
    refine .bind (client_fitting _) fun c => .ite (fun _ => ?_) fun _ => .pure _
    exact .bind (unregister_fitting _ _) fun _ => .modify _

/-- Nothing that a driver reads or a client sends is registered. -/
theorem on_select_fitting (host : Host) {v : Visit} (hv : ∀ a, v ≠ .accept a) :
    Fitting (SelectLoop.on_select host v) := by
  intro s _
  have hS := free_rule (X := (· ≠ .overrun)) fun e he => (he.for .server).ne_overrun
  have hkept : BusMgr.Kept (· ≠ .overrun) (fun _ _ => True) s.1 s :=
    ⟨fun _ => rfl, fun _ _ _ _ _ _ he => (Driver.exit_own he).ne_overrun, id, trivial⟩
  suffices hall : Triple (BusMgr.Kept (· ≠ .overrun) (fun _ _ => True) s.1)
      (SelectLoop.on_select host v) (fun _ => BusMgr.Kept (· ≠ .overrun) (fun _ _ => True) s.1)
      (BusMgr.Left (KeptBy (· ≠ .overrun) fun _ _ => True) s.1) from
    hall.conseq (fun _ h => h) (fun _ _ _ => trivial) (fun _ _ h => h.inv.2) s hkept
  rcases v with a | ⟨name, answer⟩ | ⟨k, inbound, uptime⟩
  · exact absurd rfl (hv a)
  · exact BusMgr.on_select_rule hS.bus Exn.For.ne_overrun name answer
  · refine (EventMgr.recv_msg_rule hS.client (fun _ => Exn.For.ne_overrun) host uptime inbound
      (B := fun _ => True) ?_).conseq (fun _ h => ⟨h, trivial⟩) (fun _ _ h => h) fun _ _ h => h
    exact fun _ _ _ _ _ t c frame id ht _ _ => EventMgr.send_frame_rule hS (fun h => h) (fun _ h => h)
      ht _ frame _ _ id

theorem accept_fitting (host : Host) {answer : Except Errno Accepted}
    (h : ∀ c, answer = .ok c → c.fd < FD_SETSIZE) :
    Fitting (SelectLoop.on_select host (.accept answer)) := by
  rcases answer with e | c
  · exact .throw (by simp)
  refine .onSnd (.bind (.modify _) fun _ => ?_)
  unfold Server.on_new_connection
  split
  · exact .throw (by simp)
  · exact .bind (p := get) (fun _ h => h) fun s =>
      .bind (.modify _) fun _ => register_fitting _ (h c rfl)

theorem visit_fitting (host : Host) {v : Visit} (h : ∀ c, v = .accept (.ok c) → c.fd < FD_SETSIZE) :
    Fitting (SelectLoop.visit host v) := by
  refine Triple.tryCatch (R := fun e _ => e ≠ .overrun) ?_ fun e => ?_
  · rcases v with a | ⟨name, answer⟩ | ⟨k, inbound, uptime⟩
    · exact accept_fitting host fun c hc => h c (by rw [hc])
    · exact on_select_fitting host (by simp)
    · exact on_select_fitting host (by simp)
  · split
    · exact (on_close_fitting v.socket).conseq (fun _ _ => trivial) (fun _ _ h => h) fun _ _ h => h
    · exact Triple.throw _ fun _ h => h

theorem reopen_fitting {n : String} {answer : OpenAnswer} {s : BusMgr × Server}
    (h : (LoopStep.reopen n answer).Fits s) :
    Triple (· = s) (BusMgr.reopen n answer) (fun _ _ => True) fun e _ => e ≠ .overrun := by
  refine Triple.bind (M := fun bm t => bm = s.1) (fun _ h => congrArg Prod.fst h) fun bm => ?_
  rintro t rfl
  refine (show Fitting _ from ?_) t trivial
  split
  · exact .throw (by simp)
  · rename_i d hd
    refine .ite (fun hc => ?_) fun _ => .pure _
    rcases answer with fd | leaked
    · have hgiven : (LoopStep.reopen n (.opened fd)).given s = some (.driver n, fd) := by
        simp [LoopStep.given, hd, hc.1, hc.2]
      exact .bind (.modify _) fun _ => .onSnd (.bind (.modify _) fun _ =>
        register_fitting _ (h _ hgiven))
    · exact .bind (.modify _) fun _ => .bind (.onSnd (.modify _)) fun _ =>
        .ite (fun _ => driver_on_close_fitting n) fun _ => .pure _

/-- With a number that has a place, a step writes nothing behind the end. -/
theorem step_fitting {host : Host} {e : LoopStep} {s s' : BusMgr × Server} {x : Exn} (h : e.Fits s)
    (hrun : (SelectLoop.step host e).exec s = (.error x, s')) : x ≠ .overrun := by
  rcases e with v | ⟨n, answer⟩ | _
  · refine Triple.error (show Fitting (SelectLoop.step host (.visit v)) from ?_) trivial hrun
    refine .bind (p := get) (fun _ h => h) fun t => .ite (fun _ => ?_) fun _ => .pure _
    refine visit_fitting host fun c hc => ?_
    subst hc
    exact h _ rfl
  · exact (reopen_fitting h).error rfl hrun
  · exact (flush_fitting host).error trivial hrun

/-! ### The start -/

open Config in
theorem start_registry (config : Config) : Registry config.start where
  distinct r r' fd h h' := by
    have h := (config.mem_sockets).2 h
    have h' := (config.mem_sockets).2 h'
    have hinj := List.inj_on_of_nodup_map (f := Prod.snd) (by rw [config.sockets_snd]; exact config.fds) h h' rfl
    exact (Prod.mk.inj hinj).1
  events fd := by
    have hev : fd ∈ config.start.2.event_socket_set ↔ ∃ r, (r, fd) ∈ config.sockets := by
      simp [start, serverMgr]
    have hset : ∀ r, r ∈ config.start.2.socket_set ↔ ∃ fd, (r, fd) ∈ config.sockets := by
      intro r
      simp [start, serverMgr]
    rw [hev]
    constructor
    · rintro ⟨r, hr⟩
      exact ⟨r, (hset r).2 ⟨fd, hr⟩, (config.mem_sockets).1 hr⟩
    · rintro ⟨r, -, hr⟩
      exact ⟨r, (config.mem_sockets).2 hr⟩
  bound r hr := by
    obtain ⟨fd, hfd⟩ : ∃ fd, (r, fd) ∈ config.sockets := by
      simpa [start, serverMgr] using hr
    refine ⟨fd, (config.mem_sockets).1 hfd, ?_⟩
    exact List.le_max_of_le' 0 (List.mem_map_of_mem (f := Prod.snd) hfd) le_rfl
  clients fd k h := by
    simp [start, serverMgr] at h
  next k fd h := by
    simp [get_socket, start, serverMgr] at h


/-- In every run in which the kernel gives no number that another socket object still has, and none
without a place in an `fd_set`: nothing is written behind the end of the events, and after every pass
they are those of the registered sockets. -/
theorem select_loop_registered (host : Host) (config : Config) (ps : List Pass)
    (h : Meets host (fun e s => e.Unheld s ∧ e.Fits s) ps config.start) {r : Except Exn Unit}
    {s : BusMgr × Server} (hrun : (select_loop host ps).exec config.start = (r, s)) :
    r ≠ .error .overrun ∧ (r = .ok () → Registered s) := by
  constructor
  · rintro rfl
    obtain ⟨e, t, hmeets, hstep⟩ := h.exit hrun
    exact step_fitting hmeets.2 hstep rfl
  · rintro rfl
    have hreg := ((registry_loop host fun _ _ hC => hC.1).select_loop ps).ok
      ⟨⟨start_registry config, config.start_nonzero, config.start_flushed⟩, h⟩ hrun
    exact ⟨hreg.inv.events, hreg.inv.bound⟩

/-- A client connects on a number of its own. -/
theorem select_loop_registered_connect :
    Registered ((select_loop sampleHost [.ready [connect 7] (by decide)]).exec sampleConfig.start).2 := by
  refine (select_loop_registered sampleHost sampleConfig [.ready [connect 7] (by decide)] ?_ rfl).2 rfl
  refine .cons (.cons ⟨?_, by decide +kernel⟩ (.cons ⟨?_, by decide +kernel⟩ trivial)) trivial
  · intro given hg r hr
    obtain rfl : _ = given := Option.some.inj hg
    have hmem := sampleConfig.mem_sockets.2 hr
    simp [Config.sockets, sampleConfig] at hmem
  · exact fun _ h => by cases h

/-- The number of a driver that was unplugged goes to a client: the next `flush` takes it out of
the events again. -/
theorem not_select_loop_registered : ¬ ∀ (host : Host) (config : Config) (ps : List Pass)
    (s : BusMgr × Server), Meets host LoopStep.Possible ps config.start →
      (select_loop host ps).exec config.start = (.ok (), s) → Registered s := by
  intro h
  have hmeet : Meets sampleHost LoopStep.Possible [.ready [unplug] (by decide), .ready [connect 5] (by decide)]
      sampleConfig.start := by
    refine .cons (.cons ?_ (.cons ?_ trivial)) (.cons (.cons ?_ (.cons ?_ trivial)) trivial) <;>
      decide +kernel
  have hev := (h sampleHost sampleConfig _ _ hmeet rfl).1 5
  have hnot : 5 ∉ ((select_loop sampleHost [.ready [unplug] (by decide), .ready [connect 5] (by decide)]).exec
      sampleConfig.start).2.2.event_socket_set := by decide +kernel
  exact hnot (hev.2 ⟨.client 0, by decide +kernel, by decide +kernel⟩)

end H9
