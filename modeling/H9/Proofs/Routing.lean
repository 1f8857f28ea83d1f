import H9.Proofs.Copies
import H9.Proofs.FrameText
import H9.Proofs.SendOrder

/-!
# Where a client's frame goes

`EventMgr::process_msg` gives the frame of a `SEND_FRAME` to all drivers, one after another, and
does not look at the `endpoint` of the message. A driver without a descriptor is counted but does
not queue the frame, and the first driver that does not take it ends the loop: one whose write is
refused, or one that is done with it at once and cannot tell the clients. If the first of several is
done with it at once and can, it deletes the frame, and the next one is counted in what is no more.
-/

namespace H9

open Prog

/-! ### Telling the clients again and again -/

/-- Of its next `n` writes the first that fails, if there is one, says that the peer is gone. -/
def TcpClient.Lasts : ℕ → TcpClient → Prop
  | 0, _ => True
  | n + 1, c => c.FailsAsClosed ∧ (c.answer = .count → Lasts n c.stamped)

namespace TcpClient

theorem Lasts.first {n : ℕ} {c : TcpClient} (h : c.Lasts (n + 1)) : c.Lasts 1 :=
  ⟨h.1, fun _ => trivial⟩

theorem lasts_congr : ∀ (n : ℕ) {c c' : TcpClient}, c'.h9socket = c.h9socket →
    c'.sends = c.sends → (c'.Lasts n ↔ c.Lasts n)
  | 0, _, _, _, _ => Iff.rfl
  | n + 1, c, c', hh, hs => by
    have ha : c'.answer = c.answer := by rw [answer, answer, hh, hs]
    have hn : c'.stamped.Lasts n ↔ c.stamped.Lasts n := lasts_congr n hh (congrArg List.tail hs)
    rw [Lasts, Lasts, FailsAsClosed, FailsAsClosed, ha, hn]

/-- A client that was closed fails as closed for good. -/
theorem lasts_closed (n : ℕ) {c : TcpClient} (h : c.h9socket = none) : c.Lasts n := by
  have ha : c.answer = .error .EBADF := by simp [answer, h]
  cases n with
  | zero => trivial
  | succ n =>
    refine ⟨fun e he => ?_, fun hcount => ?_⟩
    · rw [ha] at he
      exact WriteAnswer.error.inj he ▸ .inr (.inr rfl)
    · rw [ha] at hcount
      cases hcount

theorem lasts_told (n : ℕ) {c : TcpClient} (m : GenericMsg) (h : c.FailsAsClosed) :
    (c.told m).Lasts n ↔ c.Lasts (n + 1) := by
  unfold told
  split_ifs with ha
  · have hsame : Lasts n { c.stamped with sent := c.sent ++ [m.set_id c.stamped.next_msg_id] } ↔
        c.stamped.Lasts n := lasts_congr n rfl rfl
    exact hsame.trans ⟨fun hl => ⟨h, fun _ => hl⟩, fun hl => hl.2 ha⟩
  · exact iff_of_true (lasts_closed n rfl) ⟨h, fun hc => absurd hc ha⟩

end TcpClient

namespace Server

/-- The clients in the map are there, each under its own descriptor. -/
def Seated (s : Server) : Prop :=
  ∀ fd k, s.tcp_clients[fd]? = some k → ∃ c, s.clients k = some c ∧ c.socket = fd

/-- The next `n` times that the client at `orgin_client_id` and the subscribers are told of a
frame, no write fails but as closed. -/
def Hears (s : Server) (orgin_client_id n : ℕ) : Prop :=
  ∀ fd k c, s.tcp_clients[fd]? = some k → s.clients k = some c →
    fd = orgin_client_id ∨ c.active_subscription = true → c.Lasts n

variable {msg : GenericMsg} {orgin_client_id : ℕ} {orgin_msg_id : UInt64} {busframe : ℕ}

theorem Hears.first {s : Server} {n : ℕ} (h : s.Hears orgin_client_id (n + 1)) :
    s.Hears orgin_client_id 1 := fun fd k c hk hc hr => (h fd k c hk hc hr).first

theorem Seated.nodup {s : Server} (h : s.Seated) : (s.tcp_clients.toList.map Prod.snd).Nodup := by
  refine List.pairwise_map.2 (s.tcp_clients.distinct_keys_toList.imp_of_mem
    fun {it it'} hit hit' hne heq => hne ?_)
  obtain ⟨c, hc, hfd⟩ := h _ _ (Std.TreeMap.mem_toList_iff_getElem?_eq_some.1 hit)
  obtain ⟨c', hc', hfd'⟩ := h _ _ (Std.TreeMap.mem_toList_iff_getElem?_eq_some.1 hit')
  rw [heq] at hc
  obtain rfl := Option.some.inj (hc.symm.trans hc')
  rw [← hfd, ← hfd']
  exact Std.ReflCmp.compare_self

/-- A write that fails otherwise is no reason to close the client, and ends the loop. -/
theorem exec_visit_error {s : Server} {it : ℕ × ℕ} {c : TcpClient} (hc : s.clients it.2 = some c)
    (hr : it.1 = orgin_client_id ∨ c.active_subscription = true) (hfail : ¬ c.FailsAsClosed) :
    ∃ e s', (visit msg orgin_client_id orgin_msg_id busframe it).exec s = (.error e, s') := by
  obtain ⟨e, ha, hgone⟩ : ∃ e, c.answer = .error e ∧ ¬ e.PeerGone := by
    simpa [TcpClient.FailsAsClosed] using hfail
  have hsend : ∀ m, (send it.2 m).exec s = (.error (.system_error e), s.setClient it.2 c.stamped) := by
    intro m
    have hne : ¬ (e = .ECONNRESET ∨ e = .EPIPE ∨ e = .EBADF) := hgone
    unfold send
    simp only [exec_bind, client_some hc, exec_modify, ha, if_neg hne, exec_throw]
  refine ⟨.system_error e, s.setClient it.2 c.stamped, ?_⟩
  unfold visit closing
  simp only [exec_bind, client_some hc, exec_ite, exec_tryCatch, hsend, exec_throw]
  rcases hr with hfd | hsub
  · rw [if_pos hfd]
  · rw [if_pos hsub, ite_self]

/-- The clients of the entries `l` are there, each in one entry. -/
structure There (l : List (ℕ × ℕ)) (s : Server) : Prop where
  nodup : (l.map Prod.snd).Nodup
  client : ∀ it ∈ l, ∃ c, s.clients it.2 = some c

/-- Those that are told fail as closed. -/
def AllHear (orgin_client_id : ℕ) (l : List (ℕ × ℕ)) (s : Server) : Prop :=
  ∀ it ∈ l, ∀ c, s.clients it.2 = some c →
    it.1 = orgin_client_id ∨ c.active_subscription = true → c.FailsAsClosed

/-- A turn of the loop leaves the clients of the entries to come. -/
theorem visited_rest {it : ℕ × ℕ} {l : List (ℕ × ℕ)} {s : Server} (h : There (it :: l) s)
    {it' : ℕ × ℕ} (hit' : it' ∈ l) :
    (visited msg orgin_client_id orgin_msg_id busframe s it).clients it'.2 = s.clients it'.2 := by
  refine visited_clients_of_ne s it fun heq => ?_
  exact (List.nodup_cons.1 h.nodup).1 (heq ▸ List.mem_map_of_mem hit')

theorem There.tail {it : ℕ × ℕ} {l : List (ℕ × ℕ)} {s : Server} (h : There (it :: l) s) :
    There l (visited msg orgin_client_id orgin_msg_id busframe s it) where
  nodup := (List.nodup_cons.1 h.nodup).2
  client it' hit' := by
    rw [visited_rest h hit']
    exact h.client it' (List.mem_cons_of_mem it hit')

theorem allHear_tail {it : ℕ × ℕ} {l : List (ℕ × ℕ)} {s : Server} (h : There (it :: l) s) :
    AllHear orgin_client_id l (visited msg orgin_client_id orgin_msg_id busframe s it) ↔
      AllHear orgin_client_id l s :=
  forall₂_congr fun _ hit' => by rw [visited_rest h hit']

theorem exec_visits {s : Server} {l : List (ℕ × ℕ)} (h : There l s)
    (hall : AllHear orgin_client_id l s) :
    (forEach l (visit msg orgin_client_id orgin_msg_id busframe)).exec s =
      (.ok (), l.foldl (visited msg orgin_client_id orgin_msg_id busframe) s) := by
  refine exec_forEach_foldl (P := fun l s => There l s ∧ AllHear orgin_client_id l s)
    (fun it l s h => ?_) _ _ ⟨h, hall⟩
  obtain ⟨hthere, hall⟩ := h
  obtain ⟨c, hc⟩ := hthere.client it List.mem_cons_self
  refine ⟨exec_visit hc (hall it List.mem_cons_self c hc), hthere.tail, ?_⟩
  exact (allHear_tail hthere).2 fun it' hit' => hall it' (List.mem_cons_of_mem it hit')

theorem exec_visits_error : ∀ {l : List (ℕ × ℕ)} {s : Server}, There l s →
    ¬ AllHear orgin_client_id l s →
      ∃ e s', (forEach l (visit msg orgin_client_id orgin_msg_id busframe)).exec s = (.error e, s')
  | [], _, _, h => absurd (fun it hit => absurd hit List.not_mem_nil) h
  | it :: l, s, hthere, h => by
    obtain ⟨c, hc⟩ := hthere.client it List.mem_cons_self
    rw [forEach, exec_bind]
    by_cases hfail : it.1 = orgin_client_id ∨ c.active_subscription = true → c.FailsAsClosed
    · have hrest : ¬ AllHear orgin_client_id l
          (visited msg orgin_client_id orgin_msg_id busframe s it) := by
        refine fun hall => h fun it' hit' c' hc' => ?_
        rcases List.mem_cons.1 hit' with rfl | hit'
        · exact Option.some.inj (hc.symm.trans hc') ▸ hfail
        · exact (allHear_tail hthere).1 hall it' hit' c' hc'
      obtain ⟨e, s', he⟩ := exec_visits_error hthere.tail hrest
      rw [exec_visit hc hfail]
      exact ⟨e, s', he⟩
    · obtain ⟨hr, hnot⟩ := Classical.not_imp.1 hfail
      obtain ⟨e, s', he⟩ : ∃ e s', (visit msg orgin_client_id orgin_msg_id busframe it).exec s =
        (.error e, s') := exec_visit_error hc hr hnot
      rw [he]
      exact ⟨e, s', rfl⟩

theorem Seated.there {s : Server} (h : s.Seated) : There s.tcp_clients.toList s where
  nodup := h.nodup
  client it hit := by
    obtain ⟨c, hc, -⟩ := h _ _ (Std.TreeMap.mem_toList_iff_getElem?_eq_some.1 hit)
    exact ⟨c, hc⟩

theorem hears_one {s : Server} :
    s.Hears orgin_client_id 1 ↔ AllHear orgin_client_id s.tcp_clients.toList s := by
  refine ⟨fun h it hit c hc hr => ?_, fun h fd k c hk hc hr => ⟨?_, fun _ => trivial⟩⟩
  · exact (h it.1 it.2 c (Std.TreeMap.mem_toList_iff_getElem?_eq_some.1 hit) hc hr).1
  · exact h (fd, k) (Std.TreeMap.mem_toList_iff_getElem?_eq_some.2 hk) c hc hr

/-- The state after all clients were told. -/
def allTold (msg : GenericMsg) (orgin_client_id : ℕ) (orgin_msg_id : UInt64) (busframe : ℕ)
    (s : Server) : Server :=
  s.tcp_clients.toList.foldl (visited msg orgin_client_id orgin_msg_id busframe) s

theorem allTold_tcp_clients (s : Server) :
    (allTold msg orgin_client_id orgin_msg_id busframe s).tcp_clients = s.tcp_clients :=
  foldl_visited_tcp_clients _ s

theorem allTold_client {s : Server} (h : s.Seated) {fd k : ℕ} {c : TcpClient}
    (hk : s.tcp_clients[fd]? = some k) (hc : s.clients k = some c) :
    (allTold msg orgin_client_id orgin_msg_id busframe s).clients k =
      some (after msg orgin_client_id orgin_msg_id fd c) :=
  foldl_visited_of_mem h.nodup (fd, k) (Std.TreeMap.mem_toList_iff_getElem?_eq_some.2 hk) c hc

theorem exec_tell {s : Server} (h : s.Seated) (hh : s.Hears orgin_client_id 1) :
    (send_msg_to_subscriber msg orgin_client_id orgin_msg_id busframe).exec s =
      (.ok (), allTold msg orgin_client_id orgin_msg_id busframe s) := by
  unfold send_msg_to_subscriber
  rw [exec_bind, exec_get]
  exact exec_visits h.there (hears_one.1 hh)

theorem exec_tell_error {s : Server} (h : s.Seated) (hh : ¬ s.Hears orgin_client_id 1) :
    ∃ e s', (send_msg_to_subscriber msg orgin_client_id orgin_msg_id busframe).exec s =
      (.error e, s') := by
  unfold send_msg_to_subscriber
  rw [exec_bind, exec_get]
  exact exec_visits_error h.there fun hall => hh (hears_one.2 hall)

theorem tell_ok_iff {s : Server} (h : s.Seated) :
    ((send_msg_to_subscriber msg orgin_client_id orgin_msg_id busframe).exec s).1 = .ok () ↔
      s.Hears orgin_client_id 1 := by
  refine ⟨fun hok => by_contra fun hh => ?_, fun hh => by rw [exec_tell h hh]⟩
  obtain ⟨e, s', he⟩ : ∃ e s', (send_msg_to_subscriber msg orgin_client_id orgin_msg_id busframe).exec s =
    (.error e, s') := exec_tell_error h hh
  rw [he] at hok
  cases hok

theorem after_socket (fd : ℕ) (c : TcpClient) :
    (after msg orgin_client_id orgin_msg_id fd c).socket = c.socket := by
  unfold after TcpClient.told
  split
  · rfl
  · split_ifs <;> rfl

theorem after_subscription (fd : ℕ) (c : TcpClient) :
    (after msg orgin_client_id orgin_msg_id fd c).active_subscription = c.active_subscription := by
  unfold after TcpClient.told
  split
  · rfl
  · split_ifs <;> rfl

theorem Seated.allTold {s : Server} (h : s.Seated) :
    (allTold msg orgin_client_id orgin_msg_id busframe s).Seated := by
  intro fd k hk
  rw [allTold_tcp_clients] at hk
  obtain ⟨c, hc, hfd⟩ := h fd k hk
  exact ⟨_, allTold_client h hk hc, (after_socket fd c).trans hfd⟩

/-- Each time the clients are told uses up one of their answers. -/
theorem hears_allTold {s : Server} (h : s.Seated) (hh : s.Hears orgin_client_id 1) (n : ℕ) :
    (allTold msg orgin_client_id orgin_msg_id busframe s).Hears orgin_client_id n ↔
      s.Hears orgin_client_id (n + 1) := by
  have hlasts : ∀ {fd k c}, s.tcp_clients[fd]? = some k → s.clients k = some c →
      fd = orgin_client_id ∨ c.active_subscription = true →
        ((after msg orgin_client_id orgin_msg_id fd c).Lasts n ↔ c.Lasts (n + 1)) := by
    intro fd k c hk hc hr
    have hcopy : (copyFor msg orgin_client_id orgin_msg_id fd c).isSome := by
      unfold copyFor
      rcases hr with hfd | hsub
      · simp [hfd]
      · split_ifs <;> rfl
    obtain ⟨m, hm⟩ := Option.isSome_iff_exists.1 hcopy
    rw [after, hm]
    exact TcpClient.lasts_told n m (hh fd k c hk hc hr).1
  refine ⟨fun hn fd k c hk hc hr => ?_, fun hn fd k c' hk hc' hr => ?_⟩
  · refine (hlasts hk hc hr).1 (hn fd k _ (by rwa [allTold_tcp_clients]) (allTold_client h hk hc) ?_)
    rwa [after_subscription]
  · rw [allTold_tcp_clients] at hk
    obtain ⟨c, hc, -⟩ := h fd k hk
    rw [allTold_client h hk hc] at hc'
    obtain rfl := Option.some.inj hc'
    rw [after_subscription] at hr
    exact (hlasts hk hc hr).2 (hn fd k c hk hc hr)

end Server

/-! ### One driver -/

namespace Driver

variable {S : Type} (cb : Callbacks S)

/-- The frames that came into the queue so far. -/
def taken (d : Driver) : List BusFrame := SlcanRun.reported d.trace ++ d.send_queue

/-- How the next write ends, if not well. -/
def refusal (d : Driver) : Option Exn := d.writes.head?.bind d.answerExit

/-- The driver writes a frame at once, and its write is refused. -/
def Refused (d : Driver) : Prop := d.socket ≠ 0 ∧ d.send_queue = [] ∧ d.refusal.isSome

instance (d : Driver) : Decidable d.Refused := inferInstanceAs (Decidable (_ ∧ _))

/-- The driver is done with a frame at once, unless its write is refused, and the clients are
told. -/
def Tells (d : Driver) : Prop := d.socket ≠ 0 ∧ d.send_queue = [] ∧ d.kind ≠ .slcan

instance (d : Driver) : Decidable d.Tells := inferInstanceAs (Decidable (_ ∧ _))

/-- `d'` is `d` after it was given `b`, which it queues if it has a descriptor. -/
def Took (b : BusFrame) (d d' : Driver) : Prop :=
  d'.taken.Perm (if d.socket = 0 then d.taken else b :: d.taken)

theorem took_of_ahead {d d' : Driver} {b : BusFrame} (hs : d.socket ≠ 0)
    (h : Ahead (d.queued b) d') : Took b d d' := by
  rw [Took, if_neg hs]
  have hout : d'.outgoing.Perm (d.outgoing ++ [b]) := by
    rw [h.outgoing]
    exact outgoing_queued_perm d b
  refine (outgoing_perm d').symm.trans (hout.trans ((List.perm_append_singleton b _).trans ?_))
  exact (outgoing_perm d).cons b

theorem exec_write (d : Driver) (b : BusFrame) (s : S) : ∃ d', d'.send_queue = d.send_queue ∧
    d'.kind = d.kind ∧ (write b).exec (d, s) =
      (match d.refusal with | none => .ok () | some e => .error e, d', s) := by
  unfold write refusal answerExit
  rcases hk : d.kind with _ | _ | _ | _ <;> rcases hw : d.writes with _ | ⟨_ | _ | x, as⟩
  case slcan.cons.error | socketcan.cons.error =>
    by_cases hx : x = Errno.ENXIO <;> simp [hk, hw, hx]
  all_goals simp [hk, hw, wroteTo]

/-- How `Driver::send_frame` ends: a write that is refused, or the callback of a driver that is done
with the frame. -/
theorem exec_send_frame (d : Driver) (b : BusFrame) (s : S) : ∃ d', Took b d d' ∧
    (if d.Refused then ∃ e, (send_frame cb b).exec (d, s) = (.error e, d', s)
    else if d.Tells then (send_frame cb b).exec (d, s) =
      (((cb.send_frame b).exec s).1, d', ((cb.send_frame b).exec s).2)
    else (send_frame cb b).exec (d, s) = (.ok (), d', s)) := by
  refine ⟨((send_frame cb b).exec (d, s)).2.1, ?_, ?_⟩
  · by_cases hs : d.socket = 0
    · rw [send_frame_closed cb hs, Took, if_pos hs]
    · exact took_of_ahead hs (ahead_send_frame cb hs b s)
  by_cases hs : d.socket = 0
  · have hsend : (send_frame cb b).exec (d, s) = (.ok (), d, s) := by simp [send_frame, hs]
    simp [Refused, Tells, hs, hsend]
  by_cases hq : d.send_queue = []
  · obtain ⟨d', hq', hk', hwrite⟩ := exec_write (d.queued b) b s
    rw [queued_of_nil hq] at hq'
    have hr : (d.queued b).refusal = d.refusal := rfl
    have hsend : (send_frame cb b).exec (d, s) = (send_data cb b).exec (d.queued b, s) := by
      simp [send_frame, hs, hq, queued_of_nil hq]
    rw [hr] at hwrite
    rw [hsend]
    unfold send_data
    rw [exec_bind, hwrite]
    rcases hre : d.refusal with _ | e
    · rw [if_neg (by simp [Refused, hre])]
      by_cases hk : d.kind = .slcan
      · rw [if_neg (by simp [Tells, hk])]
        simp [hk', hk]
      · rw [if_pos ⟨hs, hq, hk⟩]
        simp [hk', hk, hq', exec_on_frame_send_last cb hq']
    · rw [if_pos ⟨hs, hq, by simp [hre]⟩]
      exact ⟨e, rfl⟩
  · have hsend : (send_frame cb b).exec (d, s) = (.ok (), d.queued b, s) := by
      simp [send_frame, hs, hq]
    simp [Refused, Tells, hq, hsend]

end Driver

/-! ### What happens to the frame -/

namespace FrameHeap

variable {a : ℕ} {T T' : List (ℕ × Touch)}

theorem sound_of_undeleted (h : ∀ e ∈ T, e.1 = a) (hd : (a, Touch.deleted) ∉ T) : Sound T := by
  refine List.pairwise_of_forall_mem_list fun e he e' _ hdel => absurd ?_ hd
  rw [← h e he, ← hdel]
  exact he

/-- Of one object: what was deleted is not used again. -/
theorem sound_append (h : ∀ e ∈ T, e.1 = a) (h' : ∀ e ∈ T', e.1 = a) (hne : T' ≠ []) :
    Sound (T ++ T') ↔ (a, Touch.deleted) ∉ T ∧ Sound T' := by
  obtain ⟨e', he'⟩ := List.exists_mem_of_ne_nil T' hne
  rw [Sound, List.pairwise_append]
  constructor
  · rintro ⟨-, hT', hacross⟩
    exact ⟨fun hd => hacross _ hd e' he' rfl (h' e' he'), hT'⟩
  · rintro ⟨hd, hT'⟩
    refine ⟨sound_of_undeleted h hd, hT', fun e he _ _ hdel => absurd ?_ hd⟩
    rw [← h e he, ← hdel]
    exact he

/-- One driver, which is done with the frame at `a` at once if it `tells` the clients, did `T` to it,
and deleted it if it was the `last`. -/
structure Touched (a : ℕ) (T : List (ℕ × Touch)) (tells last : Prop) (h h' : FrameHeap) : Prop where
  log : h'.log = h.log ++ T
  own : ∀ e ∈ T, e.1 = a
  some : T ≠ []
  sound : Sound T
  deleted : (a, Touch.deleted) ∈ T ↔ last
  completed : (h'.counters a).completed_endpoint_count ≤
    (h.counters a).completed_endpoint_count + 1
  kept : ¬ tells → (h'.counters a).completed_endpoint_count =
    (h.counters a).completed_endpoint_count

end FrameHeap

/-! ### The loop over the drivers -/

namespace BusMgr

/-- The drivers `L` got the frame `b`, and it has that many more endpoints. -/
structure GivenTo (b : BusFrame) (L : List String) (bm bm' : BusMgr) : Prop where
  took : ∀ n ∈ L, ∀ d, bm.dev[n]? = some d → ∃ d', bm'.dev[n]? = some d' ∧ d.Took b d'
  others : ∀ n, n ∉ L → bm'.dev[n]? = bm.dev[n]?
  total : (bm'.heap.counters b.addr).total_endpoint_count =
    (bm.heap.counters b.addr).total_endpoint_count + L.length
  next : bm'.heap.next = bm.heap.next

theorem GivenTo.nil (b : BusFrame) (bm : BusMgr) : GivenTo b [] bm bm where
  took _ hn := absurd hn List.not_mem_nil
  others _ _ := rfl
  total := rfl
  next := rfl

theorem GivenTo.cons {b : BusFrame} {n : String} {L : List String} {bm bm' bm'' : BusMgr}
    (h : GivenTo b [n] bm bm') (h' : GivenTo b L bm' bm'') (hn : n ∉ L) :
    GivenTo b (n :: L) bm bm'' where
  took m hm d hd := by
    rcases List.mem_cons.1 hm with rfl | hm
    · obtain ⟨d', hd', ht⟩ := h.took m (List.mem_singleton_self m) d hd
      exact ⟨d', (h'.others m hn).trans hd', ht⟩
    · have hne : m ∉ [n] := fun hmn => hn (List.mem_singleton.1 hmn ▸ hm)
      exact h'.took m hm d ((h.others m hne).trans hd)
  others m hm := by
    obtain ⟨hmn, hmL⟩ := not_or.1 (mt List.mem_cons.2 hm)
    exact (h'.others m hmL).trans (h.others m fun hmn' => hmn (List.mem_singleton.1 hmn'))
  total := by
    rw [h'.total, h.total, List.length_singleton, List.length_cons, Nat.add_assoc,
      Nat.add_comm 1]
  next := h'.next.trans h.next

/-- The drivers to come are as they were. -/
theorem GivenTo.rest {b : BusFrame} {n : String} {l : List String} {bm bm' : BusMgr}
    (h : GivenTo b [n] bm bm') (hn : n ∉ l) {m : String} (hm : m ∈ l) : bm'.dev[m]? = bm.dev[m]? :=
  h.others m fun hmn => hn (List.mem_singleton.1 hmn ▸ hm)

/-- No write to those drivers is refused, and the clients can be told by those that are done with
the frame at once. -/
def Smooth (bm : BusMgr) (l : List String) (orgin_client_id : ℕ) (s : Server) : Prop :=
  (∀ n ∈ l, ∀ d, bm.dev[n]? = some d → ¬ d.Refused) ∧
    s.Hears orgin_client_id (l.countP fun n => bm.dev[n]?.any (·.Tells))

theorem smooth_nil (bm : BusMgr) (o : ℕ) (s : Server) : bm.Smooth [] o s :=
  ⟨fun _ h => absurd h List.not_mem_nil, fun _ _ _ _ _ _ => trivial⟩

theorem smooth_congr {bm bm' : BusMgr} {l : List String} (h : ∀ n ∈ l, bm'.dev[n]? = bm.dev[n]?)
    (o : ℕ) (s : Server) : bm'.Smooth l o s ↔ bm.Smooth l o s := by
  unfold Smooth
  have hcount : (l.countP fun n => bm'.dev[n]?.any (·.Tells)) =
      l.countP fun n => bm.dev[n]?.any (·.Tells) :=
    List.countP_congr fun n hn => by rw [h n hn]
  rw [hcount]
  exact and_congr_left fun _ => forall₂_congr fun n hn => by rw [h n hn]

section Handler

variable (n : String) (b : BusFrame)

/-- The callback counts the frame as completed around the telling of the clients, and deletes it
after the last one. -/
theorem exec_on_send_frame (h : FrameHeap) (s : Server) : ∃ h' T,
    (h'.counters b.addr).total_endpoint_count = (h.counters b.addr).total_endpoint_count ∧
      h'.next = h.next ∧ h.Touched b.addr T True
        (((EventMgr.handler.process_sent_frame n b).exec s).1 = .ok () ∧
          (h.counters b.addr).completed_endpoint_count + 1 =
            (h.counters b.addr).total_endpoint_count) h' ∧
      (on_send_frame EventMgr.handler n b).exec (h, s) =
        (((EventMgr.handler.process_sent_frame n b).exec s).1, h',
          ((EventMgr.handler.process_sent_frame n b).exec s).2) := by
  set h₁ := h.int_completed_endpoint_count b.addr n with hh₁
  have hlog : h₁.log = h.log ++ [(b.addr, .completed n)] := rfl
  have htotal : (h₁.counters b.addr).total_endpoint_count =
      (h.counters b.addr).total_endpoint_count := by
    simp [hh₁, FrameHeap.int_completed_endpoint_count]
  have hcompleted : (h₁.counters b.addr).completed_endpoint_count =
      (h.counters b.addr).completed_endpoint_count + 1 := by
    simp [hh₁, FrameHeap.int_completed_endpoint_count]
  have hstays : ∀ {last : Prop}, ¬ last →
      h.Touched b.addr [(b.addr, .completed n)] True last h₁ := fun {last} hnot => by
    refine ⟨hlog, by simp, by simp, by simp [FrameHeap.Sound], ?_, hcompleted.le, fun h => absurd trivial h⟩
    simp [hnot]
  unfold on_send_frame
  simp only [exec_bind, exec_modifyFst, exec_getFst, exec_onSnd, exec_ite, exec_pure, ← hh₁]
  rcases (EventMgr.handler.process_sent_frame n b).exec s with ⟨_ | _, s'⟩
  · exact ⟨h₁, _, htotal, rfl, hstays (by simp), rfl⟩
  · dsimp only
    rw [htotal, hcompleted]
    split_ifs with hlast
    · refine ⟨h₁.touch b.addr .deleted, [(b.addr, .completed n), (b.addr, .deleted)], htotal, rfl, ?_, rfl⟩
      refine ⟨?_, by simp, by simp, by simp [FrameHeap.Sound], ?_, hcompleted.le,
        fun h => absurd trivial h⟩
      · simp [FrameHeap.touch, hlog]
      · simp [hlast]
    · exact ⟨h₁, _, htotal, rfl, hstays fun h => hlast h.2, rfl⟩

theorem given_insert {bm : BusMgr} {d d' : Driver} (hd : bm.dev[n]? = some d) (ht : d.Took b d')
    {h' : FrameHeap} (htotal : (h'.counters b.addr).total_endpoint_count =
      (bm.heap.counters b.addr).total_endpoint_count + 1) (hnext : h'.next = bm.heap.next) :
    GivenTo b [n] bm ⟨bm.dev.insert n d', h'⟩ where
  took m hm c hc := by
    obtain rfl := List.mem_singleton.1 hm
    obtain rfl := Option.some.inj (hd.symm.trans hc)
    exact ⟨d', by simp, ht⟩
  others m hm := by
    have hne : n ≠ m := fun hnm => hm (List.mem_singleton.2 hnm.symm)
    simp [Std.TreeMap.getElem?_insert, hne]
  total := htotal
  next := hnext

/-- A turn in which the driver is not done with the frame. -/
theorem touched_given (h : FrameHeap) {tells last : Prop} (hlast : ¬ last) :
    h.Touched b.addr [(b.addr, .counted n), (b.addr, .queued n)] tells last
      ((h.inc_total_endpoint_count b.addr n).touch b.addr (.queued n)) where
  log := by simp [FrameHeap.inc_total_endpoint_count, FrameHeap.touch]
  own := by simp
  some := by simp
  sound := by simp [FrameHeap.Sound]
  deleted := by simp [hlast]
  completed := by simp [FrameHeap.inc_total_endpoint_count, FrameHeap.touch]
  kept _ := by simp [FrameHeap.inc_total_endpoint_count, FrameHeap.touch]

/-- A turn in which it is, which goes on after `h₁` as the callback does. -/
theorem touched_told {h h₁ h' : FrameHeap} {T : List (ℕ × Touch)} {tells last last' : Prop}
    (hh : h₁ = (h.inc_total_endpoint_count b.addr n).touch b.addr (.queued n))
    (ht : h₁.Touched b.addr T True last h') (htells : tells) (hlast : last ↔ last') :
    h.Touched b.addr ([(b.addr, .counted n), (b.addr, .queued n)] ++ T) tells last' h' := by
  have hgiven : h.Touched b.addr _ True False _ := touched_given n b h id
  rw [← hh] at hgiven
  have hsame : (h₁.counters b.addr).completed_endpoint_count =
      (h.counters b.addr).completed_endpoint_count := by
    simp [hh, FrameHeap.inc_total_endpoint_count, FrameHeap.touch]
  refine ⟨?_, ?_, by simp, ?_, ?_, hsame ▸ ht.completed, fun h => absurd htells h⟩
  · rw [ht.log, hgiven.log, List.append_assoc]
  · exact fun e he => (List.mem_append.1 he).elim (hgiven.own e) (ht.own e)
  · exact (FrameHeap.sound_append hgiven.own ht.own ht.some).2 ⟨by simp, ht.sound⟩
  · rw [← hlast, ← ht.deleted]
    simp

/-- One turn: the driver is given the frame, and the turn returns just when it takes it smoothly. -/
theorem exec_give {bm : BusMgr} {d : Driver} (hd : bm.dev[n]? = some d) {s : Server}
    (hs : s.Seated) : ∃ r bm' s' T, (give EventMgr.handler b n).exec (bm, s) = (r, bm', s') ∧
      GivenTo b [n] bm bm' ∧
      bm.heap.Touched b.addr T d.Tells (d.Tells ∧ bm.Smooth [n] b.orgin_client_id s ∧
        (bm.heap.counters b.addr).completed_endpoint_count =
          (bm.heap.counters b.addr).total_endpoint_count) bm'.heap ∧
      (bm.Smooth [n] b.orgin_client_id s ∧ r = .ok () ∧ s'.Seated ∧
        (∀ k, s'.Hears b.orgin_client_id k ↔
          s.Hears b.orgin_client_id ([n].countP (fun n => bm.dev[n]?.any (·.Tells)) + k)) ∨
      ¬ bm.Smooth [n] b.orgin_client_id s ∧ ∃ e, r = .error e) := by
  set heap₁ := (bm.heap.inc_total_endpoint_count b.addr n).touch b.addr (.queued n) with hheap
  have htotal : (heap₁.counters b.addr).total_endpoint_count =
      (bm.heap.counters b.addr).total_endpoint_count + 1 := by
    simp [hheap, FrameHeap.inc_total_endpoint_count, FrameHeap.touch]
  have hcompleted : (heap₁.counters b.addr).completed_endpoint_count =
      (bm.heap.counters b.addr).completed_endpoint_count := by
    simp [hheap, FrameHeap.inc_total_endpoint_count, FrameHeap.touch]
  obtain ⟨d', ht, hsend⟩ :=
    Driver.exec_send_frame (callbacks EventMgr.handler n) d b (heap₁, s)
  have hgive : (give EventMgr.handler b n).exec (bm, s) =
      match (Driver.send_frame (callbacks EventMgr.handler n) b).exec (d, heap₁, s) with
      | (r, d', heap', w') => (r, { dev := bm.dev.insert n d', heap := heap' }, w') := by
    unfold give
    simp only [exec_bind, exec_modifyFst]
    exact exec_onDriver EventMgr.handler _ hd
  rw [hgive]
  by_cases hr : d.Refused
  · rw [if_pos hr] at hsend
    obtain ⟨e, he⟩ := hsend
    have hnot : ¬ bm.Smooth [n] b.orgin_client_id s := fun hsm =>
      hsm.1 n (List.mem_singleton_self n) d hd hr
    rw [he]
    exact ⟨_, _, _, _, rfl, given_insert n b hd ht htotal rfl,
      touched_given n b bm.heap fun h => hnot h.2.1, .inr ⟨hnot, e, rfl⟩⟩
  rw [if_neg hr] at hsend
  have hnr : ∀ m ∈ [n], ∀ c, bm.dev[m]? = some c → ¬ c.Refused := fun m hm c hc => by
    obtain rfl := List.mem_singleton.1 hm
    rwa [← Option.some.inj (hd.symm.trans hc)]
  by_cases htell : d.Tells
  · have hcount : [n].countP (fun n => bm.dev[n]?.any (·.Tells)) = 1 := by simp [hd, htell]
    rw [if_pos htell] at hsend
    obtain ⟨h', T, htot', hnext', htouched, hcb⟩ := exec_on_send_frame n b heap₁ s
    have hcall : ((callbacks EventMgr.handler n).send_frame b).exec (heap₁, s) = _ := hcb
    rw [hcall] at hsend
    rw [hsend]
    rw [htotal, hcompleted, Nat.add_right_cancel_iff] at htouched
    refine ⟨_, _, _, _, rfl, given_insert n b hd ht (htot'.trans htotal) hnext',
      touched_told n b hheap htouched htell ?_, ?_⟩
    · rw [and_iff_right htell, Smooth, hcount, and_iff_right hnr]
      exact and_congr_left fun _ => Server.tell_ok_iff hs
    rw [Smooth, hcount]
    by_cases hh : s.Hears b.orgin_client_id 1
    · refine .inl ⟨⟨hnr, hh⟩, ?_⟩
      have hexec : (EventMgr.handler.process_sent_frame n b).exec s = _ := Server.exec_tell hs hh
      rw [hexec]
      refine ⟨rfl, hs.allTold, fun k => ?_⟩
      rw [Nat.add_comm 1]
      exact Server.hears_allTold hs hh k
    · refine .inr ⟨fun hsm => hh hsm.2, ?_⟩
      obtain ⟨e, s', he⟩ : ∃ e s', (EventMgr.handler.process_sent_frame n b).exec s = _ :=
        Server.exec_tell_error hs hh
      rw [he]
      exact ⟨e, rfl⟩
  · have hcount : [n].countP (fun n => bm.dev[n]?.any (·.Tells)) = 0 := by simp [hd, htell]
    rw [if_neg htell] at hsend
    rw [hsend]
    refine ⟨_, _, _, _, rfl, given_insert n b hd ht htotal rfl,
      touched_given n b bm.heap fun h => htell h.1, .inl ⟨⟨hnr, ?_⟩, rfl, hs, fun k => ?_⟩⟩
    · rw [hcount]
      exact fun _ _ _ _ _ _ => trivial
    · rw [hcount, Nat.zero_add]

end Handler

theorem smooth_cons {b : BusFrame} {n : String} {l : List String} {bm bm' : BusMgr} {s s' : Server}
    (hn : n ∉ l) (hg : GivenTo b [n] bm bm') (hsm : bm.Smooth [n] b.orgin_client_id s)
    (hh : ∀ k, s'.Hears b.orgin_client_id k ↔
      s.Hears b.orgin_client_id ([n].countP (fun n => bm.dev[n]?.any (·.Tells)) + k)) :
    bm.Smooth (n :: l) b.orgin_client_id s ↔ bm'.Smooth l b.orgin_client_id s' := by
  rw [smooth_congr fun m hm => hg.rest hn hm]
  unfold Smooth
  rw [hh, ← List.countP_append, List.singleton_append]
  refine and_congr_left fun _ => ⟨fun h m hm => h m (List.mem_cons_of_mem n hm), fun h m hm => ?_⟩
  rcases List.mem_cons.1 hm with rfl | hm
  · exact hsm.1 m (List.mem_singleton_self m)
  · exact h m hm

theorem Smooth.first {bm : BusMgr} {n : String} {l : List String} {o : ℕ} {s : Server}
    (h : bm.Smooth (n :: l) o s) : bm.Smooth [n] o s := by
  refine ⟨fun m hm => h.1 m (List.mem_singleton.1 hm ▸ List.mem_cons_self), ?_⟩
  have hh := h.2
  rw [List.countP_cons] at hh ⊢
  rw [List.countP_nil, Nat.zero_add]
  split_ifs at hh ⊢
  · exact hh.first
  · exact fun _ _ _ _ _ _ => trivial

/-- The frame goes to the drivers up to the first that does not take it smoothly: to all of them if
that is none but the last, and to the first alone if that is the only one or does not take it. -/
theorem exec_gives (b : BusFrame) : ∀ (l : List String) (bm : BusMgr) (s : Server), l.Nodup →
    (∀ n ∈ l, ∃ d, bm.dev[n]? = some d) → s.Seated → ∃ L, L <+: l ∧
      GivenTo b L bm ((forEach l (give EventMgr.handler b)).exec (bm, s)).2.1 ∧ (l ≠ [] → L ≠ []) ∧
      (L = l ↔ bm.Smooth l.dropLast b.orgin_client_id s) ∧
      ∀ n rest, l = n :: rest → (L = [n] ↔ rest = [] ∨ ¬ bm.Smooth [n] b.orgin_client_id s)
  | [], bm, s, _, _, _ =>
    ⟨[], List.prefix_rfl, GivenTo.nil b bm, id, iff_of_true rfl (smooth_nil bm _ s),
      fun _ _ h => absurd h.symm (List.cons_ne_nil _ _)⟩
  | n :: l, bm, s, hnd, hdev, hs => by
    obtain ⟨hn, hnd'⟩ := List.nodup_cons.1 hnd
    obtain ⟨d, hd⟩ := hdev n List.mem_cons_self
    obtain ⟨r, bm', s', T, hexec, hg, -, ⟨hsm, rfl, hs', hh⟩ | ⟨hsm, e, rfl⟩⟩ := exec_give n b hd hs
    · obtain ⟨L, hpre, hg', hne, hall, -⟩ := exec_gives b l bm' s' hnd'
        (fun m hm => by rw [hg.rest hn hm]; exact hdev m (List.mem_cons_of_mem n hm)) hs'
      refine ⟨n :: L, List.cons_prefix_cons.2 ⟨rfl, hpre⟩, ?_, fun _ => List.cons_ne_nil n L, ?_, ?_⟩
      · rw [forEach, exec_bind, hexec]
        exact hg.cons hg' fun hnL => hn (hpre.subset hnL)
      · rw [List.cons_inj_right, hall]
        rcases l with _ | ⟨m, l⟩
        · exact iff_of_true (smooth_nil _ _ _) (smooth_nil _ _ _)
        · have hnm : n ∉ (m :: l).dropLast := fun h => hn (List.dropLast_subset _ h)
          exact (smooth_cons hnm hg hsm hh).symm
      · rintro m rest h
        obtain ⟨rfl, rfl⟩ := List.cons.inj h
        rw [List.cons_inj_right, or_iff_left (not_not_intro hsm)]
        refine ⟨fun hL => by_contra fun hl => hne hl hL, ?_⟩
        rintro rfl
        exact List.prefix_nil.1 hpre
    · refine ⟨[n], ⟨l, rfl⟩, ?_, fun _ => List.cons_ne_nil n [], ?_, ?_⟩
      · rw [forEach, exec_bind, hexec]
        exact hg
      · rcases l with _ | ⟨m, l⟩
        · exact iff_of_true rfl (smooth_nil _ _ _)
        · exact iff_of_false (by simp) fun h => hsm h.first
      · rintro m rest h
        obtain ⟨rfl, rfl⟩ := List.cons.inj h
        exact iff_of_true rfl (.inr hsm)

/-- The frame waits at a driver. -/
def Waiting (b : BusFrame) (bm : BusMgr) : Prop :=
  (bm.heap.counters b.addr).completed_endpoint_count < (bm.heap.counters b.addr).total_endpoint_count

theorem Waiting.give {b : BusFrame} {n : String} {bm bm' : BusMgr} {T : List (ℕ × Touch)}
    {tells last : Prop} (hg : GivenTo b [n] bm bm') (ht : bm.heap.Touched b.addr T tells last bm'.heap)
    (h : Waiting b bm ∨ ¬ tells ∧ (bm.heap.counters b.addr).completed_endpoint_count ≤
      (bm.heap.counters b.addr).total_endpoint_count) : Waiting b bm' := by
  unfold Waiting at h ⊢
  have htotal := hg.total
  have hcompleted := ht.completed
  rw [List.length_singleton] at htotal
  rcases h with h | ⟨htells, hle⟩
  · omega
  · have hkept := ht.kept htells
    omega

/-- What happens to the frame while the drivers are given it: if it waits at one already, it is not
deleted. -/
theorem gives_touched (b : BusFrame) : ∀ (l : List String) (bm : BusMgr) (s : Server), l.Nodup →
    (∀ n ∈ l, ∃ d, bm.dev[n]? = some d) → s.Seated → ∃ T,
      ((forEach l (give EventMgr.handler b)).exec (bm, s)).2.1.heap.log = bm.heap.log ++ T ∧
      (∀ e ∈ T, e.1 = b.addr) ∧ (T = [] ↔ l = []) ∧ (Waiting b bm → (b.addr, Touch.deleted) ∉ T)
  | [], bm, s, _, _, _ =>
    ⟨[], (List.append_nil _).symm, fun _ h => absurd h List.not_mem_nil,
      iff_of_true rfl rfl, fun _ => List.not_mem_nil⟩
  | n :: l, bm, s, hnd, hdev, hs => by
    obtain ⟨hn, hnd'⟩ := List.nodup_cons.1 hnd
    obtain ⟨d, hd⟩ := hdev n List.mem_cons_self
    obtain ⟨r, bm', s', T, hexec, hg, ht, hend⟩ := exec_give n b hd hs
    have hnot : Waiting b bm → (b.addr, Touch.deleted) ∉ T := fun hw hdel =>
      (ht.deleted.1 hdel).2.2.not_lt hw
    rw [forEach, exec_bind, hexec]
    rcases hend with ⟨-, rfl, hs', -⟩ | ⟨-, e, rfl⟩
    · obtain ⟨T', hlog, hown, -, hnot'⟩ := gives_touched b l bm' s' hnd'
        (fun m hm => by rw [hg.rest hn hm]; exact hdev m (List.mem_cons_of_mem n hm)) hs'
      refine ⟨T ++ T', ?_, fun e he => (List.mem_append.1 he).elim (ht.own e) (hown e),
        by simp [ht.some], fun hw hdel => ?_⟩
      · dsimp only
        rw [hlog, ht.log, List.append_assoc]
      · exact (List.mem_append.1 hdel).elim (hnot hw) (hnot' (.give hg ht (.inl hw)))
    · exact ⟨T, ht.log, ht.own, by simp [ht.some], hnot⟩

/-- The first of the drivers `l`, and not the only one, is done with the frame at once. -/
def EndsEarly (bm : BusMgr) (l : List String) (orgin_client_id : ℕ) (s : Server) : Prop :=
  ∃ n rest d, l = n :: rest ∧ rest ≠ [] ∧ bm.dev[n]? = some d ∧ d.Tells ∧
    bm.Smooth [n] orgin_client_id s

/-- The first of several drivers is done with a frame at once: it deletes the frame before the next one
is counted. -/
def Hasty (bm : BusMgr) : Prop :=
  ∃ n rest d, bm.dev.keys = n :: rest ∧ rest ≠ [] ∧ bm.dev[n]? = some d ∧ d.Tells ∧ ¬ d.Refused

theorem endsEarly_cons {bm : BusMgr} {n : String} {l : List String} {o : ℕ} {s : Server} {d : Driver}
    (hd : bm.dev[n]? = some d) :
    bm.EndsEarly (n :: l) o s ↔ l ≠ [] ∧ d.Tells ∧ bm.Smooth [n] o s := by
  constructor
  · rintro ⟨m, rest, d', heq, hne, hd', hfirst⟩
    obtain ⟨rfl, rfl⟩ := List.cons.inj heq
    obtain rfl := Option.some.inj (hd.symm.trans hd')
    exact ⟨hne, hfirst⟩
  · rintro ⟨hne, hfirst⟩
    exact ⟨n, l, d, rfl, hne, hd, hfirst⟩

theorem EndsEarly.hasty {bm : BusMgr} {o : ℕ} {s : Server} (h : bm.EndsEarly bm.dev.keys o s) :
    bm.Hasty := by
  obtain ⟨n, rest, d, hkeys, hne, hd, htells, hfirst⟩ := h
  exact ⟨n, rest, d, hkeys, hne, hd, htells, hfirst.1 n (List.mem_singleton_self n) d hd⟩

/-- If all but the last driver take a frame smoothly, so does the first of several. -/
theorem endsEarly_keys {bm : BusMgr} {o : ℕ} {s : Server}
    (hsm : bm.Smooth bm.dev.keys.dropLast o s) : bm.EndsEarly bm.dev.keys o s ↔ bm.Hasty := by
  refine ⟨EndsEarly.hasty, ?_⟩
  rintro ⟨n, rest, d, hkeys, hne, hd, htells, -⟩
  rw [hkeys, List.dropLast_cons_of_ne_nil hne] at hsm
  exact ⟨n, rest, d, hkeys, hne, hd, htells, hsm.first⟩

/-- What happens to a new frame: it is used after it was deleted just when the first of several drivers
is done with it at once. -/
theorem gives_sound (b : BusFrame) (l : List String) (bm : BusMgr) (s : Server) (hnd : l.Nodup)
    (hdev : ∀ n ∈ l, ∃ d, bm.dev[n]? = some d) (hs : s.Seated)
    (hnew : (bm.heap.counters b.addr).completed_endpoint_count =
      (bm.heap.counters b.addr).total_endpoint_count) : ∃ T,
    ((forEach l (give EventMgr.handler b)).exec (bm, s)).2.1.heap.log = bm.heap.log ++ T ∧
      (∀ e ∈ T, e.1 = b.addr) ∧ (FrameHeap.Sound T ↔ ¬ bm.EndsEarly l b.orgin_client_id s) := by
  rcases l with _ | ⟨n, l⟩
  · exact ⟨[], (List.append_nil _).symm, fun _ h => absurd h List.not_mem_nil,
      iff_of_true List.Pairwise.nil (by simp [EndsEarly])⟩
  obtain ⟨hn, hnd'⟩ := List.nodup_cons.1 hnd
  obtain ⟨d, hd⟩ := hdev n List.mem_cons_self
  obtain ⟨r, bm', s', T, hexec, hg, ht, hend⟩ := exec_give n b hd hs
  have hdeleted := ht.deleted
  rw [and_iff_left hnew] at hdeleted
  rw [endsEarly_cons hd, forEach, exec_bind, hexec]
  rcases hend with ⟨hsm, rfl, hs', -⟩ | ⟨hsm, e, rfl⟩
  · obtain ⟨T', hlog, hown, hnil, hnot⟩ := gives_touched b l bm' s' hnd'
      (fun m hm => by rw [hg.rest hn hm]; exact hdev m (List.mem_cons_of_mem n hm)) hs'
    refine ⟨T ++ T', ?_, fun e he => (List.mem_append.1 he).elim (ht.own e) (hown e), ?_⟩
    · dsimp only
      rw [hlog, ht.log, List.append_assoc]
    rw [and_iff_left hsm] at hdeleted ⊢
    by_cases hl : l = []
    · rw [hnil.2 hl, List.append_nil]
      exact iff_of_true ht.sound fun h => h.1 hl
    rw [FrameHeap.sound_append ht.own hown (mt hnil.1 hl), hdeleted, and_iff_right hl]
    refine and_iff_left_of_imp fun htells => FrameHeap.sound_of_undeleted hown (hnot ?_)
    exact .give hg ht (.inr ⟨htells, hnew.le⟩)
  · exact ⟨T, ht.log, ht.own, iff_of_true ht.sound fun h => hsm h.2.2⟩

end BusMgr

/-! ### The message -/

/-- The message has a `dlc` other than 0, and no bytes. -/
def Mismatched (msg : GenericMsg) : Prop :=
  (∃ dlc, rootProp msg "dlc" = some dlc ∧ UInt8.ofInt (CText.strtol 10 dlc.toList) ≠ 0) ∧
    rootProp msg "data" = none

section Readable

variable {msg : GenericMsg}

theorem sendframe_attributes (hvalid : Schema.valid msg = true)
    (htype : msg.get_type = .ok .SEND_FRAME) : ∃ node, msg.get_msg_root = some node ∧
      Schema.attributes Schema.sendframeAttributes node = true := by
  obtain ⟨node, hroot, hmsg, -⟩ := Schema.valid_root hvalid
  refine ⟨node, hroot, ?_⟩
  have hname : node.name = "sendframe" := by
    rw [GenericMsg.get_type, hroot] at htype
    dsimp only at htype
    split_ifs at htype <;> first | assumption | cases htype
  rcases Schema.message_cases hmsg with ⟨hn, -⟩ | ⟨-, hsend⟩ | ⟨hn, -⟩ | hn
  · rw [hname] at hn
    simp at hn
  · rw [Schema.h9sendframe_t, Bool.and_eq_true] at hsend
    exact hsend.1
  · rw [hname] at hn
    simp at hn
  · rw [hname] at hn
    simp at hn

theorem sendframe_type {node : XmlElement} {type : String}
    (h : Schema.attributes Schema.sendframeAttributes node = true)
    (ht : node.xmlGetProp "type" = some type) :
    (UInt8.ofInt (CText.strtol 10 type.toList)).toNat ≤ 31 := by
  have hmem : ("type", type) ∈ node.props := by
    obtain ⟨l, r, heq, -⟩ := List.lookup_eq_some_iff.1 ht
    rw [heq]
    simp
  rw [Schema.attributes, Bool.and_eq_true, List.all_eq_true] at h
  have hvalid := h.1 _ hmem
  have htype : (Schema.SimpleType.nonNegativeInteger 0 (some 31)).valid type = true := by
    simpa [Schema.sendframeAttributes] using hvalid
  rw [Schema.SimpleType.valid] at htype
  rcases hn : Schema.nonNegativeInteger type.toList with _ | n
  · rw [hn] at htype
    cases htype
  · rw [hn] at htype
    have hle : n ≤ 31 := by simpa using htype
    rw [Schema.strtol_of_nonNegativeInteger hn (by omega), toNat_ofInt_byte (by omega)]
    exact hle

/-- A valid `sendframe` can be read unless it lacks the bytes that its `dlc` counts. -/
theorem get_frame_readable (hvalid : Schema.valid msg = true)
    (htype : msg.get_type = .ok .SEND_FRAME) :
    (Mismatched msg ∧ ∃ e, get_frame msg = .error e) ∨
      ¬ Mismatched msg ∧ ∃ frame, get_frame msg = .ok frame := by
  obtain ⟨node, hroot, hattrs⟩ := sendframe_attributes hvalid htype
  have hprop : ∀ prop, rootProp msg prop = node.xmlGetProp prop := fun prop => by
    rw [rootProp, hroot]
    rfl
  have hthere : ∀ prop ∈ ["priority", "type", "seqnum", "source", "destination", "dlc"],
      rootProp msg prop ≠ none := by
    intro prop hmem
    obtain ⟨a, ha, hr, rfl⟩ : ∃ a ∈ Schema.sendframeAttributes, a.required = true ∧
        a.name = prop := by
      simp only [List.mem_cons, List.not_mem_nil, or_false] at hmem
      rcases hmem with rfl | rfl | rfl | rfl | rfl | rfl <;> simp [Schema.sendframeAttributes]
    obtain ⟨v, hv⟩ := Schema.attributes_required hattrs ha hr
    rw [hprop, hv]
    exact Option.some_ne_none v
  rcases get_frame_cases msg with ⟨hbad, what, hget⟩ | ⟨_, type, _, ht, h64, _⟩ |
      ⟨_, _, _, _, _, dlc, _, _, _, _, _, hdlc, _, hdata, hget⟩
  · refine .inl ⟨?_, _, hget⟩
    rcases hbad with hnone | hnone | ⟨-, ⟨prop, hmem, hnone⟩ | ⟨dlc, hdlc, hne, hdata⟩⟩
    · exact absurd hnone (hthere _ (by simp))
    · exact absurd hnone (hthere _ (by simp))
    · exact absurd hnone (hthere prop (by simp at hmem ⊢; tauto))
    · exact ⟨⟨dlc, hdlc, hne⟩, hdata⟩
  · rw [hprop] at ht
    have hle := sendframe_type hattrs ht
    rw [UInt8.le_iff_toNat_le] at h64
    exact absurd (h64.trans hle) (by decide)
  · refine .inr ⟨fun ⟨⟨dlc', hdlc', hne⟩, hnone⟩ => ?_, _, hget⟩
    obtain rfl := Option.some.inj (hdlc.symm.trans hdlc')
    exact hdata hne hnone

end Readable

/-! ### The route -/

/-- The drivers that the message addresses: the one its `endpoint` names, or all of them. -/
def addressed (msg : GenericMsg) (bm : BusMgr) : List String :=
  match rootProp msg "endpoint" with
  | none => bm.dev.keys
  | some endpoint => if bm.dev.contains endpoint then [endpoint] else []

/-- The driver `n` queued the frame of the message, as the next object. -/
def QueuedOn (msg : GenericMsg) (bm bm' : BusMgr) (n : String) : Prop :=
  ∃ d d' b, bm.dev[n]? = some d ∧ bm'.dev[n]? = some d' ∧ b.addr = bm.heap.next ∧
    get_frame msg = .ok b.frame ∧ d'.taken.Perm (b :: d.taken)

/-- The frame is queued on the drivers that the message addresses and on no other, has one endpoint for
each driver that queued it, and is not used after it was deleted. -/
structure Routed (msg : GenericMsg) (bm bm' : BusMgr) : Prop where
  drivers : ∀ n, QueuedOn msg bm bm' n ↔ n ∈ addressed msg bm
  total : bm.heap.next < bm'.heap.next →
    (bm'.heap.counters bm.heap.next).total_endpoint_count = {n | QueuedOn msg bm bm' n}.ncard
  alive : ∀ T, bm'.heap.log = bm.heap.log ++ T → FrameHeap.Sound T

/-- The drivers that get the frame have a descriptor, and are those addressed: all of them, if none
but the last can fail to take it, and the first of several is not done with it at once; the only one, or
the first one, which does not take it; or none. -/
def RoutesRight (msg : GenericMsg) (bm : BusMgr) (fd : ℕ) (s : Server) : Prop :=
  match rootProp msg "endpoint" with
  | none => bm.dev.keys = [] ∨ ¬ Mismatched msg ∧
      (∀ (n : String) d, bm.dev[n]? = some d → d.socket ≠ 0) ∧
        bm.Smooth bm.dev.keys.dropLast fd s ∧ ¬ bm.Hasty
  | some endpoint =>
    if bm.dev.contains endpoint then ¬ Mismatched msg ∧
      (∀ d, bm.dev[endpoint]? = some d → d.socket ≠ 0) ∧
      ∃ rest, bm.dev.keys = endpoint :: rest ∧ (rest = [] ∨ ¬ bm.Smooth [endpoint] fd s)
    else Mismatched msg ∨ bm.dev.keys = []

namespace BusMgr

variable {msg : GenericMsg} {bm bm' : BusMgr}

theorem mem_keys {n : String} : n ∈ bm.dev.keys ↔ ∃ d, bm.dev[n]? = some d := by
  rw [Std.TreeMap.mem_keys, Std.TreeMap.mem_iff_isSome_getElem?, Option.isSome_iff_exists]

theorem not_queuedOn {d : Driver} {n : String} (hd : bm.dev[n]? = some d) {d' : Driver}
    (hd' : bm'.dev[n]? = some d') (ht : d'.taken.Perm d.taken) : ¬ QueuedOn msg bm bm' n := by
  rintro ⟨c, c', b, hc, hc', -, -, hperm⟩
  obtain rfl := Option.some.inj (hd.symm.trans hc)
  obtain rfl := Option.some.inj (hd'.symm.trans hc')
  have hlen := (ht.symm.trans hperm).length_eq
  simp at hlen

/-- The drivers that got the frame queue it if they have a descriptor. -/
theorem queuedOn_iff {b : BusFrame} {L : List String} {bm₁ : BusMgr} (hdev : bm₁.dev = bm.dev)
    (haddr : b.addr = bm.heap.next) (hframe : get_frame msg = .ok b.frame)
    (hg : GivenTo b L bm₁ bm') (n : String) :
    QueuedOn msg bm bm' n ↔ n ∈ L ∧ ∃ d, bm.dev[n]? = some d ∧ d.socket ≠ 0 := by
  constructor
  · intro hq
    obtain ⟨d, d', -, hd, hd', -⟩ := id hq
    by_cases hn : n ∈ L
    · obtain ⟨c, hc, ht⟩ := hg.took n hn d (by rw [hdev]; exact hd)
      refine ⟨hn, d, hd, fun hs => ?_⟩
      rw [Driver.Took, if_pos hs] at ht
      exact not_queuedOn hd hc ht hq
    · have hsame := hg.others n hn
      rw [hdev, hd] at hsame
      exact absurd hq (not_queuedOn hd hsame (List.Perm.refl _))
  · rintro ⟨hn, d, hd, hs⟩
    obtain ⟨d', hd', ht⟩ := hg.took n hn d (by rw [hdev]; exact hd)
    rw [Driver.Took, if_neg hs] at ht
    exact ⟨d, d', b, hd, hd', haddr, hframe, ht⟩

/-- The frame goes where it should just when those that get it have a descriptor and are those
addressed, and what happens to it is sound. -/
theorem routed_iff {b : BusFrame} {L : List String} (hnd : L.Nodup)
    (hL : ∀ n ∈ L, n ∈ bm.dev.keys) (haddr : b.addr = bm.heap.next)
    (hframe : get_frame msg = .ok b.frame)
    (hg : GivenTo b L { bm with heap := bm.heap.alloc } bm') {T : List (ℕ × Touch)}
    (hlog : bm'.heap.log = bm.heap.log ++ T) :
    Routed msg bm bm' ↔ FrameHeap.Sound T ∧ (∀ n ∈ L, ∀ d, bm.dev[n]? = some d → d.socket ≠ 0) ∧
      ∀ n, n ∈ L ↔ n ∈ addressed msg bm := by
  have hq : ∀ n, QueuedOn msg bm bm' n ↔ n ∈ L ∧ ∃ d, bm.dev[n]? = some d ∧ d.socket ≠ 0 :=
    queuedOn_iff (show BusMgr.dev { bm with heap := bm.heap.alloc } = bm.dev from rfl) haddr hframe hg
  have htotal : (bm'.heap.counters bm.heap.next).total_endpoint_count = L.length := by
    have h := hg.total
    rw [haddr] at h
    rw [h]
    simp [FrameHeap.alloc]
  have hnext : bm.heap.next < bm'.heap.next := by
    rw [hg.next]
    exact Nat.lt_succ_self _
  have hsub : {n | QueuedOn msg bm bm' n} ⊆ (L.toFinset : Set String) := fun n hn => by
    simpa using ((hq n).1 hn).1
  have hcard : (L.toFinset : Set String).ncard = L.length := by
    rw [Set.ncard_coe_finset, List.toFinset_card_of_nodup hnd]
  constructor
  · rintro ⟨hdrivers, hcount, halive⟩
    have heq := Set.eq_of_subset_of_ncard_le hsub
      (by rw [hcard, ← htotal, hcount hnext]) (Finset.finite_toSet _)
    have hall : ∀ n ∈ L, QueuedOn msg bm bm' n := fun n hn => by
      have : n ∈ (L.toFinset : Set String) := by simpa using hn
      rwa [← heq] at this
    refine ⟨halive T hlog, fun n hn d hd => ?_,
      fun n => ⟨fun hn => (hdrivers n).1 (hall n hn), fun hn => ?_⟩⟩
    · obtain ⟨-, c, hc, hs⟩ := (hq n).1 (hall n hn)
      rwa [Option.some.inj (hd.symm.trans hc)]
    · exact ((hq n).1 ((hdrivers n).2 hn)).1
  · rintro ⟨hsound, hopen, haddressed⟩
    have hall : ∀ n, QueuedOn msg bm bm' n ↔ n ∈ L := fun n => by
      rw [hq]
      refine and_iff_left_of_imp fun hn => ?_
      obtain ⟨d, hd⟩ := mem_keys.1 (hL n hn)
      exact ⟨d, hd, hopen n hn d hd⟩
    refine ⟨fun n => (hall n).trans (haddressed n), fun _ => ?_, fun T' hT' => ?_⟩
    case refine_2 =>
      obtain rfl := List.append_cancel_left (hlog.symm.trans hT')
      exact hsound
    have hset : {n | QueuedOn msg bm bm' n} = (L.toFinset : Set String) := by
      ext n
      simp [hall n]
    rw [htotal, hset, hcard]

/-- A message that cannot be read goes nowhere. -/
theorem routed_unread (hget : ∃ e, get_frame msg = .error e) :
    Routed msg bm bm ↔ addressed msg bm = [] := by
  have hnone : ∀ n, ¬ QueuedOn msg bm bm n := by
    rintro n ⟨-, -, b, -, -, -, hframe, -⟩
    obtain ⟨e, he⟩ := hget
    rw [he] at hframe
    cases hframe
  refine ⟨fun h => List.eq_nil_iff_forall_not_mem.2 fun n hn => hnone n ((h.drivers n).2 hn),
    fun h => ⟨fun n => ?_, fun hlt => absurd hlt (lt_irrefl _), fun T hT => ?_⟩⟩
  · rw [h]
    exact iff_of_false (hnone n) List.not_mem_nil
  · obtain rfl : T = [] := List.self_eq_append_right.1 hT
    exact List.Pairwise.nil

/-- The frame of the message goes to some of the drivers, from the first on. -/
theorem exec_send_all (bm : BusMgr) (b : BusFrame) (haddr : b.addr = bm.heap.next) {s : Server} (hs : s.Seated) :
    ∃ L, L <+: bm.dev.keys ∧ GivenTo b L { bm with heap := bm.heap.alloc }
        ((send_frame EventMgr.handler b.frame b.origin b.orgin_client_id b.orgin_msg_id "").exec
          (bm, s)).2.1 ∧
      (bm.dev.keys ≠ [] → L ≠ []) ∧
      (L = bm.dev.keys ↔ bm.Smooth bm.dev.keys.dropLast b.orgin_client_id s) ∧
      ∀ n rest, bm.dev.keys = n :: rest →
        (L = [n] ↔ rest = [] ∨ ¬ bm.Smooth [n] b.orgin_client_id s) := by
  obtain ⟨L, hpre, hg, h⟩ := exec_gives b bm.dev.keys { bm with heap := bm.heap.alloc } s
    Std.TreeMap.nodup_keys (fun n hn => mem_keys.1 hn) hs
  refine ⟨L, hpre, ?_, h⟩
  unfold send_frame
  simp only [exec_bind, exec_getFst, exec_modifyFst, if_true]
  rw [← haddr]
  exact hg

/-- What happens to that frame. -/
theorem send_all_sound (bm : BusMgr) (b : BusFrame) (haddr : b.addr = bm.heap.next) {s : Server}
    (hs : s.Seated) : ∃ T,
    ((send_frame EventMgr.handler b.frame b.origin b.orgin_client_id b.orgin_msg_id "").exec
      (bm, s)).2.1.heap.log = bm.heap.log ++ T ∧ (∀ e ∈ T, e.1 = bm.heap.next) ∧
      (FrameHeap.Sound T ↔ ¬ bm.EndsEarly bm.dev.keys b.orgin_client_id s) := by
  obtain ⟨T, hlog, hown, hsound⟩ := gives_sound b bm.dev.keys { bm with heap := bm.heap.alloc } s
    Std.TreeMap.nodup_keys (fun n hn => mem_keys.1 hn) hs (by simp [FrameHeap.alloc, haddr])
  refine ⟨T, ?_, haddr ▸ hown, hsound⟩
  unfold send_frame
  simp only [exec_bind, exec_getFst, exec_modifyFst, if_true]
  rw [← haddr]
  exact hlog

/-- A frame that is given to all drivers goes where its message says if and only if `RoutesRight`. -/
theorem send_all_routed_iff (bm : BusMgr) (b : BusFrame) (haddr : b.addr = bm.heap.next)
    (hframe : get_frame msg = .ok b.frame) (hmis : ¬ Mismatched msg) {s : Server} (hs : s.Seated) :
    Routed msg bm
        ((send_frame EventMgr.handler b.frame b.origin b.orgin_client_id b.orgin_msg_id "").exec
          (bm, s)).2.1 ↔ RoutesRight msg bm b.orgin_client_id s := by
  obtain ⟨L, hpre, hg, hne, hall, hone⟩ := exec_send_all bm b haddr hs
  obtain ⟨T, hlog, -, hsound⟩ := send_all_sound bm b haddr hs
  have hnd : L.Nodup := hpre.sublist.nodup Std.TreeMap.nodup_keys
  have hmem : ∀ l : List String, l.Nodup → ((∀ n, n ∈ L ↔ n ∈ l) ↔ L.Perm l) := fun l hl =>
    (List.perm_ext_iff_of_nodup hnd hl).symm
  rw [routed_iff hnd (fun n hn => hpre.subset hn) haddr hframe hg hlog, hsound, addressed,
    RoutesRight]
  rcases rootProp msg "endpoint" with _ | endpoint
  · have hkeys : L.Perm bm.dev.keys ↔ L = bm.dev.keys :=
      ⟨fun h => hpre.eq_of_length h.length_eq, fun h => h ▸ List.Perm.refl _⟩
    dsimp only
    rw [hmem _ Std.TreeMap.nodup_keys, hkeys, hall]
    by_cases hnil : bm.dev.keys = []
    · have hL : L = [] := List.prefix_nil.1 (hnil ▸ hpre)
      rw [hL, hnil]
      exact iff_of_true ⟨by simp [EndsEarly], fun n hn => absurd hn List.not_mem_nil,
        smooth_nil bm _ s⟩ (.inl rfl)
    · rw [or_iff_right hnil, and_iff_right hmis]
      constructor
      · rintro ⟨hends, hopen, hsm⟩
        rw [hall.2 hsm] at hopen
        exact ⟨fun n d hd => hopen n (mem_keys.2 ⟨d, hd⟩) d hd, hsm, (endsEarly_keys hsm).not.1 hends⟩
      · rintro ⟨hopen, hsm, hhasty⟩
        exact ⟨(endsEarly_keys hsm).not.2 hhasty, fun n _ d hd => hopen n d hd, hsm⟩
  · dsimp only
    split_ifs with hcontains
    · rw [hmem _ (List.nodup_singleton endpoint), List.perm_singleton, and_iff_right hmis]
      constructor
      · rintro ⟨-, hopen, rfl⟩
        obtain ⟨rest, hrest⟩ := hpre
        exact ⟨hopen endpoint (List.mem_singleton_self _), rest, hrest.symm,
          (hone endpoint rest hrest.symm).1 rfl⟩
      · rintro ⟨hopen, rest, hrest, hfirst⟩
        obtain rfl := (hone endpoint rest hrest).2 hfirst
        refine ⟨?_, fun n hn d hd => hopen d ?_, rfl⟩
        · rintro ⟨n, rest', d, hkeys, hne, -, -, hsm⟩
          obtain ⟨rfl, rfl⟩ := List.cons.inj (hrest.symm.trans hkeys)
          exact hfirst.elim hne fun hnot => hnot hsm
        · rwa [← List.mem_singleton.1 hn]
    · rw [hmem _ List.nodup_nil, List.perm_nil, or_iff_right hmis]
      constructor
      · rintro ⟨-, -, hL⟩
        exact by_contra fun h => hne h hL
      · intro hnil
        have hL : L = [] := List.prefix_nil.1 (hnil ▸ hpre)
        rw [hL, hnil]
        exact ⟨by simp [EndsEarly], fun n hn => absurd hn List.not_mem_nil, rfl⟩

end BusMgr

namespace EventMgr

variable (host : Host) (uptime : ℤ) (k : ℕ) {msg : GenericMsg} {s : Server} {c : TcpClient}

theorem exec_process_sendframe (bm : BusMgr) (hvalid : Schema.valid msg = true)
    (htype : msg.get_type = .ok .SEND_FRAME) (hc : s.clients k = some c) : ∃ id : UInt64,
      ((process_msg host uptime k msg).exec (bm, s)).2.1 =
        match get_frame msg with
        | .error _ => bm
        | .ok frame => ((BusMgr.send_frame handler frame c.get_client_idstring c.socket id "").exec
            (bm, { s with issues := s.issues ++ [⟨k, bm.heap.next⟩] })).2.1 := by
  obtain ⟨id, hid⟩ := Schema.get_id_ok hvalid
  refine ⟨id, ?_⟩
  unfold process_msg
  simp only [exec_bind, exec_lift, htype, hid, exec_onSnd, Server.client_some hc]
  rcases get_frame msg with e | frame
  · rfl
  · simp only [exec_modify]

/-- The frame of a valid `sendframe` goes where the message says if and only if `RoutesRight`. -/
theorem process_msg_routed_iff {bm : BusMgr} (hvalid : Schema.valid msg = true)
    (htype : msg.get_type = .ok .SEND_FRAME) (hc : s.clients k = some c) (hs : s.Seated) :
    Routed msg bm ((process_msg host uptime k msg).exec (bm, s)).2.1 ↔
      RoutesRight msg bm c.socket s := by
  obtain ⟨id, hexec⟩ := exec_process_sendframe host uptime k bm hvalid htype hc
  rw [hexec]
  unfold RoutesRight
  rcases get_frame_readable hvalid htype with ⟨hmis, e, hget⟩ | ⟨hmis, frame, hget⟩
  · rw [hget]
    dsimp only
    rw [BusMgr.routed_unread ⟨e, hget⟩, addressed]
    rcases rootProp msg "endpoint" with _ | endpoint
    · simp [hmis]
    · dsimp only
      split_ifs <;> simp [hmis]
  · rw [hget]
    dsimp only
    exact BusMgr.send_all_routed_iff bm ⟨bm.heap.next, frame, c.get_client_idstring, c.socket, id⟩ rfl
      hget hmis hs

/-- The client 0 at the descriptor 5. -/
def clientAtFive : Server where
  socket_set := {.client 0}
  event_socket_set := ∅
  socket_max := 5
  tcp_server := 3
  tcp_clients := Std.TreeMap.empty.insert 5 0
  clients k := if k = 0 then some (TcpClient.new 5 "" "" []) else none
  next_client := 1
  open_fds := {3, 5}
  issues := []
  deliveries := []

/-- Two serial drivers that are open. -/
def twoAdapters : BusMgr where
  dev := ((∅ : Std.TreeMap String Driver).insert "can0"
    { Driver.new "can0" .slcan with socket := 6, connected := true }).insert "can1"
    { Driver.new "can1" .slcan with socket := 7, connected := true }
  heap := .empty

/-- A `sendframe` with the id 1; without an `endpoint` if that is empty. -/
def sendframe (endpoint : String) : GenericMsg :=
  (GenericMsg.create (frameElement "sendframe" H9frame.new endpoint)).set_id 1

def noHost : Host := ⟨fun _ => none, fun _ => "", ""⟩

theorem entry_clientAtFive {fd j : ℕ} (h : clientAtFive.tcp_clients[fd]? = some j) : fd = 5 ∧ j = 0 := by
  simp only [clientAtFive, Std.TreeMap.getElem?_insert, Std.LawfulEqCmp.compare_eq_iff_eq] at h
  split_ifs at h with h5
  · exact ⟨h5.symm, (Option.some.inj h).symm⟩
  · simp at h

theorem seated_clientAtFive : clientAtFive.Seated := by
  intro fd j hj
  obtain ⟨rfl, rfl⟩ := entry_clientAtFive hj
  exact ⟨_, rfl, rfl⟩

theorem hears_clientAtFive (n : ℕ) : clientAtFive.Hears 5 n := by
  intro fd j c hj hc _
  obtain ⟨rfl, rfl⟩ := entry_clientAtFive hj
  obtain rfl := Option.some.inj hc
  induction n with
  | zero => trivial
  | succ n ih =>
    have hsame : (TcpClient.new 5 "" "" []).stamped.Lasts n ↔ (TcpClient.new 5 "" "" []).Lasts n :=
      TcpClient.lasts_congr n rfl rfl
    exact ⟨fun e he => (by cases he), fun _ => hsame.2 ih⟩

theorem twoAdapters_driver {n : String} {d : Driver} (hd : twoAdapters.dev[n]? = some d) :
    d.socket ≠ 0 ∧ d.writes = [] ∧ d.kind = .slcan := by
  simp only [twoAdapters, Std.TreeMap.getElem?_insert, Std.LawfulEqCmp.compare_eq_iff_eq] at hd
  split_ifs at hd
  · obtain rfl := Option.some.inj hd
    exact ⟨Nat.succ_ne_zero 6, rfl, rfl⟩
  · obtain rfl := Option.some.inj hd
    exact ⟨Nat.succ_ne_zero 5, rfl, rfl⟩
  · simp at hd

/-- Without an `endpoint` both drivers queue the frame. -/
theorem process_msg_routed_all : Routed (sendframe "") twoAdapters
    ((process_msg noHost 0 0 (sendframe "")).exec (twoAdapters, clientAtFive)).2.1 := by
  refine (process_msg_routed_iff noHost 0 0 (c := TcpClient.new 5 "" "" []) (by decide +kernel)
    (by decide +kernel) rfl seated_clientAtFive).2 ?_
  have hnone : rootProp (sendframe "") "endpoint" = none := by decide +kernel
  rw [RoutesRight, hnone]
  refine .inr ⟨?_, fun n d hd => (twoAdapters_driver hd).1,
    ⟨fun n _ d hd hr => ?_, hears_clientAtFive _⟩, ?_⟩
  · rintro ⟨⟨dlc, hdlc, hne⟩, -⟩
    have hzero : rootProp (sendframe "") "dlc" = some "0" := by decide +kernel
    obtain rfl := Option.some.inj (hdlc.symm.trans hzero)
    exact hne (by decide +kernel)
  · obtain ⟨-, -, hsome⟩ := hr
    rw [Driver.refusal, (twoAdapters_driver hd).2.1] at hsome
    cases hsome
  · rintro ⟨n, rest, d, -, -, hd, htells, -⟩
    exact htells.2.2 (twoAdapters_driver hd).2.2

/-- The frame for `can1` is queued on `can0` too. -/
theorem process_msg_not_always_routed : ¬ ∀ (host : Host) (uptime : ℤ) (k : ℕ) (msg : GenericMsg)
    (bm : BusMgr) (s : Server) (c : TcpClient), Schema.valid msg = true →
      msg.get_type = .ok .SEND_FRAME → s.clients k = some c → s.Seated →
        Routed msg bm ((process_msg host uptime k msg).exec (bm, s)).2.1 := by
  intro h
  have hr := h noHost 0 0 (sendframe "can1") twoAdapters clientAtFive (TcpClient.new 5 "" "" [])
    (by decide +kernel) (by decide +kernel) rfl seated_clientAtFive
  have htaken : (((process_msg noHost 0 0 (sendframe "can1")).exec
      (twoAdapters, clientAtFive)).2.1.dev["can0"]?).map Driver.taken =
        some [⟨1, H9frame.new, "@:", 5, 1⟩] := by
    decide +kernel
  obtain ⟨d', hd', ht⟩ := Option.map_eq_some_iff.1 htaken
  have hget : get_frame (sendframe "can1") = .ok H9frame.new := by decide +kernel
  have hmem := (hr.drivers "can0").1 ⟨_, d', _, rfl, hd', rfl, hget, by rw [ht]; rfl⟩
  revert hmem
  decide +kernel

end EventMgr

end H9
