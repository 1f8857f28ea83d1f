import H9.Proofs.DriverRules

/-!
# What the bus keeps

An invariant `I` of the queues of all drivers, the memory of the frames and the program below
holds through every call on the bus, if the callbacks of every driver keep it (`BusRule`).
-/

namespace H9

open Prog

/-- Two maps with the same keys list them in the same order. -/
theorem keys_eq_of_isSome {α : Type} {t u : Std.TreeMap String α}
    (h : ∀ n : String, t[n]?.isSome = u[n]?.isSome) : t.keys = u.keys := by
  have hanti : ∀ a b : String, a ∈ t.keys → b ∈ u.keys → compare a b = .lt →
      compare b a = .lt → a = b := by
    intro a b _ _ hab hba
    have hswap : compare a b = (compare b a).swap := Std.OrientedCmp.eq_swap
    rw [hswap, hba] at hab
    cases hab
  refine List.Perm.eq_of_pairwise hanti t.ordered_keys u.ordered_keys ?_
  refine (List.perm_ext_iff_of_nodup Std.TreeMap.nodup_keys Std.TreeMap.nodup_keys).2 fun n => ?_
  rw [Std.TreeMap.mem_keys, Std.TreeMap.mem_keys, Std.TreeMap.mem_iff_isSome_getElem?,
    Std.TreeMap.mem_iff_isSome_getElem?, h]

namespace FrameHeap

/-- The memory after `endpoint` is done with the frame at `a`. -/
def complete (h : FrameHeap) (a : ℕ) (endpoint : String) : FrameHeap :=
  let h' := h.int_completed_endpoint_count a endpoint
  if (h'.counters a).completed_endpoint_count = (h'.counters a).total_endpoint_count then
    h'.touch a .deleted
  else h'

end FrameHeap

namespace BusMgr

variable {W : Type}

/-- The frames that wait at each driver. -/
def queues (bm : BusMgr) (n : String) : List BusFrame :=
  (bm.dev[n]?.map Driver.send_queue).getD []

def Within (X : Exn → Prop) (bm : BusMgr) : Prop :=
  ∀ (n : String) (d : Driver), bm.dev[n]? = some d → d.Within X

/-- The drivers that are done with a frame at once have none waiting. -/
def Idle (bm : BusMgr) : Prop :=
  ∀ (n : String) (d : Driver), bm.dev[n]? = some d → d.kind ≠ .slcan → d.send_queue = []

theorem queues_of_some {bm : BusMgr} {n : String} {d : Driver} (h : bm.dev[n]? = some d) :
    bm.queues n = d.send_queue := by
  rw [queues, h]
  rfl

theorem queues_insert (bm : BusMgr) (n : String) (d : Driver) (heap : FrameHeap) :
    queues ⟨bm.dev.insert n d, heap⟩ = Function.update bm.queues n d.send_queue := by
  funext m
  simp only [queues, Std.TreeMap.getElem?_insert, Std.LawfulEqCmp.compare_eq_iff_eq]
  by_cases hm : n = m
  · subst hm
    simp
  · rw [if_neg hm, Function.update_of_ne (Ne.symm hm)]
    rfl

theorem mem_update {Q : String → List BusFrame} {n : String} {q q' : List BusFrame}
    (hq : ∀ b ∈ q', b ∈ q) (m : String) :
    ∀ b ∈ Function.update Q n q' m, b ∈ Function.update Q n q m := by
  by_cases hm : m = n
  · subst hm
    simpa using hq
  · simp [Function.update_of_ne hm]

variable (handler : EventHandler W)

/-- The callbacks of every driver keep `I`, whatever the queues of the others. -/
def BusRule (X : Exn → Prop) (I : (String → List BusFrame) → FrameHeap × W → Prop)
    (E : Exn → (String → List BusFrame) → FrameHeap × W → Prop) : Prop :=
  ∀ n Q, QueueRule (callbacks handler n) X (fun q => I (Function.update Q n q))
    fun e q => E e (Function.update Q n q)

/-- `BusRule`, less what it says of the callbacks. -/
def BusInv (X : Exn → Prop) (I : (String → List BusFrame) → FrameHeap × W → Prop)
    (E : Exn → (String → List BusFrame) → FrameHeap × W → Prop) : Prop :=
  ∀ n Q, QueueInv X (fun q => I (Function.update Q n q)) fun e q => E e (Function.update Q n q)

/-- After calls on the bus `bm₀` that returned. -/
structure Kept (X : Exn → Prop) (I : (String → List BusFrame) → FrameHeap × W → Prop)
    (bm₀ : BusMgr) (s : BusMgr × W) : Prop where
  ports : ∀ n : String, s.1.dev[n]?.map Driver.port = bm₀.dev[n]?.map Driver.port
  within : s.1.Within X
  idle : bm₀.Idle → s.1.Idle
  inv : I s.1.queues (s.1.heap, s.2)

/-- After one that left by `e`. -/
structure Left (E : Exn → (String → List BusFrame) → FrameHeap × W → Prop) (bm₀ : BusMgr)
    (e : Exn) (s : BusMgr × W) : Prop where
  ports : ∀ n : String, s.1.dev[n]?.map Driver.port = bm₀.dev[n]?.map Driver.port
  inv : E e s.1.queues (s.1.heap, s.2)

theorem ports_insert {dev : Std.TreeMap String Driver} {n : String} {d d' : Driver}
    (hd : dev[n]? = some d) (hp : d'.port = d.port) (m : String) :
    (dev.insert n d')[m]?.map Driver.port = dev[m]?.map Driver.port := by
  simp only [Std.TreeMap.getElem?_insert, Std.LawfulEqCmp.compare_eq_iff_eq]
  by_cases hm : n = m
  · subst hm
    rw [if_pos rfl, hd, Option.map_some, Option.map_some, hp]
  · rw [if_neg hm]

theorem keys_of_ports {bm bm₀ : BusMgr}
    (h : ∀ n : String, bm.dev[n]?.map Driver.port = bm₀.dev[n]?.map Driver.port) :
    bm.dev.keys = bm₀.dev.keys :=
  keys_eq_of_isSome fun n => by rw [← Option.isSome_map (f := Driver.port), h, Option.isSome_map]

theorem exists_port {bm bm₀ : BusMgr}
    (h : ∀ n : String, bm.dev[n]?.map Driver.port = bm₀.dev[n]?.map Driver.port) {n : String}
    {d : Driver} (hd : bm.dev[n]? = some d) : ∃ d₀, bm₀.dev[n]? = some d₀ ∧ d₀.port = d.port := by
  have hport := h n
  rw [hd, Option.map_some] at hport
  exact Option.map_eq_some_iff.1 hport.symm

theorem exec_onDriver {n : String} (p : Callbacks (FrameHeap × W) → Prog (Driver × FrameHeap × W) Exn Unit)
    {bm : BusMgr} {w : W} {d : Driver} (hd : bm.dev[n]? = some d) :
    (onDriver handler n p).exec (bm, w) =
      match (p (callbacks handler n)).exec (d, bm.heap, w) with
      | (r, d', heap', w') => (r, { dev := bm.dev.insert n d', heap := heap' }, w') := by
  change onDriver handler n p (bm, w) = _
  unfold onDriver
  dsimp only
  rw [hd]

theorem exec_onDriver_none {α : Type} {n : String}
    (p : Callbacks (FrameHeap × W) → Prog (Driver × FrameHeap × W) Exn α) {bm : BusMgr} {w : W}
    (hd : bm.dev[n]? = none) :
    (onDriver handler n p).exec (bm, w) = (.error .undefined, bm, w) := by
  change onDriver handler n p (bm, w) = _
  unfold onDriver
  dsimp only
  rw [hd]

section Rules

variable {handler} {X : Exn → Prop} {I : (String → List BusFrame) → FrameHeap × W → Prop}
  {E : Exn → (String → List BusFrame) → FrameHeap × W → Prop} {bm₀ : BusMgr}

theorem BusRule.inv (h : BusRule handler X I E) : BusInv X I E := fun n Q => (h n Q).toQueueInv

theorem onDriver_rule {n : String} {p : Callbacks (FrameHeap × W) → Prog (Driver × FrameHeap × W) Exn Unit}
    {s : BusMgr × W} {d : Driver} (hd : s.1.dev[n]? = some d)
    (hports : ∀ m : String, s.1.dev[m]?.map Driver.port = bm₀.dev[m]?.map Driver.port)
    (hx : s.1.Within X) (hidle : bm₀.Idle → s.1.Idle) {J : FrameHeap × W → Prop}
    (hs : J (s.1.heap, s.2))
    (hp : Triple (At d J) (p (callbacks handler n))
      (fun _ t => Driver.Kept X (fun q => I (Function.update s.1.queues n q)) d t ∧
        (d.kind ≠ .slcan → d.send_queue = [] → t.1.send_queue = []))
      (Driver.Left (fun e q => E e (Function.update s.1.queues n q)) d)) :
    Triple (· = s) (onDriver handler n p) (fun _ => Kept X I bm₀) (Left E bm₀) := by
  obtain ⟨bm, w⟩ := s
  rintro _ rfl
  have h := hp (d, bm.heap, w) ⟨rfl, hs⟩
  rw [exec_onDriver handler p hd]
  rcases he : (p (callbacks handler n)).exec (d, bm.heap, w) with ⟨e | u, d', heap', w'⟩ <;>
    rw [he] at h
  · obtain ⟨hport, hE⟩ := h
    exact ⟨fun m => (ports_insert hd hport m).trans (hports m), by rw [queues_insert]; exact hE⟩
  · obtain ⟨⟨hport, hx', hI⟩, hq⟩ := h
    refine ⟨fun m => (ports_insert hd hport m).trans (hports m), fun m c hc => ?_,
      fun hi m c hc hk => ?_, by rw [queues_insert]; exact hI⟩
    · rw [Std.TreeMap.getElem?_insert] at hc
      split_ifs at hc with hm
      · obtain rfl : d' = c := by simpa using hc
        exact hx'
      · exact hx m c hc
    · rw [Std.TreeMap.getElem?_insert] at hc
      split_ifs at hc with hm
      · obtain rfl : d' = c := by simpa using hc
        have hk' : d.kind ≠ .slcan := by rwa [← (Driver.port_eq hport).2.1]
        exact hq hk' (hidle hi n d hd hk')
      · exact hidle hi m c hc hk

theorem give_rule {I' : (String → List BusFrame) → FrameHeap × W → Prop} (hI : BusInv X I' E)
    {b : BusFrame} {n : String} {d₀ : Driver} (hd₀ : bm₀.dev[n]? = some d₀)
    (hsent : d₀.kind ≠ .slcan → ∀ Q, QueueRule (callbacks handler n) X
      (fun q => I' (Function.update Q n q)) fun e q => E e (Function.update Q n q))
    (hopen : d₀.socket ≠ 0 ∨
      ∀ Q q s, I' (Function.update Q n (b :: q)) s → I' (Function.update Q n q) s)
    (hstep : ∀ bm w, Kept X I bm₀ (bm, w) → I' (Function.update bm.queues n (b :: bm.queues n))
      ((bm.heap.inc_total_endpoint_count b.addr n).touch b.addr (.queued n), w)) :
    Triple (Kept X I bm₀) (give handler b n) (fun _ => Kept X I' bm₀) (Left E bm₀) := by
  rintro ⟨bm, w⟩ hkept
  obtain ⟨hports, hx, hidle, hs⟩ := id hkept
  obtain ⟨d, hd, hport⟩ := exists_port (fun n => (hports n).symm) hd₀
  unfold give
  simp only [exec_bind, exec_modifyFst]
  have hs' := hstep bm w hkept
  rw [queues_of_some hd] at hs'
  set heap' := (bm.heap.inc_total_endpoint_count b.addr n).touch b.addr (.queued n) with hheap
  refine onDriver_rule (I := I') (E := E) (s := ({ bm with heap := heap' }, w)) (d := d)
    (J := I' (Function.update bm.queues n (b :: d.send_queue)))
    (p := fun cb => Driver.send_frame cb b) hd hports hx hidle hs'
    (Driver.send_frame_rule (hI n bm.queues) rfl (hx n d hd) b (fun hk => ?_) ?_) _ rfl
  · rw [(Driver.port_eq hport).2.1] at hk
    exact hsent hk bm.queues
  · rw [(Driver.port_eq hport).2.2.1]
    exact hopen.imp_right fun h q s => h bm.queues q s

theorem on_select_rule (hI : BusRule handler X I E) (hX : ∀ {m e}, Exn.For (.driver m) e → X e)
    (n : String) (answer : ReadAnswer) :
    Triple (Kept X I bm₀) (on_select handler n answer) (fun _ => Kept X I bm₀) (Left E bm₀) := by
  rintro ⟨bm, w⟩ ⟨hports, hx, hidle, hs⟩
  have hs' : I (Function.update bm.queues n (bm.queues n)) (bm.heap, w) := by
    rwa [Function.update_eq_self]
  unfold on_select
  rcases hd : bm.dev[n]? with _ | d
  · rw [exec_onDriver_none handler _ hd]
    have hE := (hI n bm.queues).exit (hX (m := n) (e := .undefined) trivial) hs'
    rw [Function.update_eq_self] at hE
    exact ⟨hports, hE⟩
  · rw [queues_of_some hd] at hs'
    refine onDriver_rule (I := I) (E := E) (d := d)
      (J := I (Function.update bm.queues n d.send_queue))
      (p := fun cb => Driver.recv_data cb answer) hd hports hx hidle hs' ?_ _ rfl
    exact (Driver.recv_data_rule (hI n bm.queues) rfl (hx n d hd) (fun _ he => hX he) answer).conseq
      (fun _ h => h) (fun _ t h => ⟨h.1, fun hk hq => (h.2 hk).trans hq⟩) fun _ _ h => h

/-- `send_frame` to all drivers: `L` of the drivers that have the frame. -/
theorem send_all_rule {L : List String → (String → List BusFrame) → FrameHeap × W → Prop}
    (hL : ∀ pre, BusInv X (L pre) E) {b : BusFrame}
    (hsent : ∀ (pre : List String) (n : String) (post : List String) (d : Driver),
      bm₀.dev.keys = pre ++ n :: post → bm₀.dev[n]? = some d → d.kind ≠ .slcan →
        ∀ Q, QueueRule (callbacks handler n) X (fun q => L (pre ++ [n]) (Function.update Q n q))
          fun e q => E e (Function.update Q n q))
    (hopen : ∀ (n : String) (d : Driver), bm₀.dev[n]? = some d → d.socket ≠ 0 ∨
      ∀ pre Q q s, L pre (Function.update Q n (b :: q)) s → L pre (Function.update Q n q) s)
    (hstart : ∀ Q h w, I Q (h, w) → h.next = b.addr → L [] Q (h.alloc, w))
    (hgive : ∀ pre n post, bm₀.dev.keys = pre ++ n :: post → ∀ bm w, Kept X (L pre) bm₀ (bm, w) →
      L (pre ++ [n]) (Function.update bm.queues n (b :: bm.queues n))
        ((bm.heap.inc_total_endpoint_count b.addr n).touch b.addr (.queued n), w)) :
    Triple (fun s => Kept X I bm₀ s ∧ s.1.heap.next = b.addr)
      (send_frame handler b.frame b.origin b.orgin_client_id b.orgin_msg_id "")
      (fun _ => Kept X (L bm₀.dev.keys) bm₀) (Left E bm₀) := by
  rintro ⟨bm, w⟩ ⟨⟨hports, hx, hidle, hs⟩, haddr⟩
  have hloop := Triple.forEach_prefix bm₀.dev.keys (I := fun pre => Kept X (L pre) bm₀)
    (f := give handler b) (R := Left E bm₀) fun pre n post hl => by
      have hn : n ∈ bm₀.dev := by
        rw [← Std.TreeMap.mem_keys, hl]
        exact List.mem_append_right pre List.mem_cons_self
      obtain ⟨d, hd⟩ := Option.isSome_iff_exists.1 (Std.TreeMap.mem_iff_isSome_getElem?.1 hn)
      exact give_rule (hL _) hd (hsent pre n post d hl hd)
        ((hopen n d hd).imp_right fun h => h (pre ++ [n])) (hgive pre n post hl)
  have hmid : Kept X (L []) bm₀ ({ bm with heap := bm.heap.alloc }, w) :=
    ⟨hports, hx, hidle, hstart _ _ _ hs haddr⟩
  have h := hloop _ hmid
  unfold send_frame
  simp only [exec_bind, exec_getFst, exec_modifyFst, if_true, keys_of_ports hports]
  dsimp only at haddr
  rw [haddr]
  exact h

/-- `send_frame` to any drivers, with an invariant that does not tell them apart. -/
theorem send_frame_rule {L : (String → List BusFrame) → FrameHeap × W → Prop}
    (hL : BusRule handler X L E) {b : BusFrame}
    (hopen : ∀ (n : String) (d : Driver), bm₀.dev[n]? = some d → d.socket ≠ 0 ∨
      ∀ Q q s, L (Function.update Q n (b :: q)) s → L (Function.update Q n q) s)
    (hstart : ∀ Q h w, I Q (h, w) → h.next = b.addr → L Q (h.alloc, w))
    (hgive : ∀ n Q h w, L Q (h, w) → L (Function.update Q n (b :: Q n))
      ((h.inc_total_endpoint_count b.addr n).touch b.addr (.queued n), w)) (endpoint : String) :
    Triple (fun s => Kept X I bm₀ s ∧ s.1.heap.next = b.addr)
      (send_frame handler b.frame b.origin b.orgin_client_id b.orgin_msg_id endpoint)
      (fun _ => Kept X L bm₀) (Left E bm₀) := by
  by_cases he : endpoint = ""
  · subst he
    exact send_all_rule (L := fun _ => L) (fun _ => hL.inv) (fun _ n _ _ _ _ _ => hL n)
      (fun n d hd => (hopen n d hd).imp_right fun h _ => h) hstart
      fun _ n _ _ bm w h => hgive n bm.queues bm.heap w h.inv
  · rintro ⟨bm, w⟩ ⟨⟨hports, hx, hidle, hs⟩, haddr⟩
    have hmid : Kept X L bm₀ ({ bm with heap := bm.heap.alloc }, w) :=
      ⟨hports, hx, hidle, hstart _ _ _ hs haddr⟩
    unfold send_frame
    simp only [exec_bind, exec_getFst, exec_modifyFst, if_neg he, exec_ite]
    dsimp only at haddr
    rw [haddr]
    by_cases hc : bm.dev.contains endpoint = true
    · rw [if_pos hc]
      obtain ⟨d, hd⟩ : ∃ d, bm₀.dev[endpoint]? = some d := by
        rw [Std.TreeMap.contains_eq_isSome_getElem?] at hc
        rw [← Option.isSome_iff_exists, ← Option.isSome_map (f := Driver.port), ← hports,
          Option.isSome_map]
        exact hc
      exact give_rule hL.inv hd (fun _ => hL endpoint) (hopen endpoint d hd)
        (fun bm w h => hgive endpoint bm.queues bm.heap w h.inv) _ hmid
    · rw [if_neg hc]
      exact hmid

end Rules

section Callbacks

variable {handler} {P Q : FrameHeap × W → Prop} {R : Exn → FrameHeap × W → Prop}

/-- A handler that leaves the memory of the frames alone: the frame is completed around it. -/
theorem on_send_frame_rule {n : String} {b : BusFrame}
    (hproc : ∀ h, Triple (fun w => P (h, w)) (handler.process_sent_frame n b)
      (fun _ w => Q (h.complete b.addr n, w))
      fun e w => R e (h.int_completed_endpoint_count b.addr n, w)) :
    Triple P (on_send_frame handler n b) (fun _ => Q) R := by
  rintro ⟨h, w⟩ hs
  have hp := hproc h w hs
  unfold on_send_frame
  simp only [exec_bind, exec_modifyFst, exec_getFst, exec_onSnd, exec_ite, exec_pure]
  rcases he : (handler.process_sent_frame n b).exec w with ⟨e | u, w'⟩ <;> rw [he] at hp
  · exact hp
  · dsimp only at hp ⊢
    unfold FrameHeap.complete at hp
    dsimp only at hp
    split_ifs at hp ⊢ <;> exact hp

theorem on_recv_frame_rule {n : String} {f : H9frame}
    (hproc : ∀ h, Triple (fun w => P (h, w))
      (handler.process_recv_frame n ⟨0, f, n, 0, 0⟩) (fun _ w => Q (h, w)) fun e w => R e (h, w)) :
    Triple P (on_recv_frame handler n f) (fun _ => Q) R :=
  Triple.onSnd hproc

end Callbacks

end BusMgr

end H9
