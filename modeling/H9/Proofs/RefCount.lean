import H9.Proofs.BusRules

/-!
# The endpoints of a frame

A frame sent to all drivers waits at those that have it and are not done with it (`Counted`), and
is deleted when there is none left. While the loop over the drivers counts them, that happens too
early unless the first of them is a serial one, whose reply comes after the loop; or unless it is
the only one.
-/

namespace H9

open Prog

namespace FrameHeap

theorem touches_touch (h : FrameHeap) (a b : ℕ) (t : Touch) :
    (h.touch b t).touches a = h.touches a ++ if b = a then [t] else [] := by
  unfold touch touches
  rw [List.filterMap_append]
  by_cases hb : b = a <;> simp [hb]

theorem touches_inc_total (h : FrameHeap) (a b : ℕ) (n : String) :
    (h.inc_total_endpoint_count b n).touches a =
      h.touches a ++ if b = a then [.counted n] else [] :=
  touches_touch h a b _

theorem touches_int_completed (h : FrameHeap) (a b : ℕ) (n : String) :
    (h.int_completed_endpoint_count b n).touches a =
      h.touches a ++ if b = a then [.completed n] else [] :=
  touches_touch h a b _

/-- What one driver does to the frame at `b` leaves the one at `a` as it is. -/
theorem complete_of_ne {a b : ℕ} (h : FrameHeap) (n : String) (hab : b ≠ a) :
    (h.complete b n).next = h.next ∧ (h.complete b n).counters a = h.counters a ∧
      (h.complete b n).touches a = h.touches a := by
  have hc : (h.int_completed_endpoint_count b n).counters a = h.counters a :=
    Function.update_of_ne (Ne.symm hab) _ _
  have ht : (h.int_completed_endpoint_count b n).touches a = h.touches a := by
    rw [touches_int_completed, if_neg hab, List.append_nil]
  unfold complete
  dsimp only
  split_ifs
  · refine ⟨rfl, hc, ?_⟩
    rw [touches_touch, if_neg hab, List.append_nil, ht]
  · exact ⟨rfl, hc, ht⟩

theorem mem_touch {h : FrameHeap} {a : ℕ} {t : Touch} {e : ℕ × Touch} (he : e ∈ (h.touch a t).log) :
    e ∈ h.log ∨ e.1 = a := by
  rw [touch, List.mem_append, List.mem_singleton] at he
  exact he.imp_right fun he => by rw [he]

theorem mem_int_completed {h : FrameHeap} {a : ℕ} {n : String} {e : ℕ × Touch}
    (he : e ∈ (h.int_completed_endpoint_count a n).log) : e ∈ h.log ∨ e.1 = a := mem_touch he

theorem mem_complete {h : FrameHeap} {a : ℕ} {n : String} {e : ℕ × Touch}
    (he : e ∈ (h.complete a n).log) : e ∈ h.log ∨ e.1 = a := by
  unfold complete at he
  dsimp only at he
  split_ifs at he
  · exact (mem_touch he).elim mem_int_completed .inr
  · exact mem_int_completed he

end FrameHeap

/-- The frame at `a` was given to the drivers `K` and waits at those in `pend`. -/
structure Counted (a : ℕ) (K : List String) (pend : Multiset String) (h : FrameHeap) : Prop where
  fresh : a < h.next
  total : (h.counters a).total_endpoint_count = K.length
  completed : (h.counters a).completed_endpoint_count + pend.card = K.length
  counted : ∀ n ∈ K, .counted n ∈ h.touches a
  once : ∀ n, pend.count n + (h.touches a).count (.completed n) = K.count n
  deleted : .deleted ∈ h.touches a ↔ K ≠ [] ∧ pend = 0
  last : .deleted ∈ h.touches a → ∃ T n, h.touches a = T ++ [.completed n, .deleted] ∧ .deleted ∉ T

namespace Counted

variable {a b : ℕ} {K : List String} {pend : Multiset String} {h h' : FrameHeap} {n : String}

theorem congr (hc : Counted a K pend h) (hn : h.next ≤ h'.next)
    (hcount : h'.counters a = h.counters a) (ht : h'.touches a = h.touches a) :
    Counted a K pend h' where
  fresh := hc.fresh.trans_le hn
  total := hcount ▸ hc.total
  completed := hcount ▸ hc.completed
  counted := ht ▸ hc.counted
  once := ht ▸ hc.once
  deleted := ht ▸ hc.deleted
  last := ht ▸ hc.last

theorem alloc (hc : Counted a K pend h) : Counted a K pend h.alloc :=
  hc.congr (Nat.le_succ _) (Function.update_of_ne hc.fresh.ne _ _) rfl

theorem give_other (hc : Counted a K pend h) (hab : b ≠ a) :
    Counted a K pend ((h.inc_total_endpoint_count b n).touch b (.queued n)) := by
  refine hc.congr le_rfl (Function.update_of_ne (Ne.symm hab) _ _) ?_
  rw [FrameHeap.touches_touch, FrameHeap.touches_inc_total, if_neg hab, if_neg hab,
    List.append_nil, List.append_nil]

theorem complete_other (hc : Counted a K pend h) (hab : b ≠ a) :
    Counted a K pend (h.complete b n) := by
  obtain ⟨hn, hcount, ht⟩ := h.complete_of_ne n hab
  exact hc.congr hn.ge hcount ht

theorem start (ht : h.touches h.next = []) : Counted h.next [] 0 h.alloc := by
  have ht' : h.alloc.touches h.next = [] := ht
  refine ⟨Nat.lt_succ_self _, ?_, ?_, fun n hn => absurd hn List.not_mem_nil, fun n => ?_, ?_, ?_⟩
  · simp [FrameHeap.alloc]
  · simp [FrameHeap.alloc]
  · rw [ht']
    rfl
  · rw [ht']
    simp
  · rw [ht']
    simp

theorem give (hc : Counted a K pend h) (hp : K = [] ∨ pend ≠ 0) :
    Counted a (K ++ [n]) (n ::ₘ pend) ((h.inc_total_endpoint_count a n).touch a (.queued n)) := by
  have ht : ((h.inc_total_endpoint_count a n).touch a (.queued n)).touches a =
      h.touches a ++ [.counted n, .queued n] := by
    rw [FrameHeap.touches_touch, FrameHeap.touches_inc_total, if_pos rfl, if_pos rfl]
    simp
  have hnot : .deleted ∉ h.touches a := fun hd => by
    obtain ⟨hK, h0⟩ := hc.deleted.1 hd
    exact hp.elim (fun hK' => hK hK') fun hp' => hp' h0
  have hnot' : .deleted ∉ h.touches a ++ [.counted n, .queued n] := by
    simpa using hnot
  refine ⟨hc.fresh, ?_, ?_, ?_, ?_, ?_, ?_⟩
  · simp [FrameHeap.inc_total_endpoint_count, FrameHeap.touch, hc.total]
  · simp only [FrameHeap.inc_total_endpoint_count, FrameHeap.touch, Function.update_self,
      Multiset.card_cons, List.length_append, List.length_singleton]
    rw [← hc.completed]
    omega
  · rw [ht]
    intro m hm
    rcases List.mem_append.1 hm with hm | hm
    · exact List.mem_append_left _ (hc.counted m hm)
    · rw [List.mem_singleton.1 hm]
      exact List.mem_append_right _ List.mem_cons_self
  · rw [ht]
    intro m
    rw [List.count_append, List.count_append, ← hc.once m, Multiset.count_cons]
    by_cases hm : m = n
    · subst hm
      simp
      omega
    · simp [hm, Ne.symm hm]
  · rw [ht]
    refine ⟨fun hd => absurd hd hnot', fun hd => absurd hd.2 (Multiset.cons_ne_zero)⟩
  · rw [ht]
    exact fun hd => absurd hd hnot'

theorem complete (hc : Counted a K (n ::ₘ pend) h) : Counted a K pend (h.complete a n) := by
  have hK : K ≠ [] := by
    rintro rfl
    have := hc.once n
    rw [Multiset.count_cons_self] at this
    simp at this
  have hnot : .deleted ∉ h.touches a := fun hd =>
    absurd (hc.deleted.1 hd).2 (Multiset.cons_ne_zero)
  set h₁ := h.int_completed_endpoint_count a n with hh₁
  have ht₁ : h₁.touches a = h.touches a ++ [.completed n] := by
    rw [hh₁, FrameHeap.touches_int_completed, if_pos rfl]
  have htotal : (h₁.counters a).total_endpoint_count = K.length := by
    simp [hh₁, FrameHeap.int_completed_endpoint_count, FrameHeap.touch, hc.total]
  have hcompleted : (h₁.counters a).completed_endpoint_count + pend.card = K.length := by
    simp only [hh₁, FrameHeap.int_completed_endpoint_count, FrameHeap.touch, Function.update_self]
    rw [← hc.completed, Multiset.card_cons]
    omega
  have honce : ∀ m, pend.count m + (h₁.touches a).count (.completed m) = K.count m := by
    intro m
    rw [ht₁, List.count_append, ← hc.once m, Multiset.count_cons]
    by_cases hm : m = n
    · subst hm
      simp
      omega
    · simp [hm, Ne.symm hm]
  have hcounted : ∀ m ∈ K, .counted m ∈ h₁.touches a := fun m hm => by
    rw [ht₁]
    exact List.mem_append_left _ (hc.counted m hm)
  have hnot₁ : .deleted ∉ h₁.touches a := by
    rw [ht₁]
    simpa using hnot
  unfold FrameHeap.complete
  dsimp only
  rw [← hh₁]
  split_ifs with heq
  · have hp : pend = 0 := Multiset.card_eq_zero.1 (by omega)
    have ht₂ : (h₁.touch a .deleted).touches a = h.touches a ++ [.completed n, .deleted] := by
      rw [FrameHeap.touches_touch, if_pos rfl, ht₁, List.append_assoc]
      rfl
    refine ⟨hc.fresh, htotal, hcompleted, fun m hm => ?_, fun m => ?_, ?_, fun _ => ?_⟩
    · rw [FrameHeap.touches_touch]
      exact List.mem_append_left _ (hcounted m hm)
    · rw [FrameHeap.touches_touch, if_pos rfl, List.count_append, ← honce m]
      simp
    · rw [ht₂]
      exact ⟨fun _ => ⟨hK, hp⟩, fun _ => by simp⟩
    · exact ⟨h.touches a, n, ht₂, hnot⟩
  · have hp : pend ≠ 0 := by
      rintro rfl
      rw [Multiset.card_zero] at hcompleted
      omega
    exact ⟨hc.fresh, htotal, hcompleted, hcounted, honce,
      ⟨fun hd => absurd hd hnot₁, fun hd => absurd hd.2 hp⟩, fun hd => absurd hd hnot₁⟩

end Counted

/-- How often each driver has the frame at `a` in its queue. -/
def Waits (a : ℕ) (pend : Multiset String) (Q : String → List BusFrame) : Prop :=
  ∀ n, pend.count n = (Q n).countP (fun b => b.addr = a)

theorem Waits.cons {a : ℕ} {pend : Multiset String} {Q : String → List BusFrame} {n : String}
    {b : BusFrame} {q : List BusFrame} (hq : Q n = q) (h : Waits a pend Q) :
    Waits a (if b.addr = a then n ::ₘ pend else pend) (Function.update Q n (b :: q)) := by
  intro m
  by_cases hm : m = n
  · subst hm
    rw [Function.update_self, List.countP_cons, ← hq, ← h m]
    by_cases hb : b.addr = a <;> simp [hb]
  · rw [Function.update_of_ne hm, ← h m]
    by_cases hb : b.addr = a <;> simp [hb, hm]

theorem Waits.uncons {a : ℕ} {pend : Multiset String} {Q : String → List BusFrame} {n : String}
    {b : BusFrame} {q : List BusFrame} (h : Waits a pend (Function.update Q n (b :: q))) :
    ∃ pend', pend = (if b.addr = a then n ::ₘ pend' else pend') ∧
      Waits a pend' (Function.update Q n q) := by
  have hn := h n
  rw [Function.update_self, List.countP_cons] at hn
  by_cases hb : b.addr = a
  · rw [if_pos (by simpa using hb)] at hn
    have hmem : n ∈ pend := Multiset.count_pos.1 (by omega)
    refine ⟨pend.erase n, by rw [if_pos hb, Multiset.cons_erase hmem], fun m => ?_⟩
    by_cases hm : m = n
    · subst hm
      rw [Function.update_self, Multiset.count_erase_self, hn, Nat.add_sub_cancel]
    · have hm' := h m
      rw [Function.update_of_ne hm] at hm' ⊢
      rwa [Multiset.count_erase_of_ne hm]
  · rw [if_neg (by simpa using hb)] at hn
    refine ⟨pend, by rw [if_neg hb], fun m => ?_⟩
    by_cases hm : m = n
    · subst hm
      rw [Function.update_self]
      exact hn
    · have hm' := h m
      rwa [Function.update_of_ne hm] at hm' ⊢

variable {W : Type}

/-- The frame at `a` was given to `K`, and `C` holds of the drivers it waits at. -/
def Outstanding (a : ℕ) (K : List String) (C : Multiset String → Prop)
    (Q : String → List BusFrame) (s : FrameHeap × W) : Prop :=
  ∃ pend, Waits a pend Q ∧ Counted a K pend s.1 ∧ C pend

/-- Every exit is allowed, and nothing is said after it. -/
def anyExit (_ : Exn) (_ : String → List BusFrame) (_ : FrameHeap × W) : Prop := True

namespace Outstanding

variable {a : ℕ} {K : List String} {C : Multiset String → Prop} {Q : String → List BusFrame}
  {h : FrameHeap} {w : W}

theorem alloc (ho : Outstanding a K C Q (h, w)) : Outstanding a K C Q (h.alloc, w) := by
  obtain ⟨pend, hw, hc, hC⟩ := ho
  exact ⟨pend, hw, hc.alloc, hC⟩

theorem give_other {b : BusFrame} {n : String} (hab : b.addr ≠ a)
    (ho : Outstanding a K C Q (h, w)) : Outstanding a K C (Function.update Q n (b :: Q n))
      ((h.inc_total_endpoint_count b.addr n).touch b.addr (.queued n), w) := by
  obtain ⟨pend, hw, hc, hC⟩ := ho
  have hw' := hw.cons (n := n) (b := b) rfl
  rw [if_neg hab] at hw'
  exact ⟨pend, hw', hc.give_other hab, hC⟩

theorem inv (a : ℕ) (K : List String) (C : Multiset String → Prop) :
    BusMgr.BusInv (fun _ => True) (Outstanding (W := W) a K C) anyExit := by
  refine fun n Q => ⟨?_, fun _ _ => trivial⟩
  rintro q q' s hperm ⟨pend, hw, hc⟩
  refine ⟨pend, fun m => ?_, hc⟩
  have hm := hw m
  by_cases hmn : m = n
  · subst hmn
    rw [Function.update_self] at hm ⊢
    rw [hm, hperm.countP_eq]
  · rw [Function.update_of_ne hmn] at hm ⊢
    exact hm

/-- The callbacks of the driver `n`, if `C` bears that `n` is done with the frame. -/
theorem rule (handler : EventHandler W) {n : String} (hC : ∀ pend, C (n ::ₘ pend) → C pend)
    (Q : String → List BusFrame) :
    QueueRule (BusMgr.callbacks handler n) (fun _ => True)
      (fun q => Outstanding a K C (Function.update Q n q))
      fun e q => anyExit e (Function.update Q n q) where
  toQueueInv := inv a K C n Q
  sent b q := by
    refine BusMgr.on_send_frame_rule fun h w hs => ?_
    obtain ⟨pend, hw, hc, hp⟩ := hs
    obtain ⟨pend', rfl, hw'⟩ := hw.uncons
    split
    · refine ⟨pend', hw', ?_⟩
      by_cases hb : b.addr = a
      · rw [if_pos hb] at hc hp
        rw [hb]
        exact ⟨hc.complete, hC pend' hp⟩
      · rw [if_neg hb] at hc hp
        exact ⟨hc.complete_other hb, hp⟩
    · trivial
  recv f q := by
    refine BusMgr.on_recv_frame_rule fun h w hs => ?_
    split
    · exact hs
    · trivial

end Outstanding

/-- What happened to the frame at `a` begins with `T`. -/
def Grown (a : ℕ) (T : List Touch) (_ : String → List BusFrame) (s : FrameHeap × W) : Prop :=
  T <+: s.1.touches a

/-- Something happened to the frame at `a` after it was deleted. -/
def Overtaken (a : ℕ) (Q : String → List BusFrame) (s : FrameHeap × W) : Prop :=
  ∃ T u, .deleted ∈ T ∧ Grown a (T ++ [u]) Q s

namespace Grown

variable {a : ℕ} {T : List Touch} {Q : String → List BusFrame} {h : FrameHeap} {w : W}

theorem of_touch {b : ℕ} {t : Touch} (hg : T <+: h.touches a) : T <+: (h.touch b t).touches a := by
  rw [FrameHeap.touches_touch]
  exact hg.trans (List.prefix_append _ _)

theorem give {n : String} {b : ℕ} (hg : T <+: h.touches a) :
    T <+: ((h.inc_total_endpoint_count b n).touch b (.queued n)).touches a := by
  refine of_touch ?_
  rw [FrameHeap.touches_inc_total]
  exact hg.trans (List.prefix_append _ _)

theorem complete {n : String} {b : ℕ} (hg : T <+: h.touches a) :
    T <+: (h.complete b n).touches a := by
  have h₁ : T <+: (h.int_completed_endpoint_count b n).touches a := by
    rw [FrameHeap.touches_int_completed]
    exact hg.trans (List.prefix_append _ _)
  unfold FrameHeap.complete
  dsimp only
  split_ifs
  · exact of_touch h₁
  · exact h₁

end Grown

namespace Overtaken

variable {a : ℕ} {Q : String → List BusFrame} {h : FrameHeap} {w : W}

theorem give {n : String} {b : ℕ} {Q' : String → List BusFrame} (ho : Overtaken a Q (h, w)) :
    Overtaken a Q' ((h.inc_total_endpoint_count b n).touch b (.queued n), w) := by
  obtain ⟨T, u, hT, hg⟩ := ho
  exact ⟨T, u, hT, Grown.give hg⟩

theorem rule (handler : EventHandler W) :
    BusMgr.BusRule handler (fun _ => True) (Overtaken a) anyExit := by
  refine fun n Q => ⟨⟨fun _ h => h, fun _ _ => trivial⟩, fun b q => ?_, fun f q => ?_⟩
  · refine BusMgr.on_send_frame_rule fun h w hs => ?_
    obtain ⟨T, u, hT, hg⟩ := hs
    split
    · exact ⟨T, u, hT, Grown.complete hg⟩
    · trivial
  · refine BusMgr.on_recv_frame_rule fun h w hs => ?_
    split
    · exact hs
    · trivial

end Overtaken

/-- A step keeps what the callbacks and a new frame keep. -/
theorem BusStep.run_rule {handler : EventHandler W} {bm₀ : BusMgr} {P : BusFrame → Prop}
    {I : (String → List BusFrame) → FrameHeap × W → Prop}
    (hI : BusMgr.BusRule handler (fun _ => True) I anyExit)
    (hopen : ∀ (n : String) (d : Driver), bm₀.dev[n]? = some d → d.socket ≠ 0)
    (hfresh : ∀ Q h w (b : BusFrame), I Q (h, w) → b.addr = h.next → P b)
    (halloc : ∀ Q h w, I Q (h, w) → I Q (h.alloc, w))
    (hgive : ∀ b : BusFrame, P b → ∀ n Q h w, I Q (h, w) →
      I (Function.update Q n (b :: Q n))
        ((h.inc_total_endpoint_count b.addr n).touch b.addr (.queued n), w)) :
    ∀ step : BusStep, Triple (BusMgr.Kept (fun _ => True) I bm₀) (step.run handler)
      (fun _ => BusMgr.Kept (fun _ => True) I bm₀) (BusMgr.Left anyExit bm₀)
  | .on_select endpoint answer => BusMgr.on_select_rule hI (fun _ => trivial) endpoint answer
  | .send_frame frame origin orgin_client_id orgin_msg_id endpoint => by
    rintro ⟨bm, w⟩ hs
    set b : BusFrame := ⟨bm.heap.next, frame, origin, orgin_client_id, orgin_msg_id⟩
    exact BusMgr.send_frame_rule hI (b := b) (fun n d hd => .inl (hopen n d hd))
      (fun Q h w h' _ => halloc Q h w h') (hgive b (hfresh _ _ _ b hs.inv rfl)) endpoint (bm, w)
      ⟨hs, rfl⟩

/-- The frame is deleted when the last of the drivers `K` is done with it, and nothing happens to
it after that. -/
def DeletedOnce (K : List String) (T : List Touch) : Prop :=
  (∀ pre post, T = pre ++ .deleted :: post → post = [] ∧
    (∀ n ∈ K, .counted n ∈ pre ∧ .completed n ∈ pre) ∧ ∃ n, pre.getLast? = some (.completed n)) ∧
  ((∀ n ∈ K, .completed n ∈ T) → .deleted ∈ T)

theorem Counted.deletedOnce {a : ℕ} {K : List String} {pend : Multiset String} {h : FrameHeap}
    (hc : Counted a K pend h) (hK : K ≠ []) (hnd : K.Nodup) : DeletedOnce K (h.touches a) := by
  have hdone : pend = 0 → ∀ n ∈ K, .completed n ∈ h.touches a := by
    rintro rfl n hn
    have := hc.once n
    rw [Multiset.count_zero, zero_add] at this
    exact List.count_pos_iff.1 (this ▸ List.count_pos_iff.2 hn)
  refine ⟨fun pre post ht => ?_, fun hall => hc.deleted.2 ⟨hK, ?_⟩⟩
  · have hd : .deleted ∈ h.touches a := by
      rw [ht]
      simp
    obtain ⟨T, n, hT, hnot⟩ := hc.last hd
    have hsplit : pre ++ .deleted :: post = (T ++ [.completed n]) ++ .deleted :: [] := by
      rw [← ht, hT]
      simp
    have hnot' : .deleted ∉ T ++ [.completed n] := by simpa using hnot
    obtain ⟨rfl, -, rfl⟩ :=
      (List.append_cons_inj_of_notMem hnot' List.not_mem_nil).1 hsplit.symm
    refine ⟨rfl, fun m hm => ⟨?_, ?_⟩, n, by simp⟩
    · have := hc.counted m hm
      rw [ht] at this
      simpa using this
    · have := hdone (hc.deleted.1 hd).2 m hm
      rw [ht] at this
      simpa using this
  · refine Multiset.eq_zero_of_forall_notMem fun n hn => ?_
    have h1 := hc.once n
    have hn1 : 0 < pend.count n := Multiset.count_pos.2 hn
    have hn2 : 0 < K.count n := by omega
    have hn3 : 0 < (h.touches a).count (.completed n) :=
      List.count_pos_iff.2 (hall n (List.count_pos_iff.1 hn2))
    have := List.nodup_iff_count_le_one.1 hnd n
    omega

namespace BusMgr

/-- The drivers are open, those that are done with a frame at once have none waiting, and an
address that was never given to a frame is not in use. -/
structure Ready (bm : BusMgr) : Prop where
  sockets : ∀ (n : String) (d : Driver), bm.dev[n]? = some d → d.socket ≠ 0
  idle : bm.Idle
  queued : ∀ n, ∀ b ∈ bm.queues n, b.addr < bm.heap.next
  log : ∀ e ∈ bm.heap.log, e.1 < bm.heap.next

theorem Ready.touches {bm : BusMgr} (h : bm.Ready) : bm.heap.touches bm.heap.next = [] := by
  refine List.filterMap_eq_nil_iff.2 fun e he => ?_
  rw [if_neg (h.log e he).ne]

theorem Ready.waits {bm : BusMgr} (h : bm.Ready) : Waits bm.heap.next 0 bm.queues := by
  intro n
  rw [Multiset.count_zero, eq_comm, List.countP_eq_zero]
  intro b hb
  simpa using (h.queued n b hb).ne

variable (handler : EventHandler W)

theorem ready_start {dev : Std.TreeMap String Driver}
    (h : ∀ (n : String) (d : Driver), dev[n]? = some d → d.socket ≠ 0 ∧ d.send_queue = []) :
    Ready ⟨dev, .empty⟩ where
  sockets n d hd := (h n d hd).1
  idle n d hd _ := (h n d hd).2
  queued n b hb := by
    rcases hd : dev[n]? with _ | d
    · rw [queues, hd] at hb
      exact absurd hb List.not_mem_nil
    · rw [queues_of_some hd, (h n d hd).2] at hb
      exact absurd hb List.not_mem_nil
  log _ he := absurd he List.not_mem_nil

/-- The addresses in use are old, and so are those below `k`. -/
structure Old (k : ℕ) (Q : String → List BusFrame) (s : FrameHeap × W) : Prop where
  next : k ≤ s.1.next
  queued : ∀ n, ∀ b ∈ Q n, b.addr < s.1.next
  log : ∀ e ∈ s.1.log, e.1 < s.1.next

theorem Old.congr {k : ℕ} {Q Q' : String → List BusFrame} {h h' : FrameHeap} {w w' : W}
    (ho : Old k Q (h, w)) (hQ : ∀ n, ∀ b ∈ Q' n, b ∈ Q n) (hnext : h'.next = h.next)
    (hlog : ∀ e ∈ h'.log, e ∈ h.log ∨ ∃ n, ∃ b ∈ Q n, e.1 = b.addr) : Old k Q' (h', w') := by
  obtain ⟨hk, hq, hl⟩ := ho
  refine ⟨hk.trans hnext.ge, fun n b hb => (hq n b (hQ n b hb)).trans_eq hnext.symm, fun e he => ?_⟩
  refine Nat.lt_of_lt_of_eq ?_ hnext.symm
  rcases hlog e he with he | ⟨n, b, hb, he⟩
  · exact hl e he
  · exact he ▸ hq n b hb

/-- A driver is done with a frame, or failed to tell. -/
theorem Old.pop {k : ℕ} {Q : String → List BusFrame} {n : String} {b : BusFrame} {q : List BusFrame}
    {h : FrameHeap} {w w' : W} (ho : Old k (Function.update Q n (b :: q)) (h, w)) :
    Old k (Function.update Q n q) (h.complete b.addr n, w') ∧
      Old k (Function.update Q n q) (h.int_completed_endpoint_count b.addr n, w') := by
  have hQ : ∀ m, ∀ c ∈ Function.update Q n q m, c ∈ Function.update Q n (b :: q) m :=
    mem_update fun c hc => List.mem_cons_of_mem b hc
  have hb : ∀ e : ℕ × Touch, e.1 = b.addr → ∃ m, ∃ c ∈ Function.update Q n (b :: q) m, e.1 = c.addr :=
    fun e he => ⟨n, b, by simp, he⟩
  refine ⟨ho.congr hQ ?_ fun e he => (FrameHeap.mem_complete he).imp_right (hb e),
    ho.congr hQ rfl fun e he => (FrameHeap.mem_int_completed he).imp_right (hb e)⟩
  unfold FrameHeap.complete
  dsimp only
  split_ifs <;> rfl

theorem old_rule (k : ℕ) : BusRule handler (fun _ => True) (Old k) anyExit := by
  refine fun n Q => ⟨⟨fun hperm ho => ?_, fun _ _ => trivial⟩, fun b q => ?_, fun f q => ?_⟩
  · exact ho.congr (mem_update fun b hb => hperm.mem_iff.2 hb) rfl fun e he => .inl he
  · refine on_send_frame_rule fun h w hs => ?_
    split
    · exact hs.pop.1
    · trivial
  · refine on_recv_frame_rule fun h w hs => ?_
    split
    · exact ⟨hs.next, hs.queued, hs.log⟩
    · trivial

theorem Old.give {k : ℕ} {Q : String → List BusFrame} {h : FrameHeap} {w : W} {b : BusFrame}
    {n : String} (ho : Old k Q (h, w)) (hb : b.addr < k) :
    Old k (Function.update Q n (b :: Q n))
      ((h.inc_total_endpoint_count b.addr n).touch b.addr (.queued n), w) := by
  obtain ⟨hk, hq, hl⟩ := ho
  have hb' : b.addr < h.next := hb.trans_le hk
  refine ⟨hk, fun m c hc => ?_, fun e he => ?_⟩
  · by_cases hm : m = n
    · subst hm
      rw [Function.update_self] at hc
      rcases List.mem_cons.1 hc with rfl | hc
      · exact hb'
      · exact hq m c hc
    · rw [Function.update_of_ne hm] at hc
      exact hq m c hc
  · rcases FrameHeap.mem_touch he with he | he
    · exact (FrameHeap.mem_touch he).elim (hl e) fun he => he ▸ hb'
    · exact he ▸ hb'

theorem Old.zero {k : ℕ} {Q : String → List BusFrame} {s : FrameHeap × W} (ho : Old k Q s) :
    Old 0 Q s := ⟨Nat.zero_le _, ho.queued, ho.log⟩

/-- The address of a new frame is one of the old ones from then on. -/
theorem send_frame_old {bm₀ : BusMgr} {b : BusFrame}
    {E : Exn → (String → List BusFrame) → FrameHeap × W → Prop}
    (hL : BusRule handler (fun _ => True) (Old (b.addr + 1)) E) (endpoint : String) :
    Triple (fun s => Kept (fun _ => True) (Old 0) bm₀ s ∧ s.1.heap.next = b.addr)
      (send_frame handler b.frame b.origin b.orgin_client_id b.orgin_msg_id endpoint)
      (fun _ => Kept (fun _ => True) (Old 0) bm₀) (Left E bm₀) := by
  refine (send_frame_rule (I := Old 0) (L := Old (b.addr + 1)) hL (fun _ _ _ => .inr fun Q q s ho => ?_)
    ?_ (fun n Q h w ho => ho.give (Nat.lt_succ_self _)) endpoint).conseq (fun _ h => h)
    (fun _ s hs => ⟨hs.ports, hs.within, hs.idle, hs.inv.zero⟩) fun _ _ hs => hs
  · exact ho.congr (mem_update fun c hc => List.mem_cons_of_mem b hc) rfl fun e he => .inl he
  · rintro Q h' w' ⟨-, hq, hl⟩ hnext
    exact ⟨by rw [← hnext]; rfl, fun n c hc => Nat.lt_succ_of_lt (hq n c hc),
      fun e he => Nat.lt_succ_of_lt (hl e he)⟩

theorem Ready.steps {bm : BusMgr} (h : bm.Ready) (w : W) (steps : List BusStep) {s : BusMgr × W}
    (hrun : (forEach steps (BusStep.run handler)).exec (bm, w) = (.ok (), s)) : s.1.Ready := by
  have hstep : ∀ step ∈ steps, Triple (Kept (fun _ => True) (Old 0) bm) (step.run handler)
      (fun _ => Kept (fun _ => True) (Old 0) bm) (Left anyExit bm) := by
    rintro (⟨frame, origin, cid, mid, endpoint⟩ | ⟨endpoint, answer⟩) -
    · rintro ⟨bm', w'⟩ hs
      exact send_frame_old handler (b := ⟨bm'.heap.next, frame, origin, cid, mid⟩) (old_rule handler _)
        endpoint (bm', w') ⟨hs, rfl⟩
    · exact on_select_rule (old_rule handler 0) (fun _ => trivial) endpoint answer
  have hkept := (Triple.forEach steps hstep).ok
    ⟨fun _ => rfl, fun _ _ _ _ _ _ _ => trivial, id, Nat.zero_le _, h.queued, h.log⟩ hrun
  refine ⟨fun n d hd => ?_, hkept.idle h.idle, hkept.inv.queued, hkept.inv.log⟩
  obtain ⟨d₀, hd₀, hp⟩ := exists_port hkept.ports hd
  rw [← (Driver.port_eq hp).2.2.1]
  exact h.sockets n d₀ hd₀

/-- A frame is sent to all drivers, and then the steps are taken. -/
def sendThen (frame : H9frame) (origin : String) (orgin_client_id : ℕ) (orgin_msg_id : UInt64)
    (steps : List BusStep) : Prog (BusMgr × W) Exn Unit := do
  send_frame handler frame origin orgin_client_id orgin_msg_id ""
  forEach steps (BusStep.run handler)

/-- Whether the frame is out too early is decided by the first driver, if there are more. -/
def Safe (bm : BusMgr) : Prop :=
  bm.dev.keys.length = 1 ∨
    ∃ n ∈ bm.dev.keys.head?, ∃ d : Driver, bm.dev[n]? = some d ∧ d.kind = .slcan

section Loop

variable {bm : BusMgr} {n₀ : String} {rest : List String}

theorem kept_refl {I : (String → List BusFrame) → FrameHeap × W → Prop} {w : W}
    (hI : I bm.queues (bm.heap, w)) : Kept (fun _ => True) I bm (bm, w) :=
  ⟨fun _ => rfl, fun _ _ _ _ _ _ _ => trivial, id, hI⟩

/-- While the loop counts the drivers, the frame waits at the first one. -/
theorem send_safe (h : bm.Ready) (hkeys : bm.dev.keys = n₀ :: rest) (hsafe : bm.Safe) (w : W)
    (frame : H9frame) (origin : String) (cid : ℕ) (mid : UInt64) :
    Triple (· = (bm, w)) (send_frame handler frame origin cid mid "")
      (fun _ => Kept (fun _ => True) (Outstanding bm.heap.next bm.dev.keys fun _ => True) bm)
      (Left anyExit bm) := by
  set b : BusFrame := ⟨bm.heap.next, frame, origin, cid, mid⟩ with hb
  have hne : ∀ {pre : List String} {n : String} {post : List String},
      bm.dev.keys = pre ++ n :: post → pre ≠ bm.dev.keys := fun hl h' => by
    have := congrArg List.length (hl.symm.trans h'.symm)
    simp at this
  refine (send_all_rule (I := fun Q s => Waits bm.heap.next 0 Q ∧ s = (bm.heap, w)) (b := b)
    (L := fun pre => Outstanding bm.heap.next pre
      fun pend => pre = [] ∨ pre = bm.dev.keys ∨ n₀ ∈ pend)
    (fun pre => Outstanding.inv _ _ _) ?_ (fun n d hd => .inl (h.sockets n d hd)) ?_ ?_).conseq
    ?_ (fun _ s hs => ?_) fun _ _ hs => hs
  · intro pre n post d hl hd hk
    refine Outstanding.rule handler fun pend hp => ?_
    rcases hp with hp | hp | hp
    · simp at hp
    · exact .inr (.inl hp)
    · rcases hsafe with hone | ⟨n', hn', d', hd', hk'⟩
      · have hlen := congrArg List.length hl
        obtain rfl : pre = [] := by
          refine List.length_eq_zero_iff.1 ?_
          rw [List.length_append, List.length_cons] at hlen
          omega
        obtain rfl : post = [] := by
          refine List.length_eq_zero_iff.1 ?_
          rw [List.nil_append, List.length_cons] at hlen
          omega
        exact .inr (.inl hl.symm)
      · obtain rfl : n₀ = n' := by
          rw [hkeys] at hn'
          simpa using hn'
        have hnn : n₀ ≠ n := by
          rintro rfl
          rw [hd'] at hd
          exact hk (Option.some.inj hd ▸ hk')
        exact .inr (.inr ((Multiset.mem_cons.1 hp).resolve_left hnn))
  · rintro Q h' w' ⟨hw, hs⟩ -
    obtain ⟨rfl, rfl⟩ := Prod.mk.inj hs
    exact ⟨0, hw, Counted.start h.touches, .inl rfl⟩
  · intro pre n post hl bm' w' hs
    obtain ⟨pend, hw, hc, hp⟩ := hs.inv
    have hp' : pre = [] ∨ n₀ ∈ pend := hp.imp_right fun h => h.resolve_left (hne hl)
    refine ⟨n ::ₘ pend, ?_, hc.give (hp'.imp_right fun hm h0 => ?_), ?_⟩
    · have := hw.cons (n := n) (b := b) rfl
      rwa [if_pos rfl] at this
    · rw [h0] at hm
      exact Multiset.notMem_zero _ hm
    · refine .inr (.inr ?_)
      rcases hp' with rfl | hm
      · rw [hkeys, List.nil_append, List.cons.injEq] at hl
        rw [hl.1]
        exact Multiset.mem_cons_self _ _
      · exact Multiset.mem_cons_of_mem hm
  · rintro s rfl
    exact ⟨kept_refl ⟨h.waits, rfl⟩, rfl⟩
  · obtain ⟨pend, hw, hc, -⟩ := hs.inv
    exact ⟨hs.ports, hs.within, hs.idle, pend, hw, hc, trivial⟩

/-- A first driver that is done with the frame at once deletes it, before the next is counted. -/
theorem send_unsafe (h : bm.Ready) {n₁ : String} (hkeys : bm.dev.keys = n₀ :: n₁ :: rest)
    (hsafe : ¬ bm.Safe) (w : W) (frame : H9frame) (origin : String) (cid : ℕ) (mid : UInt64) :
    Triple (· = (bm, w)) (send_frame handler frame origin cid mid "")
      (fun _ => Kept (fun _ => True) (Overtaken bm.heap.next) bm) (Left anyExit bm) := by
  set a := bm.heap.next with ha
  set b : BusFrame := ⟨a, frame, origin, cid, mid⟩ with hb
  -- the drivers counted so far, until there are two
  set L : List String → (String → List BusFrame) → FrameHeap × W → Prop := fun pre =>
    match pre with
    | [] => Outstanding a [] fun _ => True
    | [n] => Outstanding a [n] fun _ => True
    | _ :: _ :: _ => Overtaken a with hL
  have hrule : ∀ pre, BusRule handler (fun _ => True) (L pre) anyExit
    | [] => fun n Q => Outstanding.rule handler (fun _ h => h) Q
    | [_] => fun n Q => Outstanding.rule handler (fun _ h => h) Q
    | _ :: _ :: _ => Overtaken.rule handler
  refine (send_all_rule (I := fun Q s => Waits a 0 Q ∧ s = (bm.heap, w)) (b := b)
    (L := L) (fun pre => (hrule pre).inv) (fun pre n post d _ _ _ => hrule (pre ++ [n]) n)
    (fun n d hd => .inl (h.sockets n d hd)) ?_ ?_).conseq ?_ (fun _ s hs => ?_) fun _ _ hs => hs
  · rintro Q h' w' ⟨hw, hs⟩ -
    obtain ⟨rfl, rfl⟩ := Prod.mk.inj hs
    exact ⟨0, hw, Counted.start h.touches, trivial⟩
  · intro pre n post hl bm' w' hs
    rcases pre with _ | ⟨m, _ | ⟨m', pre⟩⟩
    · obtain ⟨pend, hw, hc, -⟩ := hs.inv
      have hw' := hw.cons (n := n) (b := b) rfl
      rw [if_pos rfl] at hw'
      exact ⟨n ::ₘ pend, hw', hc.give (.inl rfl), trivial⟩
    · obtain ⟨pend, hw, hc, -⟩ := hs.inv
      obtain rfl : n₀ = m := by
        rw [hkeys] at hl
        simpa using (List.cons.inj hl).1
      have hq : bm'.queues n₀ = [] := by
        rcases hd' : bm'.dev[n₀]? with _ | d'
        · rw [queues, hd']
          rfl
        · rw [queues_of_some hd']
          refine hs.idle h.idle n₀ d' hd' fun hk => hsafe (.inr ⟨n₀, by rw [hkeys]; rfl, ?_⟩)
          obtain ⟨d, hd, hp⟩ := exists_port hs.ports hd'
          exact ⟨d, hd, (Driver.port_eq hp).2.1.trans hk⟩
      have hpend : pend = 0 := by
        refine Multiset.eq_zero_of_forall_notMem fun m hm => ?_
        have h1 := hc.once m
        have h2 := Multiset.count_pos.2 hm
        by_cases hmn : m = n₀
        · subst hmn
          have h3 := hw m
          rw [show (bm', w').1.queues m = [] from hq, List.countP_nil] at h3
          omega
        · rw [List.count_singleton, if_neg (by simpa using Ne.symm hmn)] at h1
          omega
      refine ⟨bm'.heap.touches a, .counted n, hc.deleted.2 ⟨List.cons_ne_nil _ _, hpend⟩, ?_⟩
      refine Grown.of_touch ?_
      rw [FrameHeap.touches_inc_total, if_pos rfl]
    · exact (show Overtaken a _ _ from hs.inv).give
  · rintro s rfl
    exact ⟨kept_refl ⟨h.waits, rfl⟩, rfl⟩
  · have := hs.inv
    rw [hkeys] at this
    exact ⟨hs.ports, hs.within, hs.idle, this⟩

end Loop

section Steps

variable {bm : BusMgr} {a : ℕ}
  (hopen : ∀ (n : String) (d : Driver), bm.dev[n]? = some d → d.socket ≠ 0)
include hopen

theorem steps_outstanding (K : List String) (steps : List BusStep) :
    Triple (Kept (fun _ => True) (Outstanding a K fun _ => True) bm)
      (forEach steps (BusStep.run handler))
      (fun _ => Kept (fun _ => True) (Outstanding a K fun _ => True) bm) (Left anyExit bm) :=
  Triple.forEach steps fun step _ => BusStep.run_rule
    (fun _ Q => Outstanding.rule handler (fun _ h => h) Q) hopen
    (P := fun b => b.addr ≠ a) (fun _ _ _ _ ⟨_, _, hc, _⟩ hb => hb ▸ hc.fresh.ne')
    (fun _ _ _ h => h.alloc) (fun _ hb _ _ _ _ h => h.give_other hb) step

theorem steps_overtaken (steps : List BusStep) :
    Triple (Kept (fun _ => True) (Overtaken a) bm) (forEach steps (BusStep.run handler))
      (fun _ => Kept (fun _ => True) (Overtaken a) bm) (Left anyExit bm) :=
  Triple.forEach steps fun step _ => BusStep.run_rule (Overtaken.rule handler) hopen
    (P := fun _ => True) (fun _ _ _ _ _ _ => trivial) (fun _ _ _ h => h)
    (fun _ _ _ _ _ _ h => h.give) step

end Steps

theorem not_deletedOnce {K : List String} {a : ℕ} {Q : String → List BusFrame}
    {s : FrameHeap × W} (h : Overtaken a Q s) : ¬ DeletedOnce K (s.1.touches a) := by
  obtain ⟨T, u, hT, rest, hrest⟩ := h
  obtain ⟨pre, post, rfl⟩ := List.append_of_mem hT
  intro hd
  have := (hd.1 pre (post ++ [u] ++ rest) (by rw [← hrest]; simp)).1
  simp at this

/-- In any run that returns, a frame sent to all drivers is deleted once, by the driver that is
done with it last, if and only if there is one driver or the first is a serial one. -/
theorem send_frame_deletedOnce {bm : BusMgr} (h : bm.Ready) (hne : bm.dev.keys ≠ []) (w : W)
    (frame : H9frame) (origin : String) (cid : ℕ) (mid : UInt64) (steps : List BusStep)
    {s : BusMgr × W}
    (hrun : (sendThen handler frame origin cid mid steps).exec (bm, w) = (.ok (), s)) :
    DeletedOnce bm.dev.keys (s.1.heap.touches bm.heap.next) ↔ bm.Safe := by
  obtain ⟨n₀, rest, hkeys⟩ := List.exists_cons_of_ne_nil hne
  by_cases hsafe : bm.Safe
  · refine iff_of_true ?_ hsafe
    have hall := Triple.bind (send_safe handler h hkeys hsafe w frame origin cid mid)
      fun _ => steps_outstanding handler h.sockets _ steps
    obtain ⟨pend, -, hc, -⟩ := (hall.ok rfl hrun).inv
    exact hc.deletedOnce hne Std.TreeMap.nodup_keys
  · refine iff_of_false ?_ hsafe
    obtain ⟨n₁, rest, rfl⟩ : ∃ n₁ rest', rest = n₁ :: rest' := by
      refine List.exists_cons_of_ne_nil ?_
      rintro rfl
      exact hsafe (.inl (by rw [hkeys]; rfl))
    have hall := Triple.bind ( send_unsafe handler h hkeys hsafe w frame origin cid mid)
      fun _ => steps_overtaken handler h.sockets steps
    exact not_deletedOnce (hall.ok rfl hrun).inv

/-- A handler that does nothing. -/
def quiet : EventHandler Unit where
  process_recv_frame _ _ := pure ()
  process_sent_frame _ _ := pure ()

/-- Two drivers that are open. -/
def sample (k₀ k₁ : DriverKind) : BusMgr where
  dev := ((∅ : Std.TreeMap String Driver).insert "can0"
    { Driver.new "can0" k₀ with socket := 5, connected := true }).insert "can1"
    { Driver.new "can1" k₁ with socket := 6, connected := true }
  heap := .empty

theorem sample_ready (k₀ k₁ : DriverKind) : (sample k₀ k₁).Ready := by
  refine ready_start fun n d hd => ?_
  simp only [Std.TreeMap.getElem?_insert, Std.LawfulEqCmp.compare_eq_iff_eq] at hd
  split_ifs at hd
  · obtain rfl := Option.some.inj hd
    exact ⟨Nat.succ_ne_zero 5, rfl⟩
  · obtain rfl := Option.some.inj hd
    exact ⟨Nat.succ_ne_zero 4, rfl⟩
  · simp at hd

/-- The serial driver is the first, and its adapter replies. -/
theorem send_frame_deletedOnce_serial : DeletedOnce (sample .slcan .dummy).dev.keys
    (((sendThen quiet H9frame.new "" 0 0 [.on_select "can0" ⟨.ok ['\r'], .new⟩]).exec
      (sample .slcan .dummy, ())).2.1.heap.touches 1) :=
  (send_frame_deletedOnce quiet (sample_ready .slcan .dummy) (by decide +kernel) () H9frame.new "" 0 0
    [.on_select "can0" ⟨.ok ['\r'], .new⟩] rfl).2
    (.inr ⟨"can0", by decide +kernel, _, rfl, rfl⟩)

/-- Two drivers that are done with a frame at once: the first deletes it, and the second is
counted, gets it and deletes it again. -/
theorem not_send_frame_deletedOnce : ¬ ∀ (W : Type) (handler : EventHandler W) (bm : BusMgr) (w : W)
    (frame : H9frame) (origin : String) (cid : ℕ) (mid : UInt64) (steps : List BusStep)
    (s : BusMgr × W), bm.Ready → bm.dev.keys ≠ [] →
      (sendThen handler frame origin cid mid steps).exec (bm, w) = (.ok (), s) →
        DeletedOnce bm.dev.keys (s.1.heap.touches bm.heap.next) := by
  intro h
  have := (h Unit quiet (sample .dummy .loop) () H9frame.new "" 0 0 [] _
    (sample_ready .dummy .loop) (by decide +kernel) rfl).1
    [.counted "can0", .queued "can0", .completed "can0"]
    [.counted "can1", .queued "can1", .completed "can1", .deleted] (by decide +kernel)
  exact absurd this.1 (List.cons_ne_nil _ _)

end BusMgr

end H9
