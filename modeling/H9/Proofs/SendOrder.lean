import H9.Proofs.SlcanRun

/-!
# The order in which frames are reported

What a driver reported, and then what its queue gives back when it is emptied, is one list
(`outgoing`). Reporting the front leaves that list as it is, so only a frame that is submitted can
put a later frame before an earlier one. How it moves the others depends on the priorities in the
queue alone: with `Room` for it every frame keeps its place among those of its priority, and
without it some frame loses it (`fifo_push_iff`).
-/

namespace H9

open Prog

/-! ### The priorities in a queue -/

def PriorityLess : Priority → Priority → Bool
  | .LOW, .HIGH => true
  | _, _ => false

/-- The priorities of the frames, in the order of the vector. -/
def priorities (q : List BusFrame) : List Priority := q.map fun b => b.frame.priority

/-- A queue with those priorities takes a frame of priority `x` without moving one frame past
another of its priority. -/
def Room : List Priority → Priority → Bool
  | [], _ => true
  | [_], _ => true
  | [.HIGH, _], _ => true
  | [.LOW, .LOW], .LOW => true
  | [.HIGH, .LOW, .HIGH], _ => true
  | [.HIGH, .LOW, .LOW], .HIGH => true
  | [.HIGH, .HIGH, .LOW], .HIGH => true
  | [.HIGH, .HIGH, .LOW, .HIGH], .HIGH => true
  | [.HIGH, .HIGH, .HIGH, .LOW], .LOW => true
  | [.HIGH, .HIGH, .LOW, .LOW], .HIGH => true
  | _, _ => false

/-- The priorities of a queue that only took frames with room for them. -/
def shapes : List (List Priority) :=
  [[], [.HIGH], [.LOW], [.HIGH, .HIGH], [.HIGH, .LOW], [.LOW, .LOW], [.HIGH, .HIGH, .HIGH],
    [.HIGH, .HIGH, .LOW], [.HIGH, .LOW, .HIGH], [.HIGH, .LOW, .LOW], [.LOW, .LOW, .LOW],
    [.HIGH, .HIGH, .HIGH, .LOW], [.HIGH, .HIGH, .LOW, .HIGH], [.HIGH, .HIGH, .LOW, .LOW],
    [.HIGH, .LOW, .HIGH, .LOW], [.HIGH, .HIGH, .LOW, .HIGH, .HIGH],
    [.HIGH, .HIGH, .HIGH, .LOW, .LOW], [.HIGH, .HIGH, .LOW, .LOW, .HIGH]]

namespace Slots

variable (ps : List Priority) (x : Priority)

/-- `BusFrameLess` of the frames in two places of the queue, the last one being that of the frame
submitted. -/
def less (i j : ℕ) : Bool := PriorityLess (ps.getD i x) (ps.getD j x)

/-- The places, in the order in which the queue gives them back. -/
def before : List ℕ := Heap.drain (less ps x) ps.length (List.range ps.length)

/-- The same with the frame submitted. -/
def after : List ℕ :=
  Heap.drain (less ps x) (ps.length + 1) (Heap.push (less ps x) (List.range ps.length) ps.length)

/-- Of two places of a priority the first was the first before, or the second is new. -/
def Kept : Prop :=
  (after ps x).Pairwise fun i j => ps.getD i x = ps.getD j x →
    i < ps.length ∧ (j = ps.length ∨ [i, j].Sublist (before ps x))

instance : Decidable (Kept ps x) := inferInstanceAs (Decidable (List.Pairwise _ _))

/-- Of some two places of a priority the first was the second before, or the first is new. -/
def Moved : Prop :=
  ∃ i ∈ after ps x, ∃ j ∈ after ps x, [i, j].Sublist (after ps x) ∧ ps.getD i x = ps.getD j x ∧
    (i = ps.length ∧ j < ps.length ∨ [j, i].Sublist (before ps x))

instance : Decidable (Moved ps x) := inferInstanceAs (Decidable (∃ i ∈ _, _))

theorem shapes_push : ∀ ps ∈ shapes, ∀ x ∈ [Priority.HIGH, .LOW],
    Room ps x = true ∧ Kept ps x ∧ Heap.push PriorityLess ps x ∈ shapes ∨
      Room ps x = false ∧ Moved ps x := by
  decide

theorem shapes_pop : ∀ ps ∈ shapes, Heap.pop PriorityLess ps ∈ shapes := by decide

end Slots

/-! ### The frames in a queue -/

/-- Frames of a priority stand in the order of their addresses. -/
def Fifo (l : List BusFrame) : Prop :=
  l.Pairwise fun x y => x.frame.priority = y.frame.priority → x.addr < y.addr

theorem priorityLess_map (x y : BusFrame) :
    PriorityLess x.frame.priority y.frame.priority = BusFrameLess x y := rfl

theorem priorities_push (q : List BusFrame) (b : BusFrame) :
    priorities (Heap.push BusFrameLess q b) =
      Heap.push PriorityLess (priorities q) b.frame.priority :=
  (Heap.push_map priorityLess_map q b).symm

theorem priorities_pop (q : List BusFrame) :
    priorities (Heap.pop BusFrameLess q) = Heap.pop PriorityLess (priorities q) :=
  (Heap.pop_map priorityLess_map q).symm

section Push

variable (q : List BusFrame) (b : BusFrame)

/-- The frame in a place of the queue; `b` in all others. -/
def place (i : ℕ) : BusFrame := q.getD i b

theorem place_of_lt {i : ℕ} (h : i < q.length) : place q b i ∈ q := by
  rw [place, List.getD_eq_getElem _ _ h]
  exact List.getElem_mem h

theorem place_length : place q b q.length = b := by
  rw [place, List.getD_eq_default _ _ le_rfl]

theorem place_range : (List.range q.length).map (place q b) = q := by
  refine List.ext_getElem (by simp) fun i h h' => ?_
  rw [List.getElem_map, List.getElem_range, place, List.getD_eq_getElem _ _ h']

theorem place_priority (i : ℕ) :
    (place q b i).frame.priority = (priorities q).getD i b.frame.priority :=
  (Heap.getD_map (f := fun b : BusFrame => b.frame.priority) q i b).symm

theorem place_less (i j : ℕ) : BusFrameLess (place q b i) (place q b j) =
    Slots.less (priorities q) b.frame.priority i j := by
  rw [Slots.less, ← place_priority, ← place_priority, priorityLess_map]

theorem drain_places : Heap.drain BusFrameLess q.length q =
    (Slots.before (priorities q) b.frame.priority).map (place q b) := by
  have hlen : (priorities q).length = q.length := by simp [priorities]
  rw [Slots.before, hlen, ← Heap.drain_map (place_less q b), place_range]

theorem drain_push_places : Heap.drain BusFrameLess (q.length + 1) (Heap.push BusFrameLess q b) =
    (Slots.after (priorities q) b.frame.priority).map (place q b) := by
  have hlen : (priorities q).length = q.length := by simp [priorities]
  have hpush := Heap.push_map (place_less q b) (List.range q.length) q.length
  rw [place_range, place_length] at hpush
  rw [Slots.after, hlen, ← Heap.drain_map (place_less q b), hpush]

variable {q b}

theorem fifo_push (hb : ∀ x ∈ q, x.addr < b.addr) (hq : Fifo (Heap.drain BusFrameLess q.length q))
    (h : Slots.Kept (priorities q) b.frame.priority) :
    Fifo (Heap.drain BusFrameLess (q.length + 1) (Heap.push BusFrameLess q b)) := by
  have hlen : (priorities q).length = q.length := by simp [priorities]
  rw [drain_push_places]
  rw [drain_places q b] at hq
  refine List.pairwise_map.2 (h.imp fun {i j} hij hp => ?_)
  rw [place_priority, place_priority] at hp
  obtain ⟨hi, rfl | hsub⟩ := hij hp
  · rw [hlen] at hi ⊢
    rw [place_length]
    exact hb _ (place_of_lt q b hi)
  · have hpair := hq.sublist (hsub.map (place q b))
    have hmem : place q b j ∈ [place q b j] := List.mem_singleton_self _
    exact (List.pairwise_cons.1 hpair).1 _ hmem (by rw [place_priority, place_priority, hp])

theorem not_fifo_push (hb : ∀ x ∈ q, x.addr < b.addr)
    (hq : Fifo (Heap.drain BusFrameLess q.length q))
    (h : Slots.Moved (priorities q) b.frame.priority) :
    ¬ Fifo (Heap.drain BusFrameLess (q.length + 1) (Heap.push BusFrameLess q b)) := by
  have hlen : (priorities q).length = q.length := by simp [priorities]
  obtain ⟨i, -, j, -, hsub, hp, hij⟩ := h
  rw [drain_push_places]
  rw [drain_places q b] at hq
  rw [← place_priority, ← place_priority] at hp
  intro hf
  have hlt : (place q b i).addr < (place q b j).addr :=
    (List.pairwise_cons.1 (hf.sublist (hsub.map (place q b)))).1 _ (List.mem_singleton_self _) hp
  have hgt : (place q b j).addr < (place q b i).addr := by
    rcases hij with ⟨rfl, hj⟩ | hsub'
    · rw [hlen] at hj ⊢
      rw [place_length]
      exact hb _ (place_of_lt q b hj)
    · exact (List.pairwise_cons.1 (hq.sublist (hsub'.map (place q b)))).1 _
        (List.mem_singleton_self _) hp.symm
  omega

/-- A frame leaves the others in their order if and only if there is room for it. -/
theorem fifo_push_iff (hs : priorities q ∈ shapes) (hb : ∀ x ∈ q, x.addr < b.addr)
    (hq : Fifo (Heap.drain BusFrameLess q.length q)) :
    Fifo (Heap.drain BusFrameLess (q.length + 1) (Heap.push BusFrameLess q b)) ↔
      Room (priorities q) b.frame.priority = true := by
  have hx : b.frame.priority ∈ [Priority.HIGH, .LOW] := by cases b.frame.priority <;> simp
  rcases Slots.shapes_push _ hs _ hx with ⟨hroom, hkept, -⟩ | ⟨hroom, hmoved⟩
  · exact iff_of_true (fifo_push hb hq hkept) hroom
  · exact iff_of_false (not_fifo_push hb hq hmoved) (by simp [hroom])

theorem shapes_queue (hs : priorities q ∈ shapes)
    (h : Room (priorities q) b.frame.priority = true) :
    priorities (Heap.push BusFrameLess q b) ∈ shapes := by
  have hx : b.frame.priority ∈ [Priority.HIGH, .LOW] := by cases b.frame.priority <;> simp
  rw [priorities_push]
  rcases Slots.shapes_push _ hs _ hx with ⟨-, -, hpush⟩ | ⟨hroom, -⟩
  · exact hpush
  · rw [hroom] at h
    cases h

end Push

/-! ### What a driver reports -/

variable {W : Type} (cb : Callbacks W)

namespace Driver

/-- The frames reported, and those that would follow if nothing more was submitted. -/
def outgoing (d : Driver) : List BusFrame :=
  SlcanRun.reported d.trace ++ Heap.drain BusFrameLess d.send_queue.length d.send_queue

/-- `d'` is `d` after some of its queue was reported. -/
structure Ahead (d d' : Driver) : Prop where
  outgoing : d'.outgoing = d.outgoing
  socket : d'.socket = d.socket
  shape : priorities d.send_queue ∈ shapes → priorities d'.send_queue ∈ shapes

theorem Ahead.refl (d : Driver) : Ahead d d := ⟨rfl, rfl, id⟩

theorem Ahead.trans {d d' d'' : Driver} (h : Ahead d d') (h' : Ahead d' d'') : Ahead d d'' :=
  ⟨h'.outgoing.trans h.outgoing, h'.socket.trans h.socket, fun hs => h'.shape (h.shape hs)⟩

theorem ahead_of_queue {d d' : Driver} (hq : d'.send_queue = d.send_queue)
    (ht : SlcanRun.reported d'.trace = SlcanRun.reported d.trace) (hs : d'.socket = d.socket) :
    Ahead d d' := by
  refine ⟨?_, hs, fun h => by rwa [hq]⟩
  rw [Driver.outgoing, Driver.outgoing, hq, ht]

theorem ahead_reportedOn {d : Driver} {top : BusFrame} {rest : List BusFrame}
    (hq : d.send_queue = top :: rest) : Ahead d (d.reportedOn top) := by
  have hpop : (d.reportedOn top).send_queue = Heap.pop BusFrameLess (top :: rest) := by
    rw [reportedOn, hq]
  refine ⟨?_, rfl, fun hs => ?_⟩
  · have htrace : SlcanRun.reported (d.reportedOn top).trace =
        SlcanRun.reported d.trace ++ [top] := List.filterMap_append
    rw [Driver.outgoing, Driver.outgoing, htrace, hpop, hq, Heap.length_pop, List.append_assoc]
    rfl
  · rw [hpop, priorities_pop, ← hq]
    exact Slots.shapes_pop _ hs

theorem ahead_wroteTo (d : Driver) (b : BusFrame) : Ahead d (d.wroteTo b) := by
  refine ahead_of_queue rfl ?_ rfl
  rw [wroteTo, SlcanRun.reported, List.filterMap_append]
  simp [SlcanRun.reported]

/-- A write takes an answer, or the frame goes to the serial line, or nothing happens. -/
theorem write_cases (d : Driver) (b : BusFrame) (w : W) :
    ((write b).exec (d, w)).2.1 = d ∨
      ((write b).exec (d, w)).2.1 = { d with writes := d.writes.tail } ∨
      ((write b).exec (d, w)).2.1 = d.wroteTo b := by
  unfold write
  rcases hk : d.kind with _ | _ | _ | _ <;> rcases hw : d.writes with _ | ⟨_ | _ | x, as⟩
  case slcan.cons.error | socketcan.cons.error =>
    by_cases hx : x = Errno.ENXIO <;> simp [hk, hw, hx]
  all_goals simp [hk, hw]

theorem ahead_write (d : Driver) (b : BusFrame) (w : W) : Ahead d ((write b).exec (d, w)).2.1 := by
  rcases write_cases d b w with h | h | h <;> rw [h]
  · exact .refl d
  · exact ahead_of_queue rfl rfl rfl
  · exact ahead_wroteTo d b

/-- Each round reports the front. -/
theorem ahead_on_frame_send : ∀ (n : ℕ) (d : Driver) (w : W),
    Ahead d ((on_frame_send cb n).exec (d, w)).2.1
  | 0, d, _ => .refl d
  | n + 1, d, w => by
    unfold on_frame_send
    simp only [exec_bind, exec_getFst]
    rcases hq : d.send_queue with _ | ⟨top, rest⟩
    · exact .refl d
    · have hfront := ahead_reportedOn hq
      simp only [exec_bind, exec_modifyFst, exec_onSnd, exec_getFst]
      rcases (cb.send_frame top).exec w with ⟨_ | _, w'⟩
      · exact hfront
      · dsimp only
        rcases (d.reportedOn top).send_queue with _ | ⟨next, rest'⟩
        · exact hfront
        · have hwrite := ahead_write (d.reportedOn top) next w'
          simp only [exec_bind]
          rcases hres : (write next).exec (d.reportedOn top, w') with ⟨_ | _, d', w''⟩
          · rw [hres] at hwrite
            exact hfront.trans hwrite
          · rw [hres] at hwrite
            dsimp only
            split_ifs
            · exact (hfront.trans hwrite).trans (ahead_on_frame_send n d' w'')
            · exact hfront.trans hwrite

theorem ahead_send_data (d : Driver) (b : BusFrame) (w : W) :
    Ahead d ((send_data cb b).exec (d, w)).2.1 := by
  have hwrite := ahead_write d b w
  unfold send_data
  simp only [exec_bind]
  rcases hres : (write b).exec (d, w) with ⟨_ | _, d', w'⟩
  · rw [hres] at hwrite
    exact hwrite
  · rw [hres] at hwrite
    simp only [exec_getFst]
    split_ifs
    · exact hwrite.trans (ahead_on_frame_send cb _ d' w')
    · exact hwrite

/-- A frame goes into the queue of a driver that is open. -/
theorem ahead_send_frame {d : Driver} (hs : d.socket ≠ 0) (b : BusFrame) (w : W) :
    Ahead (d.queued b) ((send_frame cb b).exec (d, w)).2.1 := by
  unfold send_frame
  simp only [exec_bind, exec_getFst, if_neg hs, exec_modifyFst]
  split_ifs with hq
  · rw [queued_of_nil hq]
    exact ahead_send_data cb (d.queued b) b w
  · exact .refl _

theorem send_frame_closed {d : Driver} (hs : d.socket = 0) (b : BusFrame) (w : W) :
    ((send_frame cb b).exec (d, w)).2.1 = d := by
  unfold send_frame
  simp [hs]

theorem ahead_parse_cr (d : Driver) (w : W) :
    Ahead d ((parse_response cb ['\r']).exec (d, w)).2.1 := by
  rw [parse_cr]
  split_ifs
  · have hlast : Ahead d { d with last_send := none } := ahead_of_queue rfl rfl rfl
    exact hlast.trans (ahead_on_frame_send cb _ _ w)
  · exact .refl d

theorem outgoing_perm (d : Driver) :
    d.outgoing.Perm (SlcanRun.reported d.trace ++ d.send_queue) :=
  (Heap.drain_perm BusFrameLess _ _ le_rfl).append_left _

theorem length_queued (d : Driver) (b : BusFrame) :
    (d.queued b).send_queue.length = d.send_queue.length + 1 :=
  (Heap.push_perm BusFrameLess d.send_queue b).length_eq

theorem outgoing_queued_perm (d : Driver) (b : BusFrame) :
    (d.queued b).outgoing.Perm (d.outgoing ++ [b]) := by
  have hpush := Heap.push_perm BusFrameLess d.send_queue b
  refine (outgoing_perm _).trans ((hpush.append_left _).trans (List.perm_middle.trans ?_))
  exact ((outgoing_perm d).symm.cons b).trans (List.perm_append_singleton b _).symm

theorem fifo_queued_iff {d : Driver} {b : BusFrame} (hs : priorities d.send_queue ∈ shapes)
    (hf : Fifo d.outgoing) (hb : ∀ x ∈ d.outgoing, x.addr < b.addr) :
    Fifo (d.queued b).outgoing ↔
      Room (priorities d.send_queue) b.frame.priority = true := by
  have hbq : ∀ x ∈ d.send_queue, x.addr < b.addr := fun x hx =>
    hb x ((outgoing_perm d).mem_iff.2 (List.mem_append_right _ hx))
  obtain ⟨hrep, hdrain, hcross⟩ := List.pairwise_append.1 hf
  have hiff := fifo_push_iff hs hbq hdrain
  rw [← length_queued] at hiff
  rw [← hiff]
  refine ⟨fun h => (List.pairwise_append.1 h).2.1, fun h => ?_⟩
  refine List.pairwise_append.2 ⟨hrep, h, fun x hx y hy hp => ?_⟩
  rw [(Heap.drain_perm BusFrameLess _ _ le_rfl).mem_iff] at hy
  rcases List.mem_cons.1 ((Heap.push_perm BusFrameLess d.send_queue b).mem_iff.1 hy) with rfl | hy
  · exact hb x (List.mem_append_left _ hx)
  · exact hcross x hx y ((Heap.drain_perm BusFrameLess _ _ le_rfl).mem_iff.2 hy) hp

end Driver

namespace SlcanRun

/-- A driver of any kind that is open on the descriptor `fd`, with no frame, and the answers to
its writes. -/
def sending (kind : DriverKind) (name : String) (fd : ℕ) (writes : List WriteAnswer) (w : W) :
    SlcanRun W where
  state := ({ Driver.new name kind with socket := fd, connected := true, writes := writes }, w)
  accepted := []

/-- Of each priority, the frames reported are the first ones accepted. -/
def InOrder (s : SlcanRun W) : Prop :=
  ∀ p : Priority, ((reported s.state.1.trace).filter fun b => b.frame.priority = p) <+:
    s.accepted.filter fun b => b.frame.priority = p

/-- There is room for each frame that is submitted. -/
def Roomy : List LineStep → SlcanRun W → Prop
  | [], _ => True
  | e :: es, s =>
    (match e with
      | .send_frame b => Room (priorities s.state.1.send_queue) b.frame.priority = true
      | .acknowledge => True) ∧ Roomy es (s.step cb e)

/-- The frames accepted, at the addresses 0, 1 and so on, are those reported and in the queue,
unless the driver has no descriptor and takes none. -/
structure Lined (s : SlcanRun W) : Prop where
  fresh : s.accepted.map BusFrame.addr = List.range s.accepted.length
  held : s.state.1.socket ≠ 0 → s.state.1.outgoing.Perm s.accepted
  shut : s.state.1.socket = 0 → s.state.1.outgoing = []

/-- Those of a priority will be reported in the order of their addresses. -/
structure Orderly (s : SlcanRun W) : Prop extends Lined s where
  shape : priorities s.state.1.send_queue ∈ shapes
  fifo : Fifo s.state.1.outgoing

theorem orderly_sending (kind : DriverKind) (name : String) (fd : ℕ) (writes : List WriteAnswer)
    (w : W) : (sending kind name fd writes w).Orderly where
  fresh := rfl
  held _ := List.Perm.refl _
  shut _ := rfl
  shape := by simp [sending, Driver.new, priorities, shapes]
  fifo := List.Pairwise.nil

theorem Lined.addr_lt {s : SlcanRun W} (h : s.Lined) : ∀ x ∈ s.accepted,
    x.addr < s.accepted.length := fun x hx => by
  have hmem := List.mem_map_of_mem (f := BusFrame.addr) hx
  rwa [h.fresh, List.mem_range] at hmem

theorem Lined.mem_accepted {s : SlcanRun W} (h : s.Lined) {x : BusFrame}
    (hx : x ∈ s.state.1.outgoing) : x ∈ s.accepted := by
  by_cases hs : s.state.1.socket = 0
  · rw [h.shut hs] at hx
    cases hx
  · exact (h.held hs).mem_iff.1 hx

theorem Lined.ahead {s : SlcanRun W} (h : s.Lined) {t : Driver × W}
    (ha : Driver.Ahead s.state.1 t.1) : Lined ⟨t, s.accepted⟩ where
  fresh := h.fresh
  held hs := by rw [ha.outgoing]; exact h.held (by rwa [← ha.socket])
  shut hs := by rw [ha.outgoing]; exact h.shut (by rwa [← ha.socket])

theorem Orderly.ahead {s : SlcanRun W} (h : s.Orderly) {t : Driver × W}
    (ha : Driver.Ahead s.state.1 t.1) : Orderly ⟨t, s.accepted⟩ where
  toLined := h.toLined.ahead ha
  shape := ha.shape h.shape
  fifo := by rw [ha.outgoing]; exact h.fifo

/-- The run with `b` in the driver's queue. -/
def queued (s : SlcanRun W) (b : BusFrame) : SlcanRun W where
  state := (s.state.1.queued { b with addr := s.accepted.length }, s.state.2)
  accepted := s.accepted ++ [{ b with addr := s.accepted.length }]

theorem lined_fresh {s : SlcanRun W} (h : s.Lined) (b : BusFrame) :
    (s.accepted ++ [{ b with addr := s.accepted.length }]).map BusFrame.addr =
      List.range (s.accepted ++ [{ b with addr := s.accepted.length }]).length := by
  rw [List.map_append, h.fresh, List.length_append, List.length_singleton, List.range_succ]
  rfl

theorem lined_queued {s : SlcanRun W} (h : s.Lined) (hs : s.state.1.socket ≠ 0) (b : BusFrame) :
    (s.queued b).Lined where
  fresh := lined_fresh h b
  held _ := (Driver.outgoing_queued_perm _ _).trans ((h.held hs).append_right _)
  shut hs' := absurd hs' hs

theorem fifo_queued_iff {s : SlcanRun W} (h : s.Orderly) (b : BusFrame) :
    Fifo (s.queued b).state.1.outgoing ↔
      Room (priorities s.state.1.send_queue) b.frame.priority = true :=
  Driver.fifo_queued_iff h.shape h.fifo fun _ hx => h.addr_lt _ (h.mem_accepted hx)

theorem orderly_queued {s : SlcanRun W} (h : s.Orderly) (hs : s.state.1.socket ≠ 0) {b : BusFrame}
    (hroom : Room (priorities s.state.1.send_queue) b.frame.priority = true) :
    (s.queued b).Orderly where
  toLined := lined_queued h.toLined hs b
  shape := shapes_queue (b := { b with addr := s.accepted.length }) h.shape hroom
  fifo := (fifo_queued_iff h b).2 hroom

/-- A driver with no descriptor takes no frame. -/
theorem orderly_closed {s : SlcanRun W} (h : s.Orderly) (hs : s.state.1.socket = 0) (b : BusFrame) :
    (s.step cb (.send_frame b)).Orderly := by
  have hsame : (s.step cb (.send_frame b)).state.1 = s.state.1 :=
    Driver.send_frame_closed cb hs _ _
  refine ⟨⟨lined_fresh h.toLined b, fun hs' => ?_, fun _ => ?_⟩, ?_, ?_⟩
  · rw [hsame] at hs'
    exact absurd hs hs'
  · rw [hsame]
    exact h.shut hs
  · rw [hsame]
    exact h.shape
  · rw [hsame]
    exact h.fifo

theorem orderly_send {s : SlcanRun W} (h : s.Orderly) {b : BusFrame}
    (hroom : Room (priorities s.state.1.send_queue) b.frame.priority = true) :
    (s.step cb (.send_frame b)).Orderly := by
  by_cases hs : s.state.1.socket = 0
  · exact orderly_closed cb h hs b
  · exact (orderly_queued h hs hroom).ahead (Driver.ahead_send_frame cb hs _ _)

theorem orderly_acknowledge {s : SlcanRun W} (h : s.Orderly) :
    (s.step cb .acknowledge).Orderly :=
  h.ahead (Driver.ahead_parse_cr cb _ _)

theorem run_orderly : ∀ (es : List LineStep) {s : SlcanRun W}, s.Orderly → Roomy cb es s →
    (run cb es s).Orderly
  | [], _, h, _ => h
  | .send_frame b :: es, s, h, hr => by
    change (run cb es (s.step cb (.send_frame b))).Orderly
    exact run_orderly es (orderly_send cb h hr.1) hr.2
  | .acknowledge :: es, s, h, hr => by
    change (run cb es (s.step cb .acknowledge)).Orderly
    exact run_orderly es (orderly_acknowledge cb h) hr.2

/-- What is reported in the order of the addresses comes first among the frames accepted. -/
theorem Orderly.inOrder {s : SlcanRun W} (h : s.Orderly) : s.InOrder := by
  intro p
  by_cases hs : s.state.1.socket = 0
  · have hnil := h.shut hs
    rw [Driver.outgoing, List.append_eq_nil_iff] at hnil
    rw [hnil.1]
    exact List.nil_prefix
  · have haddr : s.accepted.Pairwise fun x y => x.addr < y.addr := by
      have hsorted : (s.accepted.map BusFrame.addr).Pairwise (· < ·) := by
        rw [h.fresh]
        exact List.pairwise_lt_range
      exact List.pairwise_map.1 hsorted
    have hout : (s.state.1.outgoing.filter fun b => b.frame.priority = p).Pairwise
        fun x y => x.addr < y.addr := by
      refine List.pairwise_filter.2 (h.fifo.imp fun hxy hx hy => hxy ?_)
      rw [of_decide_eq_true hx, of_decide_eq_true hy]
    have heq : (s.state.1.outgoing.filter fun b => b.frame.priority = p) =
        s.accepted.filter fun b => b.frame.priority = p :=
      ((h.held hs).filter _).eq_of_pairwise (fun x y _ _ hxy hyx => absurd hxy hyx.asymm) hout
        (haddr.filter _)
    rw [← heq, Driver.outgoing, List.filter_append]
    exact List.prefix_append _ _

/-- While there is room for each frame that is submitted, the frames of a priority are reported in
the order in which they were accepted. -/
theorem run_inOrder (kind : DriverKind) (name : String) (fd : ℕ) (writes : List WriteAnswer) (w : W)
    (es : List LineStep) (h : Roomy cb es (sending kind name fd writes w)) :
    (run cb es (sending kind name fd writes w)).InOrder :=
  (run_orderly cb es (orderly_sending kind name fd writes w) h).inOrder

/-- Three frames of a priority, acknowledged one after another. -/
theorem run_inOrder_three : (run quiet [.send_frame (sample .LOW), .send_frame (sample .LOW),
    .send_frame (sample .LOW), .acknowledge, .acknowledge, .acknowledge]
      (sending .slcan "can0" 5 [] ())).InOrder := by
  refine run_inOrder quiet .slcan "can0" 5 [] () _ ?_
  exact ⟨by decide, by decide, by decide, trivial, trivial, trivial, trivial⟩

/-- Of four frames of a priority the third is reported second. -/
theorem not_always_inOrder : ¬ ∀ (W : Type) (cb : Callbacks W) (kind : DriverKind) (name : String)
    (fd : ℕ) (writes : List WriteAnswer) (w : W) (es : List LineStep),
      (run cb es (sending kind name fd writes w)).InOrder := by
  intro h
  have := h Unit quiet .slcan "can0" 5 [] () [.send_frame (sample .LOW), .send_frame (sample .LOW),
    .send_frame (sample .LOW), .send_frame (sample .LOW), .acknowledge, .acknowledge] .LOW
  revert this
  decide +kernel

/-! ### The room is needed -/

theorem Roomy.earlier : ∀ {pre es : List LineStep} {s : SlcanRun W}, pre <+: es →
    Roomy cb es s → Roomy cb pre s
  | [], _, _, _, _ => trivial
  | e :: pre, es, s, hp, h => by
    obtain ⟨t, rfl⟩ := hp
    exact ⟨h.1, Roomy.earlier ⟨t, rfl⟩ h.2⟩

theorem step_socket (s : SlcanRun W) : ∀ e : LineStep,
    (s.step cb e).state.1.socket = s.state.1.socket
  | .send_frame b => by
    by_cases hs : s.state.1.socket = 0
    · exact congrArg Driver.socket (Driver.send_frame_closed cb hs _ _)
    · exact (Driver.ahead_send_frame cb hs _ _).socket
  | .acknowledge => (Driver.ahead_parse_cr cb _ _).socket

/-- There was room for all frames if and only if at no time the frames reported and those that
would follow if nothing more was submitted were out of order. -/
theorem roomy_iff : ∀ (es : List LineStep) {s : SlcanRun W}, s.Orderly → s.state.1.socket ≠ 0 →
    (Roomy cb es s ↔ ∀ pre, pre <+: es → Fifo (run cb pre s).state.1.outgoing)
  | [], s, h, _ => by
    refine iff_of_true trivial fun pre hp => ?_
    rw [List.prefix_nil.1 hp]
    exact h.fifo
  | e :: es, s, h, hs => by
    refine ⟨fun hr pre hp => (run_orderly cb pre h (Roomy.earlier cb hp hr)).fifo, fun hf => ?_⟩
    have hone : Fifo (s.step cb e).state.1.outgoing := hf [e] ⟨es, rfl⟩
    have hfst : Roomy cb [e] s := by
      refine ⟨?_, trivial⟩
      rcases e with b | _
      · have ha : (s.step cb (.send_frame b)).state.1.outgoing = (s.queued b).state.1.outgoing :=
          (Driver.ahead_send_frame cb hs _ _).outgoing
        exact (fifo_queued_iff h b).1 (by rwa [← ha])
      · trivial
    have ih := roomy_iff es (run_orderly cb [e] h hfst) (by rw [run, run, step_socket]; exact hs)
    refine ⟨hfst.1, ih.2 fun pre hp => hf (e :: pre) ?_⟩
    exact List.cons_prefix_cons.2 ⟨rfl, hp⟩

end SlcanRun

/-! ### The record drivers -/

namespace Driver

theorem write_record {d : Driver} (hk : d.kind ≠ .slcan) (b : BusFrame) (w : W) :
    ((write b).exec (d, w)).2.1 = d ∨
      ((write b).exec (d, w)).2.1 = { d with writes := d.writes.tail } := by
  unfold write
  rcases h : d.kind with _ | _ | _ | _
  case slcan => exact absurd h hk
  all_goals rcases hw : d.writes with _ | ⟨_ | _ | x, as⟩
  case socketcan.cons.error => by_cases hx : x = Errno.ENXIO <;> simp [h, hw, hx]
  all_goals simp [h, hw]

/-- A record driver reports the frame at once, or it stays in the queue because its write
failed. -/
structure Sent (d d' : Driver) (b : BusFrame) : Prop where
  kind : d'.kind = d.kind
  last_send : d'.last_send = d.last_send
  socket : d'.socket = d.socket
  reported : d'.send_queue = [] ∧
      SlcanRun.reported d'.trace = SlcanRun.reported d.trace ++ [b] ∨
    d'.send_queue ≠ [] ∧ SlcanRun.reported d'.trace = SlcanRun.reported d.trace

/-- A driver that is done with the only frame in its queue calls back, and that is all. -/
theorem exec_on_frame_send_last {d : Driver} {b : BusFrame} (hq : d.send_queue = [b]) (w : W) :
    (on_frame_send cb 1).exec (d, w) =
      (((cb.send_frame b).exec w).1, d.reportedOn b, ((cb.send_frame b).exec w).2) := by
  have hpop : (d.reportedOn b).send_queue = [] := by
    rw [reportedOn, hq]
    rfl
  unfold on_frame_send
  simp only [exec_bind, exec_getFst, hq, exec_modifyFst, exec_onSnd]
  rcases (cb.send_frame b).exec w with ⟨_ | _, w'⟩
  · rfl
  · simp [hpop]

theorem sent_reportedOn {d : Driver} {b : BusFrame} (hq : d.send_queue = [b]) :
    Sent d (d.reportedOn b) b := by
  refine ⟨rfl, rfl, rfl, .inl ⟨?_, List.filterMap_append⟩⟩
  rw [reportedOn, hq]
  rfl

theorem sent_send_frame {d : Driver} (hk : d.kind ≠ .slcan) (hs : d.socket ≠ 0)
    (hq : d.send_queue = []) (b : BusFrame) (w : W) :
    Sent d ((send_frame cb b).exec (d, w)).2.1 b := by
  have hwrite := write_record (d := d.queued b) hk b w
  unfold send_frame
  simp only [exec_bind, exec_getFst, if_neg hs, if_pos hq, exec_modifyFst, queued_of_nil hq]
  unfold send_data
  simp only [exec_bind]
  rcases hres : (write b).exec (d.queued b, w) with ⟨r, d', w'⟩
  rw [hres] at hwrite
  have hd' : d'.send_queue = [b] ∧ d'.kind = d.kind ∧ d'.last_send = d.last_send ∧
      d'.socket = d.socket ∧ d'.trace = d.trace := by
    rcases hwrite with rfl | rfl <;> exact ⟨queued_of_nil hq b, rfl, rfl, rfl, rfl⟩
  obtain ⟨hq', hk', hl', hs', ht'⟩ := hd'
  rcases r with e | u
  · exact ⟨hk', hl', hs', .inr ⟨by simp [hq'], congrArg SlcanRun.reported ht'⟩⟩
  · have hlast := exec_on_frame_send_last cb hq' w'
    have hne : d'.kind ≠ .slcan := by rwa [hk']
    obtain ⟨hk'', hl'', hs'', hrep⟩ := sent_reportedOn hq'
    simp only [exec_getFst, if_pos hne, hq', List.length_singleton, hlast]
    refine ⟨hk''.trans hk', hl''.trans hl', hs''.trans hs', ?_⟩
    rwa [ht'] at hrep

end Driver

namespace SlcanRun

/-- A record driver has reported all frames it accepted, or a write failed and it reports no
more. -/
structure Prompt (s : SlcanRun W) : Prop where
  kind : s.state.1.kind ≠ .slcan
  idle : s.state.1.last_send = none
  first : reported s.state.1.trace <+: s.accepted
  all : s.state.1.socket ≠ 0 → s.state.1.send_queue = [] → reported s.state.1.trace = s.accepted

theorem prompt_acknowledge {s : SlcanRun W} (h : s.Prompt) : (s.step cb .acknowledge).Prompt := by
  have hsame : (s.step cb .acknowledge).state.1 = s.state.1 := by
    have hcr := Driver.parse_cr cb s.state.1 s.state.2
    rw [h.idle] at hcr
    exact hcr
  refine ⟨?_, ?_, ?_, ?_⟩ <;> rw [hsame]
  · exact h.kind
  · exact h.idle
  · exact h.first
  · exact h.all

theorem prompt_send {s : SlcanRun W} (h : s.Prompt) (b : BusFrame) :
    (s.step cb (.send_frame b)).Prompt := by
  have hpre : s.accepted <+: s.accepted ++ [{ b with addr := s.accepted.length }] :=
    List.prefix_append _ _
  by_cases hs : s.state.1.socket = 0
  · have hsame : (s.step cb (.send_frame b)).state.1 = s.state.1 :=
      Driver.send_frame_closed cb hs _ _
    refine ⟨?_, ?_, ?_, fun hs' => ?_⟩ <;> rw [hsame] at *
    · exact h.kind
    · exact h.idle
    · exact h.first.trans hpre
    · exact absurd hs hs'
  · by_cases hq : s.state.1.send_queue = []
    · obtain ⟨hk, hl, -, hrep⟩ := Driver.sent_send_frame cb h.kind hs hq
        { b with addr := s.accepted.length } s.state.2
      rw [h.all hs hq] at hrep
      refine ⟨fun he => h.kind (hk.symm.trans he), hl.trans h.idle, ?_, fun _ hq' => ?_⟩
      · rcases hrep with ⟨-, hrep⟩ | ⟨-, hrep⟩
        · exact ⟨[], (List.append_nil _).trans hrep⟩
        · exact ⟨_, congrArg (· ++ _) hrep⟩
      · rcases hrep with ⟨-, hrep⟩ | ⟨hne, -⟩
        · exact hrep
        · exact absurd hq' hne
    · have hsame : (s.step cb (.send_frame b)).state.1 = (s.queued b).state.1 := by
        change ((Driver.send_frame cb _).exec s.state).2.1 = _
        unfold Driver.send_frame
        simp only [exec_bind, exec_getFst, if_neg hs, if_neg hq, exec_modifyFst]
        rfl
      refine ⟨?_, ?_, ?_, fun _ hq' => ?_⟩ <;> rw [hsame] at *
      · exact h.kind
      · exact h.idle
      · exact h.first.trans hpre
      · exact absurd hq' (Heap.push_ne_nil _ _ _)

theorem run_prompt : ∀ (es : List LineStep) {s : SlcanRun W}, s.Prompt → (run cb es s).Prompt
  | [], _, h => h
  | .send_frame b :: es, _, h => run_prompt es (prompt_send cb h b)
  | .acknowledge :: es, _, h => run_prompt es (prompt_acknowledge cb h)

/-- A driver that completes a frame when it writes it keeps the order of all frames. -/
theorem record_inOrder {kind : DriverKind} (hk : kind ≠ .slcan) (name : String) (fd : ℕ)
    (writes : List WriteAnswer) (w : W) (es : List LineStep) :
    (run cb es (sending kind name fd writes w)).InOrder := by
  have hstart : (sending kind name fd writes w).Prompt :=
    ⟨hk, rfl, List.prefix_rfl, fun _ _ => rfl⟩
  exact fun p => (run_prompt cb es hstart).first.filter _

end SlcanRun

end H9
