import H9.FrameSubject

/-!
# Each frame to its observers

`operator<` is no order of all comparators, but it is one of those that h9d uses, which differ in
nothing but whether they ask for a source and for which. So the map groups the observers that are
attached by their comparators (`Holds`), whatever calls came before, and a frame goes through the
groups whose comparator asks for it.
-/

namespace H9

/-- The comparator of an observer. -/
def Watched (c : H9FrameComparator) : Prop := ∃ w : Watcher, w.comparator = c

/-- Whether a watcher is to get the frame: the `DevMgr` any, a node those from its id. -/
def Watcher.Matches : Watcher → H9frame → Prop
  | devMgr, _ => True
  | node node_id, frame => frame.source_id.toNat = node_id.toNat

instance (w : Watcher) (frame : H9frame) : Decidable (w.Matches frame) :=
  match w with
  | .devMgr => inferInstanceAs (Decidable True)
  | .node node_id => inferInstanceAs (Decidable (frame.source_id.toNat = node_id.toNat))

/-- The place of a watcher in the order: the `DevMgr`, then the nodes by their ids. -/
def Watcher.rank : Watcher → ℕ
  | devMgr => 0
  | node node_id => node_id.toNat + 1

theorem Watcher.rank_injective {w w' : Watcher} (h : w.rank = w'.rank) : w = w' := by
  cases w <;> cases w' <;> simp [rank, UInt16.toNat_inj] at h ⊢
  exact h

namespace H9FrameComparator

/-- Of the comparators in use the one is less whose watcher comes first. -/
theorem less_comparator (w w' : Watcher) :
    w.comparator.less w'.comparator = decide (w.rank < w'.rank) := by
  cases w <;> cases w' <;>
    simp [less, Watcher.comparator, Watcher.rank, ofSource, new, set_source_id, SOURCE_ID,
      UInt16.lt_iff_toNat_lt]

theorem strict_less : OrdMap.Strict less Watched where
  irrefl := by
    rintro _ ⟨w, rfl⟩
    simp [less_comparator]
  trans := by
    rintro _ _ _ ⟨w, rfl⟩ ⟨w', rfl⟩ ⟨w'', rfl⟩ h h'
    rw [less_comparator, decide_eq_true_eq] at h h' ⊢
    exact h.trans h'
  connected := by
    rintro _ _ ⟨w, rfl⟩ ⟨w', rfl⟩ h h'
    rw [less_comparator, decide_eq_false_iff_not] at h h'
    have hrank : w.rank = w'.rank := by omega
    rw [Watcher.rank_injective hrank]

theorem compares_new (field : UInt8) : new.compares field = false := by
  simp [compares, new]

/-- The comparator of a node looks at the source only. -/
theorem compares_ofSource (node_id : UInt16) (field : UInt8) :
    (ofSource node_id).compares field = decide (SOURCE_ID &&& field ≠ 0) := by
  have hfields : (ofSource node_id).fields_to_compare = SOURCE_ID := UInt8.zero_or
  rw [compares, hfields]

/-- A comparator in use asks for the frames that its watcher is to get. -/
theorem eqFrame_comparator (w : Watcher) (frame : H9frame) :
    w.comparator.eqFrame frame = true ↔ w.Matches frame := by
  unfold eqFrame
  cases w with
  | devMgr => simp [Watcher.comparator, compares_new, Watcher.Matches]
  | node node_id =>
    have hsource : decide (SOURCE_ID &&& SOURCE_ID ≠ 0) = true := by decide
    have hpriority : decide (SOURCE_ID &&& PRIORITY ≠ 0) = false := by decide
    have htype : decide (SOURCE_ID &&& TYPE ≠ 0) = false := by decide
    have hseqnum : decide (SOURCE_ID &&& SEQNUM ≠ 0) = false := by decide
    have hdestination : decide (SOURCE_ID &&& DESTINATION_ID ≠ 0) = false := by decide
    have hdata : decide (SOURCE_ID &&& DATA ≠ 0) = false := by decide
    have hfirst : decide (SOURCE_ID &&& FIRST_DATA_BYTE ≠ 0) = false := by decide
    have hid : (ofSource node_id).source_id = node_id := rfl
    simp only [Watcher.comparator, compares_ofSource, hsource, hpriority, htype, hseqnum,
      hdestination, hdata, hfirst, hid, Bool.false_eq_true, false_and, if_false, true_and,
      Watcher.Matches]
    split_ifs with h
    · exact iff_of_false id fun heq => h heq.symm
    · exact iff_of_true rfl (not_not.1 h).symm

end H9FrameComparator

namespace FrameSubject

variable {O : Type} [DecidableEq O]

/-- The observers attached after the calls, each with what it watches. -/
def attached (calls : List (SubjectCall O)) : List (O × Watcher) :=
  calls.foldl (fun l => fun
    | .attach_frame_observer observer watcher => (observer, watcher) :: l
    | .detach_frame_observer observer => l.filter fun p => p.1 ≠ observer
    | .notify_frame_observer _ => l) []

/-- The observer that a call attaches. -/
def attaches : SubjectCall O → Option O
  | .attach_frame_observer observer _ => some observer
  | _ => none

/-- No observer is attached twice. -/
def AttachOnce (calls : List (SubjectCall O)) : Prop := (calls.filterMap attaches).Nodup

/-- The groups of the subject are the observers by their comparators, in the order of these. -/
structure Holds (s : FrameSubject O) (l : List (O × Watcher)) : Prop where
  ordered : OrdMap.Ordered H9FrameComparator.less s.frame_observers
  keys : ∀ e ∈ s.frame_observers, Watched e.1
  members : (OrdMap.members s.frame_observers).Perm (l.map fun p => (p.1, p.2.comparator))

omit [DecidableEq O] in
theorem holds_new : (new : FrameSubject O).Holds [] :=
  ⟨List.Pairwise.nil, by simp [new], by simp [new, OrdMap.members]⟩

omit [DecidableEq O] in
theorem Holds.attach {s : FrameSubject O} {l : List (O × Watcher)} (h : s.Holds l) (observer : O)
    (watcher : Watcher) :
    (s.attach_frame_observer observer watcher.comparator).Holds ((observer, watcher) :: l) where
  ordered := h.ordered.modify H9FrameComparator.strict_less ⟨watcher, rfl⟩ h.keys
  keys := OrdMap.forall_keys_modify h.keys ⟨watcher, rfl⟩
  members := (OrdMap.members_modify H9FrameComparator.strict_less ⟨watcher, rfl⟩ observer
    h.keys).trans (h.members.cons _)

theorem Holds.detach {s : FrameSubject O} {l : List (O × Watcher)} (h : s.Holds l) (observer : O) :
    (s.detach_frame_observer observer).Holds (l.filter fun p => p.1 ≠ observer) where
  ordered := h.ordered.remove observer
  keys := OrdMap.forall_keys_remove h.keys observer
  members := by
    have hfilter := h.members.filter fun p => p.1 ≠ observer
    rw [← OrdMap.members_remove, List.filter_map] at hfilter
    exact hfilter

theorem holds_run (calls : List (SubjectCall O)) : (new.run calls).Holds (attached calls) := by
  induction calls using List.reverseRecOn with
  | nil => exact holds_new
  | append_singleton calls call ih =>
    rw [run, List.foldl_append, attached, List.foldl_append]
    cases call with
    | attach_frame_observer observer watcher => exact ih.attach observer watcher
    | detach_frame_observer observer => exact ih.detach observer
    | notify_frame_observer frame => exact ih

theorem attaches_of_attached {calls : List (SubjectCall O)} :
    ∀ p ∈ attached calls, p.1 ∈ calls.filterMap attaches := by
  induction calls using List.reverseRecOn with
  | nil => simp [attached]
  | append_singleton calls call ih =>
    rw [attached, List.foldl_append, List.filterMap_append]
    intro p hp
    rw [List.mem_append]
    cases call with
    | attach_frame_observer observer watcher =>
      rcases List.mem_cons.1 hp with rfl | hp
      · exact .inr (by simp [attaches])
      · exact .inl (ih p hp)
    | detach_frame_observer observer => exact .inl (ih p (List.mem_of_mem_filter hp))
    | notify_frame_observer frame => exact .inl (ih p hp)

/-- An observer is attached with one comparator at most. -/
theorem nodup_attached {calls : List (SubjectCall O)} (h : AttachOnce calls) :
    ((attached calls).map Prod.fst).Nodup := by
  induction calls using List.reverseRecOn with
  | nil => simp [attached]
  | append_singleton calls call ih =>
    rw [AttachOnce, List.filterMap_append] at h
    have ih := ih h.of_append_left
    rw [attached, List.foldl_append]
    cases call with
    | attach_frame_observer observer watcher =>
      refine List.nodup_cons.2 ⟨fun hmem => ?_, ih⟩
      obtain ⟨p, hp, hobserver⟩ := List.mem_map.1 hmem
      exact (List.disjoint_of_nodup_append h) (hobserver ▸ attaches_of_attached p hp)
        (by simp [attaches])
    | detach_frame_observer observer => exact ih.sublist (List.filter_sublist.map _)
    | notify_frame_observer frame => exact ih

omit [DecidableEq O] in
theorem notify_eq (frame : H9frame) : ∀ m : List (H9FrameComparator × List O),
    notify_frame_observer ⟨m⟩ frame =
      ((OrdMap.members m).filter fun p => p.2.eqFrame frame).map Prod.fst
  | [] => rfl
  | e :: m => by
    have ih := notify_eq frame m
    rw [notify_frame_observer] at ih ⊢
    rw [List.flatMap_cons, ih, OrdMap.members_cons, List.filter_append, List.map_append,
      List.filter_map]
    cases he : e.1.eqFrame frame <;> simp [he, Function.comp_def]

omit [DecidableEq O] in
/-- The observers that get a frame are those attached whose watcher is to get it. -/
theorem Holds.notify {s : FrameSubject O} {l : List (O × Watcher)} (h : s.Holds l)
    (frame : H9frame) : (s.notify_frame_observer frame).Perm
      ((l.filter fun p => decide (p.2.Matches frame)).map Prod.fst) := by
  have hperm := (h.members.filter fun p => p.2.eqFrame frame).map Prod.fst
  rw [List.filter_map, List.map_map] at hperm
  have hmatches : l.filter (fun p => decide (p.2.Matches frame)) =
      l.filter fun p => p.2.comparator.eqFrame frame :=
    List.filter_congr fun p _ => by
      rw [Bool.eq_iff_iff, decide_eq_true_iff, H9FrameComparator.eqFrame_comparator]
  rw [hmatches]
  exact (List.Perm.of_eq (notify_eq frame _)).trans hperm

omit [DecidableEq O] in
theorem Holds.mem_notify {s : FrameSubject O} {l : List (O × Watcher)} (h : s.Holds l)
    {frame : H9frame} {observer : O} :
    observer ∈ s.notify_frame_observer frame ↔ ∃ w, (observer, w) ∈ l ∧ w.Matches frame := by
  rw [(h.notify frame).mem_iff]
  simp

theorem notify_perm (calls : List (SubjectCall O)) (frame : H9frame) :
    ((new.run calls).notify_frame_observer frame).Perm
      (((attached calls).filter fun p => decide (p.2.Matches frame)).map Prod.fst) :=
  (holds_run calls).notify frame

/-- A notification calls each observer that is attached and is to get the frame once, and no other,
after any calls that attach no observer twice. -/
theorem notify_once {calls pre post : List (SubjectCall O)} {frame : H9frame}
    (hcalls : calls = pre ++ .notify_frame_observer frame :: post) (honce : AttachOnce calls)
    (observer : O) :
    (∀ w, (observer, w) ∈ attached pre → w.Matches frame →
      ((new.run pre).notify_frame_observer frame).count observer = 1) ∧
    ((∀ w, (observer, w) ∈ attached pre → ¬ w.Matches frame) →
      ((new.run pre).notify_frame_observer frame).count observer = 0) := by
  have hpre : AttachOnce pre := by
    rw [AttachOnce, hcalls, List.filterMap_append] at honce
    exact honce.of_append_left
  have hnodup := (nodup_attached hpre).sublist
    ((List.filter_sublist (p := fun p => decide (p.2.Matches frame))).map Prod.fst)
  rw [(notify_perm pre frame).count_eq]
  constructor
  · intro w hw hmatches
    refine List.count_eq_one_of_mem hnodup (List.mem_map.2 ⟨(observer, w), ?_, rfl⟩)
    exact List.mem_filter.2 ⟨hw, decide_eq_true hmatches⟩
  · intro hnone
    refine List.count_eq_zero.2 fun hmem => ?_
    obtain ⟨⟨observer', w⟩, hw, rfl⟩ := List.mem_map.1 hmem
    obtain ⟨hw, hmatches⟩ := List.mem_filter.1 hw
    exact hnone w hw (of_decide_eq_true hmatches)

/-- A manager and four nodes, two of them with one id, of which one is detached. -/
theorem notify_once_node :
    let pre : List (SubjectCall ℕ) := [.attach_frame_observer 0 .devMgr,
      .attach_frame_observer 1 (.node 7), .attach_frame_observer 2 (.node 3),
      .attach_frame_observer 3 (.node 7), .attach_frame_observer 4 (.node 7),
      .detach_frame_observer 3]
    let frame : H9frame := { H9frame.new with source_id := 7 }
    (new.run pre).notify_frame_observer frame = [0, 1, 4] ∧
      ((new.run pre).notify_frame_observer frame).count 4 = 1 := by
  intro pre frame
  have hcalls : pre ++ [.notify_frame_observer frame] = pre ++ .notify_frame_observer frame :: [] :=
    rfl
  refine ⟨by decide, (notify_once hcalls ?_ 4).1 (.node 7) ?_ ?_⟩
  · change List.Nodup _
    decide
  · decide
  · decide

end FrameSubject

end H9
