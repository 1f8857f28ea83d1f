import H9.SendPromises

/-!
# What a sender is told

A promise in `send_promise_map` is that of the call with the id under which it is, and has no value. A
call whose promise is no longer there, before it has erased it, was told what a message with its id as
request-id says, and that message was processed since the call began.
-/

namespace H9

open Bus Promise

namespace Bus

theorem Reply.value_injective {r r' : Reply} (h : r.value = r'.value) : r = r' := by
  cases r <;> cases r' <;> simp [Reply.value, OK, H9BUS_ERROR] at h ⊢

theorem type_of_reply {msg : GenericMsg} {r : Reply} (h : reply msg = .ok (some r)) :
    msg.get_type = .ok r.type := by
  unfold reply at h
  cases htype : msg.get_type with
  | error e => rw [htype] at h; cases h
  | ok type =>
    rw [htype] at h
    cases type with
    | FRAME =>
      cases hframe : get_frame msg with
      | error e => simp [hframe, bind, Except.bind] at h
      | ok frame =>
        simp [hframe, bind, Except.bind, pure, Except.pure] at h
        rw [← h]
        rfl
    | ERROR =>
      cases hid : msg.get_id with
      | error e => simp [hid, bind, Except.bind] at h
      | ok id =>
        simp [hid, bind, Except.bind, pure, Except.pure] at h
        rw [← h]
        rfl
    | _ => cases h

/-- Its promise has been given to the map, and it has neither returned nor erased it. -/
def SendPhase.isOpen : SendPhase → Bool
  | called => false
  | returned _ => false
  | _ => true

end Bus

namespace SendRun

/-- A message of that kind with the id of the call as its request-id was processed since it began,
before `last` messages had been. -/
def Told (s : SendRun) (c : SendCall) (last : ℕ) (r : Reply) : Prop :=
  ∃ k msg, c.started ≤ k ∧ k < last ∧ s.processed[k]? = some msg ∧ msg.get_type = .ok r.type ∧
    msg.get_request_id = c.id

/-- The promise is in the map and has no value, or is not there and has the value of a message. -/
def Pending (s : SendRun) (i : ℕ) (c : SendCall) : Prop :=
  (s.send_promise_map[c.id]? = some i ∧ s.futures i = .pending) ∨
    (s.send_promise_map[c.id]? = none ∧
      ∃ r, s.futures i = .value r.value ∧ s.Told c s.processed.length r)

structure CallOk (s : SendRun) (i : ℕ) (c : SendCall) : Prop where
  called : c.phase = .called → s.send_promise_map[c.id]? = none ∧ s.futures i = .pending
  pending : c.phase.isOpen = true → s.Pending i c
  returned : ∀ ret, c.phase = .returned ret → s.send_promise_map[c.id]? = none ∧
    ∀ r : Reply, ret = r.value → s.Told c c.ended r

structure Inv (s : SendRun) : Prop where
  entry : ∀ (id : UInt64) (p : ℕ), s.send_promise_map[id]? = some p →
    ∃ c, s.calls[p]? = some c ∧ c.id = id
  call : ∀ (i : ℕ) (c : SendCall), s.calls[i]? = some c → s.CallOk i c
  started : ∀ (i : ℕ) (c : SendCall), s.calls[i]? = some c → c.started ≤ s.processed.length
  distinct : ∀ (i j : ℕ) (c d : SendCall), s.calls[i]? = some c → s.calls[j]? = some d →
    c.id = d.id → i = j
  fresh : ∀ i, s.calls.length ≤ i → s.futures i = .pending
  error : ∀ e, s.error ≠ some (.future_error e)

variable {s t : SendRun} {i j : ℕ} {c d : SendCall}

theorem Told.mono {last last' : ℕ} {r : Reply} (h : s.Told c last r)
    (hp : s.processed <+: t.processed) (hlast : last ≤ last') : t.Told c last' r := by
  obtain ⟨k, msg, hstarted, hk, hmsg, hrest⟩ := h
  obtain ⟨later, hlater⟩ := hp
  have hlt : k < s.processed.length := (List.getElem?_eq_some_iff.1 hmsg).1
  refine ⟨k, msg, hstarted, hk.trans_le hlast, ?_, hrest⟩
  rw [← hlater, List.getElem?_append_left hlt, hmsg]

theorem CallOk.frame (h : s.CallOk i c)
    (hmap : t.send_promise_map[c.id]? = s.send_promise_map[c.id]?) (hf : t.futures i = s.futures i)
    (hp : s.processed <+: t.processed) : t.CallOk i c where
  called hc := by
    rw [hmap, hf]
    exact h.called hc
  pending hopen := by
    unfold Pending
    rw [hmap, hf]
    rcases h.pending hopen with hin | ⟨hout, r, hvalue, htold⟩
    · exact .inl hin
    · exact .inr ⟨hout, r, hvalue, htold.mono hp hp.length_le⟩
  returned ret hret := by
    obtain ⟨hout, htold⟩ := h.returned ret hret
    exact ⟨hmap.trans hout, fun r hr => (htold r hr).mono hp le_rfl⟩

/-- The promise of a call is in the map only while the call is open, and has no value then. -/
theorem CallOk.of_mem (h : s.CallOk i c) {p : ℕ} (hp : s.send_promise_map[c.id]? = some p) :
    c.phase.isOpen = true ∧ p = i ∧ s.futures i = .pending := by
  have hopen : c.phase.isOpen = true := by
    cases hphase : c.phase with
    | called =>
      rw [(h.called hphase).1] at hp
      cases hp
    | returned ret =>
      rw [(h.returned ret hphase).1] at hp
      cases hp
    | inserted => rfl
    | failed => rfl
    | waiting => rfl
    | timedOut => rfl
  rcases h.pending hopen with ⟨hin, hpending⟩ | ⟨hout, -⟩
  · exact ⟨hopen, Option.some.inj (hp.symm.trans hin), hpending⟩
  · rw [hout] at hp
    cases hp

theorem inv_start : Inv start where
  entry id p h := by simp [start] at h
  call i c h := by cases h
  started i c h := by cases h
  distinct i j c d h := by cases h
  fresh _ _ := rfl
  error e h := by cases h

theorem Inv.addCall (h : Inv s) {id : UInt64} (hid : ∀ c ∈ s.calls, c.id ≠ id) :
    Inv { s with calls := s.calls ++ [⟨id, .called, s.processed.length, 0⟩] } := by
  refine ⟨fun id' p hp => ?_, fun j d hd => ?_, fun j d hd => ?_, fun j k d d' hd hd' heq => ?_,
    fun j hj => h.fresh j ?_, h.error⟩
  · obtain ⟨c, hc, hcid⟩ := h.entry id' p hp
    exact ⟨c, getElem?_concat_of_some hc, hcid⟩
  · rcases getElem?_concat_cases hd with hd | ⟨rfl, rfl⟩
    · exact (h.call j d hd).frame rfl rfl (List.prefix_refl _)
    · refine ⟨fun _ => ⟨?_, h.fresh _ le_rfl⟩, fun hopen => (by cases hopen), fun _ hr => (by cases hr)⟩
      rw [Option.eq_none_iff_forall_ne_some]
      intro p hp
      obtain ⟨c, hc, hcid⟩ := h.entry id p hp
      exact hid c (List.mem_of_getElem? hc) hcid
  · rcases getElem?_concat_cases hd with hd | ⟨rfl, rfl⟩
    · exact h.started j d hd
    · exact le_rfl
  · rcases getElem?_concat_cases hd with hd | ⟨rfl, rfl⟩ <;> rcases getElem?_concat_cases hd' with hd' | ⟨rfl, rfl⟩
    · exact h.distinct j k d d' hd hd' heq
    · exact absurd heq (hid d (List.mem_of_getElem? hd))
    · exact absurd heq.symm (hid d' (List.mem_of_getElem? hd'))
    · rfl
  · rw [List.length_append] at hj
    omega

theorem Inv.setCall (h : Inv s) (hc : s.calls[i]? = some c) (c' : SendCall) (hid : c'.id = c.id)
    (hstarted : c'.started = c.started) {m : Std.TreeMap UInt64 ℕ} {futures : Shared ℤ}
    (hmap : ∀ id, id ≠ c.id → m[id]? = s.send_promise_map[id]?)
    (hentry : ∀ p, m[c.id]? = some p → p = i) (hfutures : ∀ j, j ≠ i → futures j = s.futures j)
    (hok : CallOk { s with send_promise_map := m, futures := futures } i c') :
    Inv { s with send_promise_map := m, futures := futures, calls := s.calls.set i c' } := by
  have hset := getElem?_set_of_some hc c'
  have hget {j : ℕ} {d : SendCall} (hd : (s.calls.set i c')[j]? = some d) :
      (i = j ∧ d = c') ∨ (i ≠ j ∧ s.calls[j]? = some d) := by
    rw [hset] at hd
    split_ifs at hd with hij
    · exact .inl ⟨hij, (Option.some.inj hd).symm⟩
    · exact .inr ⟨hij, hd⟩
  refine ⟨fun id p hp => ?_, fun j d hd => ?_, fun j d hd => ?_, fun j k d d' hd hd' heq => ?_,
    fun j hj => ?_, h.error⟩
  · by_cases hne : id = c.id
    · subst hne
      obtain rfl := hentry p hp
      exact ⟨c', by rw [hset, if_pos rfl], hid⟩
    · obtain ⟨d, hd, hdid⟩ := h.entry id p ((hmap id hne).symm.trans hp)
      refine ⟨d, ?_, hdid⟩
      rw [hset, if_neg, hd]
      rintro rfl
      obtain rfl := Option.some.inj (hc.symm.trans hd)
      exact hne hdid.symm
  · rcases hget hd with ⟨rfl, rfl⟩ | ⟨hij, hd⟩
    · exact hok.frame rfl rfl (List.prefix_refl _)
    · have hne : d.id ≠ c.id := fun heq => hij (h.distinct i j c d hc hd heq.symm)
      exact (h.call j d hd).frame (hmap d.id hne) (hfutures j (Ne.symm hij)) (List.prefix_refl _)
  · rcases hget hd with ⟨rfl, rfl⟩ | ⟨-, hd⟩
    · rw [hstarted]
      exact h.started _ c hc
    · exact h.started j d hd
  · rcases hget hd with ⟨rfl, rfl⟩ | ⟨-, hd₀⟩ <;> rcases hget hd' with ⟨rfl, rfl⟩ | ⟨-, hd₁⟩
    · rfl
    · exact h.distinct _ k c d' hc hd₁ (hid ▸ heq)
    · exact h.distinct j _ d c hd₀ hc (hid ▸ heq)
    · exact h.distinct j k d d' hd₀ hd₁ heq
  · rw [List.length_set] at hj
    have hi : i < s.calls.length := (List.getElem?_eq_some_iff.1 hc).1
    exact (hfutures j (by omega)).trans (h.fresh j hj)

/-! ### The steps of a call -/

theorem Inv.insert (h : Inv s) (hc : s.calls[i]? = some c) (hphase : c.phase = .called) :
    Inv ((s.insert c.id i).setPhase i c .inserted) := by
  obtain ⟨hout, hpending⟩ := (h.call i c hc).called hphase
  have hself : (s.send_promise_map.insert c.id i)[c.id]? = some i := by
    rw [Std.TreeMap.getElem?_insert_self]
  have heq : (s.insert c.id i).setPhase i c .inserted = { s with
      send_promise_map := s.send_promise_map.insert c.id i
      futures := s.futures
      calls := s.calls.set i { c with phase := .inserted } } := by
    unfold SendRun.insert SendRun.destroy
    rw [hout]
    rfl
  rw [heq]
  refine h.setCall hc { c with phase := .inserted } rfl rfl (fun id hne => ?_) (fun p hp => ?_)
    (fun _ _ => rfl) ⟨fun hp => (by cases hp), fun _ => .inl ⟨hself, hpending⟩, fun _ hp => (by cases hp)⟩
  · rw [Std.TreeMap.getElem?_insert, if_neg]
    rw [Std.LawfulEqCmp.compare_eq_iff_eq]
    exact hne.symm
  · exact Option.some.inj (hp.symm.trans hself)

theorem Inv.goOn (h : Inv s) (hc : s.calls[i]? = some c) (c' : SendCall) (hid : c'.id = c.id)
    (hstarted : c'.started = c.started) (hok : s.CallOk i c') :
    Inv { s with calls := s.calls.set i c' } := by
  have hset : Inv { s with
      send_promise_map := s.send_promise_map
      futures := s.futures
      calls := s.calls.set i c' } :=
    h.setCall hc c' hid hstarted (fun _ _ => rfl) (fun p hp => ((h.call i c hc).of_mem hp).2.1)
      (fun _ _ => rfl) (hok.frame rfl rfl (List.prefix_refl _))
  exact hset

/-- An open call takes its promise out of the map and returns. -/
theorem Inv.eraseReturn (h : Inv s) (hc : s.calls[i]? = some c) {ret : ℤ}
    (hret : ∀ r : Reply, ret ≠ r.value) : Inv ((s.erase c.id).return_ i c ret) := by
  have hself : (s.send_promise_map.erase c.id)[c.id]? = none := Std.TreeMap.getElem?_erase_self
  obtain ⟨futures, hfutures, hdestroy⟩ : ∃ futures : Shared ℤ,
      (∀ j, j ≠ i → futures j = s.futures j) ∧ s.destroy c.id = { s with futures := futures } := by
    unfold SendRun.destroy
    cases hp : s.send_promise_map[c.id]? with
    | none => exact ⟨s.futures, fun _ _ => rfl, rfl⟩
    | some p =>
      obtain rfl := ((h.call i c hc).of_mem hp).2.1
      exact ⟨s.futures.destroy p, fun j hj => Shared.destroy_of_ne hj, rfl⟩
  have heq : (s.erase c.id).return_ i c ret = { s with
      send_promise_map := s.send_promise_map.erase c.id
      futures := futures
      calls := s.calls.set i { c with phase := .returned ret, ended := s.processed.length } } := by
    unfold SendRun.erase
    rw [hdestroy]
    rfl
  rw [heq]
  refine h.setCall hc { c with phase := .returned ret, ended := s.processed.length } rfl rfl
    (fun id hne => ?_) (fun p hp => ?_) hfutures
    ⟨fun hp => (by cases hp), fun hp => (by cases hp), fun ret' hp => ⟨hself, fun r hr => ?_⟩⟩
  · rw [Std.TreeMap.getElem?_erase, if_neg]
    rw [Std.LawfulEqCmp.compare_eq_iff_eq]
    exact hne.symm
  · rw [hself] at hp
    cases hp
  · obtain rfl := SendPhase.returned.inj hp
    exact absurd hr (hret r)

theorem not_value_of_error {ret : ℤ} (h : ret = NOT_CONNECTED_TO_H9BUS ∨ ret = SEND_TIMEOUT)
    (r : Reply) : ret ≠ r.value := by
  rcases h with rfl | rfl <;> cases r <;> decide

theorem Inv.stepCall (h : Inv s) (hc : s.calls[i]? = some c) {a : SendStep}
    (hstep : s.stepCall i c a = some t) : Inv t := by
  have hok := h.call i c hc
  -- a phase in which the promise may be in the map
  have hopened {phase : SendPhase} (hopen : c.phase.isOpen = true) (hphase : phase.isOpen = true) :
      Inv (s.setPhase i c phase) := by
    refine h.goOn hc { c with phase := phase } rfl rfl ⟨fun hp => ?_, fun _ => hok.pending hopen, fun ret hp => ?_⟩
    · rw [show phase = .called from hp] at hphase
      cases hphase
    · rw [show phase = .returned ret from hp] at hphase
      cases hphase
  unfold SendRun.stepCall at hstep
  split at hstep
  · rename_i hphase
    obtain rfl := Option.some.inj hstep
    exact h.insert hc hphase
  · rename_i throws hphase
    obtain rfl := Option.some.inj hstep
    refine hopened (by rw [hphase]; rfl) ?_
    cases throws <;> rfl
  · rename_i hphase
    split_ifs at hstep
    obtain rfl := Option.some.inj hstep
    exact hopened (by rw [hphase]; rfl) rfl
  · rename_i hphase
    have hopen : c.phase.isOpen = true := by rw [hphase]; rfl
    rcases hok.pending hopen with ⟨-, hpending⟩ | ⟨hout, r, hvalue, htold⟩
    · rw [hpending] at hstep
      cases hstep
    · rw [hvalue] at hstep
      obtain rfl := Option.some.inj hstep
      refine h.goOn hc { c with phase := .returned r.value, ended := s.processed.length } rfl rfl
        ⟨fun hp => (by cases hp), fun hp => (by cases hp), fun ret hp => ?_⟩
      refine ⟨hout, fun r' hr' => ?_⟩
      obtain rfl := Reply.value_injective ((SendPhase.returned.inj hp).trans hr')
      exact htold
  · obtain rfl := Option.some.inj hstep
    exact h.eraseReturn hc (not_value_of_error (.inl rfl))
  · obtain rfl := Option.some.inj hstep
    exact h.eraseReturn hc (not_value_of_error (.inr rfl))
  · cases hstep

/-! ### The thread that receives -/

theorem Inv.process (h : Inv s) (msg : GenericMsg) :
    Inv { s with processed := s.processed ++ [msg] } where
  entry := h.entry
  call i c hc := (h.call i c hc).frame rfl rfl (List.prefix_append _ _)
  started i c hc := by
    rw [List.length_append]
    exact Nat.le_add_right_of_le (h.started i c hc)
  distinct := h.distinct
  fresh := h.fresh
  error := h.error

/-- The promise under `id`, if there is one, gets the value of a message that its call was told. -/
theorem Inv.complete (h : Inv s) {id : UInt64} {r : Reply}
    (htold : ∀ (i : ℕ) (c : SendCall), s.calls[i]? = some c → c.id = id →
      s.Told c s.processed.length r) : Inv (s.complete id r.value) := by
  unfold SendRun.complete
  cases hp : s.send_promise_map[id]? with
  | none => exact h
  | some p =>
    obtain ⟨c, hc, rfl⟩ := h.entry id p hp
    obtain ⟨hopen, -, hpending⟩ := (h.call p c hc).of_mem hp
    have hself : (s.send_promise_map.erase c.id)[c.id]? = none := Std.TreeMap.getElem?_erase_self
    have hvalue : Function.update s.futures p (State.value r.value) p = .value r.value :=
      Function.update_self _ _ _
    have hcalls : s.calls.set p c = s.calls := by
      obtain ⟨hlt, rfl⟩ := List.getElem?_eq_some_iff.1 hc
      exact List.set_getElem_self hlt
    have heq : (SendRun.erase { s with futures := Function.update s.futures p (.value r.value) } c.id) =
        { s with
          send_promise_map := s.send_promise_map.erase c.id
          futures := Function.update s.futures p (.value r.value)
          calls := s.calls.set p c } := by
      unfold SendRun.erase SendRun.destroy
      simp only [hp, Shared.destroy, hvalue, hcalls]
    simp only [Shared.set_value_of_pending hpending]
    rw [heq]
    refine h.setCall hc c rfl rfl (fun id hne => ?_) (fun q hq => ?_)
      (fun j hj => Function.update_of_ne hj _ _) ⟨fun hphase => ?_, fun _ => ?_, fun ret hphase => ?_⟩
    · rw [Std.TreeMap.getElem?_erase, if_neg]
      rw [Std.LawfulEqCmp.compare_eq_iff_eq]
      exact hne.symm
    · rw [hself] at hq
      cases hq
    · rw [hphase] at hopen
      cases hopen
    · exact .inr ⟨hself, r, hvalue, htold p c hc rfl⟩
    · rw [hphase] at hopen
      cases hopen

theorem Inv.recv (h : Inv s) (msg : GenericMsg) : Inv (s.recv_thread msg) := by
  unfold SendRun.recv_thread
  cases hreply : reply msg with
  | error e =>
    have hcall : ∀ (i : ℕ) (c : SendCall), s.calls[i]? = some c →
        CallOk { s with error := some (.exception e) } i c :=
      fun i c hc => (h.call i c hc).frame rfl rfl (List.prefix_refl _)
    exact ⟨h.entry, hcall, h.started, h.distinct, h.fresh, fun e' he => (by cases he)⟩
  | ok r =>
    cases r with
    | none => exact h
    | some r =>
      simp only
      split_ifs with hid
      · refine (h.process msg).complete fun i c hc hcid => ?_
        refine ⟨s.processed.length, msg, h.started i c hc, ?_, ?_, type_of_reply hreply, hcid.symm⟩
        · rw [List.length_append]
          exact Nat.lt_succ_self _
        · rw [List.getElem?_append_right le_rfl, Nat.sub_self]
          rfl
      · exact h.process msg

theorem inv_step (e : SendRunStep) (s t : SendRun) (h : Inv s) (hstep : s.step e = some t) : Inv t := by
  unfold step at hstep
  split_ifs at hstep
  cases e with
  | send_frame_sync id =>
    simp only at hstep
    split_ifs at hstep with hid
    obtain rfl := Option.some.inj hstep
    exact h.addCall hid.2
  | thread i a =>
    obtain ⟨c, hc, hcall⟩ := Option.bind_eq_some_iff.1 hstep
    exact h.stepCall hc hcall
  | recv msg =>
    obtain rfl := Option.some.inj hstep
    exact h.recv msg

/-- In every run of calls with different ids other than 0 and of messages: no promise is set twice, and
a call that has returned has no promise in the map any more. It returned `OK` or `H9BUS_ERROR` only if
a frame or an error with its id as request-id was processed while it was under way. -/
theorem send_frame_sync_told {as : List SendRunStep} (hrun : Steps.run step as start = some s) :
    (∀ e, s.error ≠ some (.future_error e)) ∧
    ∀ (i : ℕ) (c : SendCall) (ret : ℤ), s.calls[i]? = some c → c.phase = .returned ret →
      (ret = OK → s.Told c c.ended .FRAME) ∧ (ret = H9BUS_ERROR → s.Told c c.ended .ERROR) ∧
        s.send_promise_map[c.id]? = none := by
  have h : Inv s := Steps.inv_of_run inv_step inv_start hrun
  refine ⟨h.error, fun i c ret hc hphase => ?_⟩
  obtain ⟨hout, htold⟩ := (h.call i c hc).returned ret hphase
  exact ⟨htold .FRAME, htold .ERROR, hout⟩

/-- An error of `h9bus` with this id and request-id. -/
def errorReply (id request_id : String) : GenericMsg where
  name := "h9"
  props := [("version", "0.0"), ("id", id), ("request-id", request_id)]
  children := [.element "error" [("code", "1")] []]

/-- Two threads send a frame, and the second one is answered. -/
def secondAnswered : List SendRunStep :=
  [.send_frame_sync 5, .send_frame_sync 6, .thread 1 .insert, .thread 0 .insert,
    .thread 1 (.send false), .thread 0 (.send false), .recv (errorReply "1" "6"), .thread 1 .get]

theorem send_frame_sync_told_second : ∃ s c, Steps.run step secondAnswered start = some s ∧
    s.calls[1]? = some c ∧ c.phase = .returned H9BUS_ERROR ∧ s.Told c c.ended .ERROR := by
  have hcall : ((Steps.run step secondAnswered start).bind fun s => s.calls[1]?).map
      (fun c => c.phase) = some (.returned H9BUS_ERROR) := by
    rfl
  obtain ⟨c, hbind, hphase⟩ := Option.map_eq_some_iff.1 hcall
  obtain ⟨s, hrun, hc⟩ := Option.bind_eq_some_iff.1 hbind
  exact ⟨s, c, hrun, hc, hphase, ((send_frame_sync_told hrun).2 1 c _ hc hphase).2.1 rfl⟩

end SendRun

end H9
