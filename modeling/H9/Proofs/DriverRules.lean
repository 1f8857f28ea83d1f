import H9.BusMgr

/-!
# What a driver keeps

A frame leaves the queue of a driver right before `send_frame_callback` is called with it. So what
`J` says of the frames in the queue and of the program below holds through every call on a
driver, if the callback takes `J` of the queue with its frame to `J` of the queue without
(`QueueRule`). The exits are those of the callbacks, and those the driver's own writes can take.
-/

namespace H9

open Prog

namespace Slcan

theorem substr_endsPlain (s : List Char) (pos n : ℕ) : EndsPlain (substr s pos n) := by
  unfold substr
  split_ifs
  · exact .error trivial
  · exact .ok _

theorem stoi16_endsPlain (s : List Char) : EndsPlain (stoi16 s) := by
  unfold stoi16
  split
  · exact .ok _
  · exact .error trivial
  · exact .error trivial

theorem parseData_endsPlain (s : List Char) : ∀ (n i : ℕ) (data : Vector UInt8 8),
    EndsPlain (parseData s n i data)
  | 0, _, _ => .ok _
  | n + 1, i, data => by
    unfold parseData
    refine .bind (substr_endsPlain s _ _) fun _ => .bind (stoi16_endsPlain _) fun tmp => ?_
    split_ifs
    · exact parseData_endsPlain s n _ _
    · exact .error trivial

theorem parse_endsPlain (slcan_data : List Char) : EndsPlain (parse_slcan_msg slcan_data) := by
  unfold parse_slcan_msg
  refine .bind (substr_endsPlain _ _ _) fun _ => .bind (stoi16_endsPlain _) fun id => ?_
  refine .bind (substr_endsPlain _ _ _) fun _ => .bind (stoi16_endsPlain _) fun dlc => ?_
  exact .bind (parseData_endsPlain _ _ _ _) fun data => .pure _

end Slcan

/-- What only opening and closing a driver change. -/
def Driver.port (d : Driver) : String × DriverKind × ℕ × Bool × ℕ :=
  (d.name, d.kind, d.socket, d.connected, d.retry_auto_connect)

/-- How a write ends for that answer, if not well. -/
def Driver.answerExit (d : Driver) (a : WriteAnswer) : Option Exn :=
  match d.kind, a with
  | .dummy, _ => none
  | _, .count => none
  | .loop, .zero => none
  | .loop, .error e => some (.system_error e)
  | _, .zero => some (.closeSocketException (.driver d.name))
  | _, .error e =>
    some (if e = Errno.ENXIO then .closeSocketException (.driver d.name) else .system_error e)

/-- The writes to come end well or by an exit in `X`. -/
def Driver.Within (X : Exn → Prop) (d : Driver) : Prop :=
  ∀ a ∈ d.writes, ∀ e, d.answerExit a = some e → X e

theorem Driver.port_eq {d d' : Driver} (h : d'.port = d.port) :
    d'.name = d.name ∧ d'.kind = d.kind ∧ d'.socket = d.socket ∧ d'.connected = d.connected ∧
      d'.retry_auto_connect = d.retry_auto_connect := by
  simpa [port] using h

theorem Driver.answerExit_congr {d d' : Driver} (h : d'.port = d.port) (a : WriteAnswer) :
    d'.answerExit a = d.answerExit a := by
  obtain ⟨hn, hk, -⟩ := port_eq h
  unfold answerExit
  rw [hk, hn]

/-- A write of a driver asks for no other socket to be closed. -/
theorem Driver.exit_own {d : Driver} {a : WriteAnswer} {e : Exn} (he : d.answerExit a = some e) :
    e.For (.driver d.name) := by
  unfold answerExit at he
  split at he
  · cases he
  · cases he
  · cases he
  · obtain rfl := Option.some.inj he
    trivial
  · obtain rfl := Option.some.inj he
    exact Exn.for_close _
  · obtain rfl := Option.some.inj he
    split_ifs
    · exact Exn.for_close _
    · trivial

theorem Driver.Within.of_subset {X : Exn → Prop} {d d' : Driver} (h : d.Within X)
    (hp : d'.port = d.port) (hw : ∀ a ∈ d'.writes, a ∈ d.writes) : d'.Within X :=
  fun a ha e he => h a (hw a ha) e (by rwa [answerExit_congr hp] at he)

variable {S : Type}

/-- `J` does not depend on the order of the queue, and `E` allows the exits in `X`. -/
structure QueueInv (X : Exn → Prop) (J : List BusFrame → S → Prop)
    (E : Exn → List BusFrame → S → Prop) : Prop where
  perm : ∀ {q q' s}, q.Perm q' → J q s → J q' s
  exit : ∀ {e q s}, X e → J q s → E e q s

/-- The callbacks take `J` of the queue with a frame to `J` of the queue without. -/
structure QueueRule (cb : Callbacks S) (X : Exn → Prop) (J : List BusFrame → S → Prop)
    (E : Exn → List BusFrame → S → Prop) : Prop extends QueueInv X J E where
  sent : ∀ b q, Triple (J (b :: q)) (cb.send_frame b) (fun _ => J q) fun e => E e q
  recv : ∀ f q, Triple (J q) (cb.recv_frame f) (fun _ => J q) fun e => E e q

namespace Driver

/-- After a call on a driver with that port that returned, `J` holds of the queue. -/
def Kept (X : Exn → Prop) (J : List BusFrame → S → Prop) (d₀ : Driver) (s : Driver × S) : Prop :=
  s.1.port = d₀.port ∧ s.1.Within X ∧ J s.1.send_queue s.2

/-- After one that left by `e`. -/
def Left (E : Exn → List BusFrame → S → Prop) (d₀ : Driver) (e : Exn) (s : Driver × S) : Prop :=
  s.1.port = d₀.port ∧ E e s.1.send_queue s.2

theorem write_exec (d : Driver) (b : BusFrame) (s : S) :
    ∃ r d', (write b).exec (d, s) = (r, d', s) ∧ d'.port = d.port ∧
      d'.send_queue = d.send_queue ∧ (∀ a ∈ d'.writes, a ∈ d.writes) ∧
        ∀ e, r = .error e → ∃ a, d.writes.head? = some a ∧ d.answerExit a = some e := by
  have herr : ∀ x : Errno, x = Errno.ENXIO ∨ x ≠ Errno.ENXIO := fun x => em _
  unfold write answerExit
  rcases hk : d.kind with _ | _ | _ | _ <;> rcases hw : d.writes with _ | ⟨_ | _ | x, as⟩
  case slcan.cons.error | socketcan.cons.error =>
    rcases herr x with hx | hx <;> simp +contextual [hk, hw, hx, port]
  all_goals simp +contextual [hk, hw, port, wroteTo]

theorem write_bind {X : Exn → Prop} {J : List BusFrame → S → Prop}
    {E : Exn → List BusFrame → S → Prop} (hJ : QueueInv X J E) {d₀ d : Driver}
    (hp : d.port = d₀.port) (hx : d.Within X) {q : List BusFrame} (hq : d.send_queue = q)
    (b : BusFrame) {p : Unit → Prog (Driver × S) Exn Unit} {Q : Unit → Driver × S → Prop}
    (h : ∀ d' : Driver, d'.port = d₀.port → d'.Within X → d'.send_queue = q →
      Triple (At d' (J q)) (p ()) Q (Left E d₀)) :
    Triple (At d (J q)) (write b >>= p) Q (Left E d₀) := by
  rintro ⟨d, s⟩ ⟨rfl, hs⟩
  obtain ⟨r, d', he, hp', hq', hw, hr⟩ := write_exec d b s
  rw [exec_bind, he]
  rcases r with e | ⟨⟩
  · obtain ⟨a, ha, hae⟩ := hr e rfl
    refine ⟨hp'.trans hp, ?_⟩
    change E e d'.send_queue s
    rw [hq', hq]
    exact hJ.exit (hx a (List.mem_of_head? ha) e hae) hs
  · exact h d' (hp'.trans hp) (hx.of_subset hp' hw) (hq'.trans hq) (d', s) ⟨rfl, hs⟩

/-- `on_frame_send` reports the frame it takes from the queue, and a record driver goes on until
the queue is empty. -/
theorem on_frame_send_rule {cb : Callbacks S} {X : Exn → Prop} {J : List BusFrame → S → Prop}
    {E : Exn → List BusFrame → S → Prop} (hJ : QueueRule cb X J E) (d₀ : Driver) :
    ∀ (n : ℕ) {d : Driver}, d.port = d₀.port → d.Within X →
      X .undefined ∨ d.send_queue ≠ [] ∧ d.send_queue.length ≤ n →
      Triple (At d (J d.send_queue)) (on_frame_send cb n)
        (fun _ s => Kept X J d₀ s ∧ (d₀.kind ≠ .slcan → s.1.send_queue = [])) (Left E d₀)
  | 0, d, hp, hx, hn => by
    refine Triple.throw _ ?_
    rintro s ⟨rfl, hs⟩
    rcases hn with hn | ⟨hne, hlen⟩
    · exact ⟨hp, hJ.exit hn hs⟩
    · exact absurd (List.length_eq_zero_iff.1 (Nat.le_zero.1 hlen)) hne
  | n + 1, d, hp, hx, hn => by
    unfold on_frame_send
    refine Triple.getFst_bind ?_
    rcases hq : d.send_queue with _ | ⟨tmp, rest⟩
    · refine Triple.throw _ ?_
      rintro s ⟨rfl, hs⟩
      rcases hn with hn | ⟨hne, -⟩
      · refine ⟨hp, ?_⟩
        rw [hq]
        exact hJ.exit hn hs
      · exact absurd hq hne
    · have hp₁ : (d.reportedOn tmp).port = d₀.port := hp
      have hx₁ : (d.reportedOn tmp).Within X := hx.of_subset rfl fun _ ha => ha
      have hpop : (d.reportedOn tmp).send_queue.Perm rest := by
        rw [reportedOn, hq]
        exact Heap.pop_perm BusFrameLess tmp rest
      refine Triple.modifyFst_bind ?_
      generalize d.reportedOn tmp = d₁ at hp₁ hx₁ hpop ⊢
      refine Triple.onSnd_bind (M := fun _ => J d₁.send_queue) (X := fun e => E e d₁.send_queue)
        ?_ (fun e t ht => ⟨hp₁, ht⟩) fun _ => ?_
      · exact (hJ.sent tmp d₁.send_queue).conseq (fun s hs => hJ.perm (hpop.symm.cons tmp) hs)
          (fun _ _ hs => hs) fun _ _ hs => hs
      refine Triple.getFst_bind ?_
      rcases hq₁ : d₁.send_queue with _ | ⟨top, rest₁⟩
      · refine Triple.pure _ ?_
        rintro s ⟨rfl, hs⟩
        exact ⟨⟨hp₁, hx₁, by rwa [hq₁]⟩, fun _ => hq₁⟩
      · refine write_bind hJ.toQueueInv hp₁ hx₁ hq₁ top fun d₂ hp₂ hx₂ hq₂ => ?_
        rw [← hq₂]
        refine Triple.ite (fun hk => ?_) fun hk => ?_
        · refine on_frame_send_rule hJ d₀ n hp₂ hx₂ ?_
          refine hn.imp_right fun ⟨_, hlen⟩ => ⟨?_, ?_⟩
          · rw [hq₂]
            exact List.cons_ne_nil _ _
          · rw [hq₂, ← hq₁, hpop.length_eq]
            rw [hq, List.length_cons] at hlen
            omega
        · refine Triple.pure _ ?_
          rintro s ⟨rfl, hs⟩
          refine ⟨⟨hp₂, hx₂, hs⟩, fun hk' => absurd ?_ hk⟩
          rwa [(port_eq hp₁).2.1]

/-- A frame given to an open driver is in the queue from then on; that of a record driver is
empty again. One that is not open drops it. A serial driver does not call back. -/
theorem send_frame_rule {cb : Callbacks S} {X : Exn → Prop} {J : List BusFrame → S → Prop}
    {E : Exn → List BusFrame → S → Prop} (hJ : QueueInv X J E) {d₀ d : Driver}
    (hp : d.port = d₀.port) (hx : d.Within X) (b : BusFrame)
    (hsent : d₀.kind ≠ .slcan → QueueRule cb X J E) (hs : d₀.socket ≠ 0 ∨ ∀ q s, J (b :: q) s → J q s) :
    Triple (At d (J (b :: d.send_queue))) (send_frame cb b)
      (fun _ s => Kept X J d₀ s ∧ (d₀.kind ≠ .slcan → d.send_queue = [] → s.1.send_queue = []))
      (Left E d₀) := by
  unfold send_frame send_data
  refine Triple.getFst_bind ?_
  by_cases hs' : d.socket = 0
  · rw [if_pos hs']
    refine Triple.pure _ ?_
    rintro s ⟨rfl, h⟩
    refine ⟨⟨hp, hx, ?_⟩, fun _ h => h⟩
    exact (hs.resolve_left (not_not.2 ((port_eq hp).2.2.1.symm.trans hs'))) _ _ h
  rw [if_neg hs']
  have hperm := Heap.push_perm BusFrameLess d.send_queue b
  refine Triple.conseq (P := At d (J (d.queued b).send_queue)) ?_
    (fun s h => ⟨h.1, hJ.perm hperm.symm h.2⟩) (fun _ _ h => h) fun _ _ h => h
  refine Triple.modifyFst_bind (Triple.ite (fun hq => ?_) fun hq => ?_)
  · rw [queued_of_nil hq]
    refine write_bind (d := d.queued b) hJ hp (hx.of_subset rfl fun _ ha => ha)
      (queued_of_nil hq b) b fun d₂ hp₂ hx₂ hq₂ => ?_
    rw [← hq₂]
    refine Triple.getFst_bind (Triple.ite (fun hk => ?_) fun hk => ?_)
    · have hk' : d₀.kind ≠ .slcan := by rwa [← (port_eq hp₂).2.1]
      refine (on_frame_send_rule (hsent hk') d₀ d₂.send_queue.length hp₂ hx₂
        (.inr ⟨?_, le_rfl⟩)).conseq
        (fun _ h => h) (fun _ s h => ⟨h.1, fun hk' _ => h.2 hk'⟩) fun _ _ h => h
      rw [hq₂]
      exact List.cons_ne_nil _ _
    · refine Triple.pure _ ?_
      rintro s ⟨rfl, h⟩
      refine ⟨⟨hp₂, hx₂, h⟩, fun hk' => absurd ?_ hk⟩
      rwa [(port_eq hp₂).2.1]
  · refine Triple.pure _ ?_
    rintro s ⟨hd, h⟩
    refine ⟨?_, fun _ hq' => absurd hq' hq⟩
    rw [Kept, hd]
    exact ⟨hp, hx.of_subset rfl fun _ ha => ha, h⟩

section Rules

variable {cb : Callbacks S} {X : Exn → Prop} {J : List BusFrame → S → Prop}
  {E : Exn → List BusFrame → S → Prop} (hJ : QueueRule cb X J E) {d₀ d : Driver}
  (hp : d.port = d₀.port) (hx : d.Within X)
include hJ hp hx

theorem on_frame_recv_rule (f : H9frame) :
    Triple (At d (J d.send_queue)) (on_frame_recv cb f)
      (fun _ s => Kept X J d₀ s ∧ s.1.send_queue = d.send_queue) (Left E d₀) := by
  unfold on_frame_recv
  refine Triple.modifyFst_bind (Triple.onSnd_at ((hJ.recv f d.send_queue).conseq
    (fun _ h => h) (fun _ s h => ?_) fun _ s h => ?_))
  · exact ⟨⟨hp, hx.of_subset rfl fun _ ha => ha, h⟩, rfl⟩
  · exact ⟨hp, h⟩

omit hJ hp hx in
theorem of_kept {α : Type} {p : Prog (Driver × S) Exn α} {Q : α → Driver × S → Prop}
    {R : Exn → Driver × S → Prop}
    (h : ∀ d : Driver, d.port = d₀.port → d.Within X → Triple (At d (J d.send_queue)) p Q R) :
    Triple (Kept X J d₀) p Q R := by
  rintro ⟨d, s⟩ ⟨hp, hx, hs⟩
  exact h d hp hx (d, s) ⟨rfl, hs⟩

omit hp hx in
theorem parse_response_rule (hX : ∀ e, e.For (.driver d₀.name) → X e) (response : List Char) :
    Triple (Kept X J d₀) (parse_response cb response) (fun _ => Kept X J d₀) (Left E d₀) := by
  refine of_kept fun d hp hx => ?_
  have hkept : ∀ s, At d (J d.send_queue) s → Kept X J d₀ s := by
    rintro s ⟨rfl, hs⟩
    exact ⟨hp, hx, hs⟩
  unfold parse_response
  split
  · refine Triple.getFst_bind (Triple.ite (fun _ => ?_) fun _ => Triple.pure _ hkept)
    refine Triple.modifyFst_bind ?_
    have h := on_frame_send_rule hJ d₀ d.send_queue.length
      (d := { d with last_send := none }) hp (hx.of_subset rfl fun _ ha => ha)
      (.inl (hX _ trivial))
    exact h.conseq (fun _ h => h) (fun _ _ h => h.1) fun _ _ h => h
  · refine Triple.ite (fun _ => ?_) fun _ => Triple.pure _ hkept
    split
    · exact (on_frame_recv_rule hJ hp hx _).conseq (fun _ h => h) (fun _ _ h => h.1)
        fun _ _ h => h
    · rename_i e he
      refine Triple.throw _ ?_
      rintro s ⟨rfl, hs⟩
      exact ⟨hp, hJ.exit (hX e ((Slcan.parse_endsPlain _).exit _ he)) hs⟩
  · exact Triple.pure _ hkept

omit hp hx in
theorem recv_bytes_rule (hX : ∀ e, e.For (.driver d₀.name) → X e) : ∀ bytes : List Char,
    Triple (Kept X J d₀) (recv_bytes cb bytes) (fun _ => Kept X J d₀) (Left E d₀)
  | [] => Triple.pure _ fun _ h => h
  | c :: cs => by
    unfold recv_bytes
    refine Triple.bind (M := fun _ => Kept X J d₀) (Triple.modify _ fun _ h => h) fun _ => ?_
    refine Triple.ite (fun _ => ?_) fun _ => recv_bytes_rule hX cs
    refine of_kept fun d hp hx => Triple.getFst_bind ?_
    refine Triple.bind (M := fun _ => Kept X J d₀) ?_ fun _ => ?_
    · refine (parse_response_rule hJ hX d.recv_buf).conseq ?_ (fun _ _ h => h) fun _ _ h => h
      rintro s ⟨rfl, hs⟩
      exact ⟨hp, hx, hs⟩
    · exact Triple.bind (M := fun _ => Kept X J d₀) (Triple.modify _ fun _ h => h)
        fun _ => recv_bytes_rule hX cs

theorem recv_data_rule (hX : ∀ e, e.For (.driver d₀.name) → X e) (answer : ReadAnswer) :
    Triple (At d (J d.send_queue)) (recv_data cb answer)
      (fun _ s => Kept X J d₀ s ∧ (d₀.kind ≠ .slcan → s.1.send_queue = d.send_queue))
      (Left E d₀) := by
  have hkept : ∀ s, At d (J d.send_queue) s →
      Kept X J d₀ s ∧ (d₀.kind ≠ .slcan → s.1.send_queue = d.send_queue) := by
    rintro s ⟨rfl, hs⟩
    exact ⟨⟨hp, hx, hs⟩, fun _ => rfl⟩
  have hthrow : ∀ e, e.For (.driver d₀.name) →
      Triple (At d (J d.send_queue)) (throw e : Prog (Driver × S) Exn Unit)
        (fun _ s => Kept X J d₀ s ∧ (d₀.kind ≠ .slcan → s.1.send_queue = d.send_queue))
        (Left E d₀) := by
    intro e he
    refine Triple.throw _ ?_
    rintro s ⟨rfl, hs⟩
    exact ⟨hp, hJ.exit (hX e he) hs⟩
  have hclose : Exn.For (.driver d₀.name) (.closeSocketException (.driver d.name)) := by
    rw [(port_eq hp).1]
    exact Exn.for_close _
  have hrecv := (on_frame_recv_rule hJ hp hx answer.buf).conseq (fun _ h => h)
    (fun _ s h => (⟨h.1, fun _ => h.2⟩ :
      Kept X J d₀ s ∧ (d₀.kind ≠ .slcan → s.1.send_queue = d.send_queue))) fun _ _ h => h
  unfold recv_data
  refine Triple.getFst_bind ?_
  split
  · exact hthrow _ hclose
  · rename_i hk _
    have hk' : d₀.kind = .slcan := (port_eq hp).2.1.symm.trans hk
    exact (recv_bytes_rule hJ hX _).conseq (fun s h => (hkept s h).1)
      (fun _ s h => ⟨h, fun hne => absurd hk' hne⟩) fun _ _ h => h
  · exact Triple.ite (fun _ => hthrow _ hclose) fun _ => hthrow _ trivial
  · exact hthrow _ hclose
  · exact hrecv
  · exact hrecv
  · exact hthrow _ trivial
  · exact Triple.pure _ hkept
  · exact hthrow _ trivial

end Rules

end Driver

end H9
