import H9.Proofs.FrameText
import H9.Proofs.SocketStream
import H9.Proofs.Validity
import H9.Sniffer

/-!
# What h9sniffer says of the bus

The line that h9sniffer prints of a frame says all of it (`readCsv_csv`, `readText_text`), and what stands
behind such a line begins with a blank and stays in its line. So the frames of h9bus can be read from the
text that h9sniffer printed, whatever else came between them and however the kernel cut the stream.
-/

namespace H9

open GenericMsg

/-! ### Words -/

section Words

/-- The words of a line. -/
def words (cs : List Char) : List (List Char) := (cs.splitOn ' ').filter fun w => !w.isEmpty

theorem words_blank (cs : List Char) : words (' ' :: cs) = words cs := by
  have hsplit := List.splitOn_append_cons_self_of_not_mem (show ' ' ∉ [] from List.not_mem_nil) cs
  rw [List.nil_append] at hsplit
  simp [words, hsplit]

theorem words_append {w : List Char} (hne : w ≠ []) (hw : ' ' ∉ w) (cs : List Char) :
    words (w ++ ' ' :: cs) = w :: words cs := by
  simp [words, List.splitOn_append_cons_self_of_not_mem hw, hne]

theorem words_singleton {w : List Char} (hne : w ≠ []) (hw : ' ' ∉ w) : words w = [w] := by
  simp [words, List.splitOn_eq_singleton hw, hne]

theorem dec_ne_nil (n : ℕ) : dec n ≠ [] := by
  simp [dec]

theorem isAlphanum_dec {n : ℕ} {c : Char} (hc : c ∈ dec n) : c.isAlphanum = true := by
  have hmem : c ∈ Nat.toDigits 10 n := by simpa [dec] using hc
  have hdigit : c.isDigit = true := Nat.isDigit_of_mem_toDigits (by decide) (by decide) hmem
  simp [Char.isAlphanum, hdigit]

@[simp] theorem not_mem_dec {c : Char} (h : c.isAlphanum = false) (n : ℕ) : c ∉ dec n := fun hc => by
  simp [isAlphanum_dec hc] at h

theorem exists_hex (b : UInt8) : ∃ c d, hex b = [c, d] ∧
    CText.hexDigit c = some (b.toNat / 16) ∧ CText.hexDigit d = some (b.toNat % 16) := by
  have hdigit : ∀ n : Fin 16, CText.hexDigit (if n.val < 10 then Char.ofNat ('0'.toNat + n)
      else Char.ofNat ('a'.toNat + (n - 10))) = some n.val := by decide
  have hb := b.toNat_lt
  exact ⟨_, _, rfl, hdigit ⟨b.toNat / 16, by omega⟩, hdigit ⟨b.toNat % 16, by omega⟩⟩

theorem not_mem_hex {c : Char} (h : c.isAlphanum = false) (b : UInt8) : c ∉ hex b := by
  obtain ⟨c₁, c₂, hlist, h₁, h₂⟩ := exists_hex b
  have hne {d : Char} (hd : CText.hexDigit d ≠ none) : c ≠ d := fun heq => by
    rw [heq, CText.hexDigit_isAlphanum hd] at h
    exact absurd h (by simp)
  rw [hlist]
  simp [hne (d := c₁) (by simp [h₁]), hne (d := c₂) (by simp [h₂])]

theorem hex_ne_nil (b : UInt8) : hex b ≠ [] := by
  simp [hex]

theorem hexBytes_flatMap_hex : ∀ bs : List UInt8, hexBytes (bs.flatMap hex) = some bs
  | [] => rfl
  | b :: bs => by
    obtain ⟨c, d, hb, hc, hd⟩ := exists_hex b
    rw [List.flatMap_cons, hb, List.cons_append, List.cons_append, List.nil_append, hexBytes, hc, hd,
      hexBytes_flatMap_hex bs]
    simp [Nat.div_add_mod]

theorem words_bytes {w : List Char} (hne : w ≠ []) (hw : ' ' ∉ w) : ∀ bs : List UInt8,
    words (w ++ bs.flatMap fun b => ' ' :: hex b) = w :: bs.map hex
  | [] => by simpa using words_singleton hne hw
  | b :: bs => by
    rw [List.flatMap_cons, List.cons_append, words_append hne hw,
      words_bytes (hex_ne_nil b) (not_mem_hex (by decide) b) bs, List.map_cons]

theorem words_setw (w cs : List Char) : words (setw w ++ cs) = words (w ++ cs) := by
  have hblanks : ∀ n : ℕ, words (List.replicate n ' ' ++ (w ++ cs)) = words (w ++ cs) := by
    intro n
    induction n with
    | zero => rfl
    | succ n ih => rw [List.replicate_succ, List.cons_append, words_blank, ih]
  rw [setw, List.append_assoc, hblanks]

end Words

/-! ### Lines -/

namespace H9sniffer

/-- A frame by the words it is printed in. -/
def readFields (source destination priority type seqnum dlc data : List Char) : Option H9frame := do
  let source_id ← Schema.nonNegativeInteger source
  let destination_id ← Schema.nonNegativeInteger destination
  let type ← Schema.nonNegativeInteger type
  let seqnum ← Schema.nonNegativeInteger seqnum
  let dlc ← Schema.nonNegativeInteger dlc
  let bytes ← hexBytes data
  return {
    priority := if priority = ['H'] then .HIGH else .LOW
    type := UInt8.ofNat type
    seqnum := BitVec.ofNat 5 seqnum
    source_id := BitVec.ofNat 9 source_id
    destination_id := BitVec.ofNat 9 destination_id
    dlc := UInt8.ofNat dlc
    data := fillData (Vector.replicate 8 0) bytes }

def readCsv (line : List Char) : Option H9frame :=
  match line.splitOn ',' with
  | [source, destination, priority, type, seqnum, dlc, data] =>
    readFields source destination priority type seqnum dlc data
  | _ => none

def readText (line : List Char) : Option H9frame :=
  match words line with
  | source :: _ :: destination :: _ :: priority :: _ :: type :: _ :: seqnum :: _ :: dlc :: _ :: bytes =>
    readFields source destination priority type seqnum dlc bytes.flatten
  | _ => none

/-- The frames that lines say. -/
def readLines (output : Output) (ls : List (List Char)) : Option (List H9frame) :=
  match output with
  | .simple => ls.mapM readCsv
  | .normal => ls.mapM readText
  | .extended => (ls.filter fun l => l.head? ≠ some ' ').mapM readText

/-- The frames that the printed text says. -/
def readLog (output : Output) (cs : List Char) : Option (List H9frame) :=
  readLines output ((cs.splitOn '\n').dropLast.drop (header output).length)

section Read

variable (frame : H9frame)

theorem readFields_frame : readFields (dec frame.source_id.toNat) (dec frame.destination_id.toNat)
    [frame.priorityChar] (dec frame.type.toNat) (dec frame.seqnum.toNat) (dec frame.dlc.toNat)
    (frame.bytes.flatMap hex) = some frame.sent := by
  have hpriority : (if [frame.priorityChar] = ['H'] then Priority.HIGH else .LOW) = frame.priority := by
    cases h : frame.priority <;> simp [H9frame.priorityChar, h]
  have hdec (n : ℕ) : Schema.nonNegativeInteger (dec n) = some n := Schema.nonNegativeInteger_toString n
  simp only [readFields, hdec, hexBytes_flatMap_hex, Option.bind_eq_bind, Option.bind_some, hpriority,
    UInt8.ofNat_toNat, BitVec.ofNat_toNat, BitVec.setWidth_eq]
  rw [H9frame.bytes, fillData_sent]
  rfl

theorem priorityChar_isAlphanum : frame.priorityChar.isAlphanum = true := by
  cases h : frame.priority <;> simp [H9frame.priorityChar, h]

theorem not_mem_priority {c : Char} (h : c.isAlphanum = false) : c ∉ [frame.priorityChar] := by
  rw [List.mem_singleton]
  rintro rfl
  simp [priorityChar_isAlphanum] at h

theorem not_mem_bytes {c : Char} (h : c.isAlphanum = false) : c ∉ frame.bytes.flatMap hex := fun hc => by
  obtain ⟨b, -, hb⟩ := List.mem_flatMap.1 hc
  exact not_mem_hex h b hb

theorem readCsv_csv : readCsv (csv frame) = some frame.sent := by
  have hcomma : (',' : Char).isAlphanum = false := by decide
  have hsplit : (csv frame).splitOn ',' = [dec frame.source_id.toNat, dec frame.destination_id.toNat,
      [frame.priorityChar], dec frame.type.toNat, dec frame.seqnum.toNat, dec frame.dlc.toNat,
      frame.bytes.flatMap hex] := by
    have hstep {w : List Char} (hw : ',' ∉ w) (cs : List Char) :
        (w ++ ',' :: cs).splitOn ',' = w :: cs.splitOn ',' :=
      List.splitOn_append_cons_self_of_not_mem hw cs
    rw [csv, hstep (not_mem_dec hcomma _), hstep (not_mem_dec hcomma _),
      hstep (not_mem_priority frame hcomma), hstep (not_mem_dec hcomma _), hstep (not_mem_dec hcomma _),
      hstep (not_mem_dec hcomma _), List.splitOn_eq_singleton (not_mem_bytes frame hcomma)]
  rw [readCsv, hsplit]
  exact readFields_frame frame

theorem words_text : words frame.text = [dec frame.source_id.toNat, "->".toList,
    dec frame.destination_id.toNat, "priority:".toList, [frame.priorityChar], "type:".toList,
    dec frame.type.toNat, "seqnum:".toList, dec frame.seqnum.toNat, "dlc:".toList, dec frame.dlc.toNat,
    "data:".toList] ++ frame.bytes.map hex := by
  have hblank : (' ' : Char).isAlphanum = false := by decide
  have hdec (n : ℕ) (cs : List Char) : words (dec n ++ ' ' :: cs) = dec n :: words cs :=
    words_append (dec_ne_nil n) (not_mem_dec hblank n) cs
  have hname {w : String} (hne : w.toList ≠ []) (hw : ' ' ∉ w.toList) (cs : List Char) :
      words (w.toList ++ ' ' :: cs) = w.toList :: words cs := words_append hne hw cs
  have hname' {w : String} (hne : w.toList ≠ []) (hw : ' ' ∉ w.toList) (v cs : List Char) :
      words (w.toList ++ ' ' :: (setw v ++ cs)) = w.toList :: words (v ++ cs) := by
    rw [words_append hne hw, words_setw]
  have htext : frame.text = dec frame.source_id.toNat ++ ' ' :: ("->".toList ++ ' ' ::
      (dec frame.destination_id.toNat ++ ' ' :: ("priority:".toList ++ ' ' :: ([frame.priorityChar] ++
      ' ' :: ("type:".toList ++ ' ' :: (setw (dec frame.type.toNat) ++ ' ' :: ("seqnum:".toList ++ ' ' ::
      (setw (dec frame.seqnum.toNat) ++ ' ' :: ("dlc:".toList ++ ' ' :: (dec frame.dlc.toNat ++ ' ' ::
      ("data:".toList ++ frame.bytes.flatMap fun b => ' ' :: hex b))))))))))) := by
    simp [H9frame.text]
  rw [htext, hdec, hname (by decide) (by decide), hdec, hname (by decide) (by decide),
    words_append (by simp) (not_mem_priority frame hblank), hname' (by decide) (by decide), hdec,
    hname' (by decide) (by decide), hdec, hname (by decide) (by decide), hdec,
    words_bytes (by decide) (by decide)]
  rfl

theorem readText_text : readText frame.text = some frame.sent := by
  rw [readText, words_text]
  simp only [List.cons_append, List.nil_append, ← List.flatMap_def]
  exact readFields_frame frame

end Read

/-! ### Everything printed -/

section Printed

theorem splitOn_text : ∀ {ls : List (List Char)}, (∀ l ∈ ls, '\n' ∉ l) →
    ((text ls).splitOn '\n').dropLast = ls
  | [], _ => rfl
  | l :: ls, h => by
    rw [List.forall_mem_cons] at h
    have htext : text (l :: ls) = l ++ '\n' :: text ls := by simp [text]
    rw [htext, List.splitOn_append_cons_self_of_not_mem h.1,
      List.dropLast_cons_of_ne_nil (List.splitOn_ne_nil _ _), splitOn_text h.2]

theorem newline_not_mem_csv (frame : H9frame) : '\n' ∉ csv frame := by
  have hpriority := not_mem_priority frame (show ('\n' : Char).isAlphanum = false by decide)
  have hbytes := not_mem_bytes frame (show ('\n' : Char).isAlphanum = false by decide)
  simp only [csv, List.mem_append, List.mem_cons, not_or]
  simp [hbytes, List.mem_singleton.not.1 hpriority]

theorem newline_not_mem_text (frame : H9frame) : '\n' ∉ frame.text := by
  have hpriority := not_mem_priority frame (show ('\n' : Char).isAlphanum = false by decide)
  have hhex (b : UInt8) := not_mem_hex (show ('\n' : Char).isAlphanum = false by decide) b
  simp [H9frame.text, setw, hhex, List.mem_singleton.not.1 hpriority]

/-- A line that stands behind the one of a frame. -/
def Indented (l : List Char) : Prop := l.head? = some ' ' ∧ '\n' ∉ l

theorem indented_append {s : String} (h : Indented s.toList) {cs : List Char} (hcs : '\n' ∉ cs) :
    Indented (s.toList ++ cs) := by
  refine ⟨by simp [h.1], ?_⟩
  rw [List.mem_append, not_or]
  exact ⟨h.2, hcs⟩

instance (l : List Char) : Decidable (Indented l) := inferInstanceAs (Decidable (_ ∧ _))

theorem isprint_of_mem_printable {bs : List UInt8} {b : UInt8} (hb : b ∈ printable bs) :
    isprint b = true := by
  have hne : b ≠ 0 := by simpa using List.mem_takeWhile_imp hb
  have hmem := List.takeWhile_subset _ hb
  simp only [List.mem_append, List.mem_replicate, hne, and_false, false_or, List.mem_reverse] at hmem
  exact List.mem_takeWhile_imp hmem

theorem newline_not_mem_int (n : ℤ) : '\n' ∉ (toString n).toList := by
  cases n with
  | ofNat n => exact not_mem_dec (by decide) n
  | negSucc n =>
    have htext : (toString (Int.negSucc n)).toList = '-' :: dec (n + 1) := by
      simp [dec, toString, Int.repr, Nat.toDigits]
    rw [htext]
    simp

theorem newline_not_mem_printable (bs : List UInt8) :
    '\n' ∉ (printable bs).map fun b => Char.ofNat b.toNat := fun hmem => by
  obtain ⟨b, hb, heq⟩ := List.mem_map.1 hmem
  have hprint := isprint_of_mem_printable hb
  have hlt := b.toNat_lt
  have hvalid : b.toNat.isValidChar := .inl (by omega)
  have hnat : b.toNat = '\n'.toNat := by rw [← heq, Char.toNat_ofNat, if_pos hvalid]
  rw [UInt8.toNat_inj.1 (hnat.trans (by decide : '\n'.toNat = (10 : UInt8).toNat))] at hprint
  exact absurd hprint (by decide)

theorem newline_not_mem_valueLine (number : Option ℤ) (bs : List UInt8) :
    '\n' ∉ valueLine (number, printable bs) := by
  unfold valueLine
  rw [List.mem_append, List.mem_cons, not_or, not_or, List.mem_append, not_or]
  refine ⟨⟨by decide, ?_⟩, by decide, newline_not_mem_printable bs⟩
  cases number with
  | none => exact List.not_mem_nil
  | some n => exact newline_not_mem_int n

theorem head?_valueLine (value : Option ℤ × List UInt8) : (valueLine value).head? = some ' ' := by
  unfold valueLine
  simp

theorem indented_dataLines (frame : H9frame) : ∀ l ∈ dataLines frame, Indented l := by
  have hname : '\n' ∉ (H9frame.error_to_string (frame.data.get 0)).toList := by
    unfold H9frame.error_to_string
    split_ifs <;> decide
  unfold dataLines
  split_ifs
  · rw [List.forall_mem_cons]
    refine ⟨by simp [Indented, byte], fun l hl => ?_⟩
    obtain ⟨value, hvalue, rfl⟩ := Option.map_eq_some_iff.1 (Option.mem_toList.1 hl)
    rw [print_reg_value, Option.ite_none_right_eq_some] at hvalue
    obtain ⟨-, hvalue⟩ := hvalue
    rw [← Option.some.inj hvalue]
    exact ⟨head?_valueLine _, newline_not_mem_valueLine _ _⟩
  all_goals simp [Indented, byte, word, hname]

theorem indented_print_frame {frame : H9frame} {ls : List (List Char)} (h : print_frame frame = .ok ls) :
    ∀ l ∈ ls, Indented l := by
  unfold print_frame at h
  cases hname : H9frame.type_to_string frame.type with
  | none =>
    rw [hname] at h
    cases h
  | some name =>
    rw [hname] at h
    obtain rfl := Except.ok.inj h
    have hplain : '\n' ∉ name.toList :=
      (by decide : ∀ s ∈ _, '\n' ∉ s.toList) _ (List.mem_of_getElem? hname)
    rw [List.forall_mem_cons, List.forall_mem_append]
    refine ⟨indented_append (s := "    type name: ") (by decide) hplain, ?_, indented_dataLines frame⟩
    split_ifs
    · rw [List.forall_mem_singleton]
      decide
    · simp

theorem readLines_append {output : Output} {ls ls' : List (List Char)} {fs fs' : List H9frame}
    (h : readLines output ls = some fs) (h' : readLines output ls' = some fs') :
    readLines output (ls ++ ls') = some (fs ++ fs') := by
  cases output <;> simp only [readLines, List.filter_append, List.mapM_append] at h h' ⊢ <;> rw [h, h'] <;>
    rfl

/-- The lines of a frame of the bus are printed, and say what it is. -/
theorem lines_of_frame (output : Output) {frame : H9frame} (htype : frame.type < 32)
    (hdlc : frame.dlc ≤ 8) : ∃ ls, lines output frame = .ok ls ∧ (∀ l ∈ ls, '\n' ∉ l) ∧
      readLines output ls = some [frame.sent] := by
  have hdlc' : ¬ 8 < frame.dlc := UInt8.not_lt.2 hdlc
  cases output with
  | simple =>
    refine ⟨[csv frame], by rw [lines, if_neg hdlc'], ?_, by simp [readLines, readCsv_csv]⟩
    rw [List.forall_mem_singleton]
    exact newline_not_mem_csv frame
  | normal =>
    refine ⟨[frame.text], by rw [lines, if_neg hdlc'], ?_, by simp [readLines, readText_text]⟩
    rw [List.forall_mem_singleton]
    exact newline_not_mem_text frame
  | extended =>
    have hname : ∃ name, H9frame.type_to_string frame.type = some name := by
      refine Option.isSome_iff_exists.1 ?_
      simpa [H9frame.type_to_string] using UInt8.lt_iff_toNat_lt.1 htype
    obtain ⟨name, hname⟩ := hname
    obtain ⟨ls, hls⟩ : ∃ ls, print_frame frame = .ok ls := by
      rw [print_frame, hname]
      exact ⟨_, rfl⟩
    have hindented := indented_print_frame hls
    have hhead : frame.text.head? ≠ some ' ' := by
      obtain ⟨c, cs, hc⟩ := List.exists_cons_of_ne_nil (dec_ne_nil frame.source_id.toNat)
      have halpha : c.isAlphanum = true := isAlphanum_dec (hc ▸ List.mem_cons_self)
      simp only [H9frame.text, List.append_assoc, hc, List.cons_append, List.head?_cons, ne_eq,
        Option.some.injEq]
      rintro rfl
      exact absurd halpha (by decide)
    have hfilter : ls.filter (fun l => decide (l.head? ≠ some ' ')) = [] :=
      List.filter_eq_nil_iff.2 fun l hl => by simp [(hindented l hl).1]
    refine ⟨frame.text :: ls, ?_, ?_, ?_⟩
    · rw [lines, if_neg hdlc', hls]
      rfl
    · rw [List.forall_mem_cons]
      exact ⟨newline_not_mem_text frame, fun l hl => (hindented l hl).2⟩
    · rw [readLines, List.filter_cons_of_pos (by simpa using hhead), hfilter]
      simp [readText_text]

theorem readLog_text {output : Output} {ls : List (List Char)} (h : ∀ l ∈ ls, '\n' ∉ l) :
    readLog output (text (header output ++ ls)) = readLines output ls := by
  have hheader : ∀ l ∈ header output, '\n' ∉ l := by
    cases output <;> simp [header]
  rw [readLog, splitOn_text (List.forall_mem_append.2 ⟨hheader, h⟩), List.drop_left]

end Printed

/-! ### A run -/

/-- A message to h9sniffer. -/
inductive Post
  | frame (frame : H9frame) (origin endpoint : String) (id : UInt64)
  | other (msg : GenericMsg)

namespace Post

def msg : Post → GenericMsg
  | frame f origin endpoint id => (FrameMsg f origin endpoint).set_id id
  | other msg => msg

/-- The frame that is read of the message. -/
def frame? : Post → Option H9frame
  | frame f _ _ _ => some f.sent
  | other _ => none

/-- A frame of the bus, with texts that XML can carry, or a message that is read as no frame. -/
def Fits (lib : Libxml2) : Post → Prop
  | frame f origin endpoint _ => f.type < 32 ∧ f.dlc ≤ 8 ∧ XmlText origin ∧ XmlText endpoint
  | other msg => ∃ msg', lib.resent msg = .ok msg' ∧ ∃ type, get_type msg' = .ok type ∧ type ≠ .FRAME

end Post

section Run

variable {lib : Libxml2}

/-- The lines of a text that came. -/
def shown (lib : Libxml2) (output : Output) (p : List UInt8) : List (List Char) :=
  ((H9MsgSocket.parse lib.xmlReadMemory p).bind (handle output)).toOption.getD []

theorem loop_of_recvs (output : Output) : ∀ (n : ℕ) (h : H9Socket) (k : Inbound),
    (∀ r ∈ (h.recvs n k).1, r = .error .EAGAIN ∨ ∃ p, r = .msg p ∧ ∃ ls,
      (H9MsgSocket.parse lib.xmlReadMemory p).bind (handle output) = .ok ls) →
    loop lib output n h k = ((msgs (h.recvs n k).1).flatMap (shown lib output), none)
  | 0, _, _, _ => rfl
  | n + 1, h, k, hall => by
    simp only [H9Socket.recvs, List.forall_mem_cons] at hall
    have ih := loop_of_recvs output n (h.recv k).2.1 (h.recv k).2.2 hall.2
    simp only [loop, H9MsgSocket.recv, H9Socket.recvs]
    rcases hall.1 with heq | ⟨p, heq, ls, hls⟩
    · simp only [heq, H9MsgSocket.convert]
      simpa [msgs] using ih
    · rcases hparse : H9MsgSocket.parse lib.xmlReadMemory p with e | raw_msg
      · rw [hparse] at hls
        cases hls
      · rw [hparse] at hls
        have hconvert : H9MsgSocket.convert lib.xmlReadMemory (.msg p) = .ok (.msg raw_msg) := by
          rw [H9MsgSocket.convert, hparse]
          rfl
        have hshown : shown lib output p = ls := by rw [shown, hparse, hls]; rfl
        have hhandle : handle output raw_msg = .ok ls := hls
        simp only [heq, hconvert, hhandle, ih]
        simp [msgs, hshown]

/-- A frame comes to h9sniffer as it is. -/
theorem resent_frame (hlib : lib.RoundTrips) {frame : H9frame} (htype : frame.type < 32)
    (hdlc : frame.dlc ≤ 8) {origin endpoint : String} (horigin : XmlText origin)
    (hendpoint : XmlText endpoint) (id : UInt64) :
    ∃ msg, lib.resent ((FrameMsg frame origin endpoint).set_id id) = .ok msg ∧
      get_type msg = .ok .FRAME ∧ get_frame msg = .ok frame.sent := by
  obtain ⟨msg, hmsg, node, hroot, hname, hprops⟩ := hlib.resent_root
    (frameMsg_carried frame horigin hendpoint id) (get_msg_root_set_id _ id)
  refine ⟨msg, hmsg, ?_, get_frame_of_describes hroot ?_ (UInt8.lt_trans htype (by decide)) hdlc⟩
  · rw [get_type, hroot]
    simp [hname, frameElement, XmlElement.xmlNewProp]
  · rw [hprops]
    exact describes_origin _ _ _ _

theorem sent_sent (frame : H9frame) : frame.sent.sent = frame.sent := by
  simp only [H9frame.sent, Vector.get_ofFn]
  congr 1
  ext i hi
  simp only [Vector.getElem_ofFn]
  split_ifs <;> rfl

/-- What is shown of a message says which frame it is, if it is one. -/
theorem shown_of_fits (output : Output) (hlib : lib.RoundTrips) {p : Post} (hp : p.Fits lib) :
    ∃ ls, (H9MsgSocket.parse lib.xmlReadMemory (lib.serialize p.msg)).bind (handle output) = .ok ls ∧
      (∀ l ∈ ls, '\n' ∉ l) ∧ readLines output ls = some p.frame?.toList := by
  cases p with
  | frame f origin endpoint id =>
    obtain ⟨htype, hdlc, horigin, hendpoint⟩ := hp
    obtain ⟨msg, hmsg, htype', hframe⟩ := resent_frame hlib htype hdlc horigin hendpoint id
    obtain ⟨ls, hls, hline, hread⟩ := lines_of_frame output (show f.sent.type < 32 from htype) hdlc
    refine ⟨ls, ?_, hline, by rw [hread, sent_sent]; rfl⟩
    rw [Libxml2.resent] at hmsg
    simp only [Post.msg, hmsg, Except.bind, handle, htype', hframe, bind]
    exact hls
  | other msg =>
    obtain ⟨msg', hmsg, type, htype, hne⟩ := hp
    refine ⟨[], ?_, by simp, by cases output <;> rfl⟩
    rw [Libxml2.resent] at hmsg
    simp only [Post.msg, hmsg, Except.bind, handle, htype, bind, if_neg hne]
    rfl

theorem readLines_posts (output : Output) (hlib : lib.RoundTrips) : ∀ {posts : List Post}, (∀ p ∈ posts, p.Fits lib) →
    (∀ l ∈ (posts.map fun p => lib.serialize p.msg).flatMap (shown lib output), '\n' ∉ l) ∧
      readLines output ((posts.map fun p => lib.serialize p.msg).flatMap (shown lib output)) =
        some (posts.filterMap Post.frame?)
  | [], _ => ⟨by simp, by cases output <;> rfl⟩
  | p :: posts, h => by
    rw [List.forall_mem_cons] at h
    obtain ⟨ls, hls, hline, hread⟩ := shown_of_fits output hlib h.1
    obtain ⟨hlines, hreads⟩ := readLines_posts output hlib h.2
    have hshown : shown lib output (lib.serialize p.msg) = ls := by
      rw [shown, hls]
      rfl
    rw [List.map_cons, List.flatMap_cons, hshown]
    refine ⟨List.forall_mem_append.2 ⟨hline, hlines⟩, ?_⟩
    rw [readLines_append hread hreads]
    cases hframe : p.frame? <;> simp [hframe]

/-- h9sniffer prints the frames that come to it, in any of its outputs, each once and in order: they can
be read from what it printed, whatever other messages there are and however the kernel cuts the stream.
No message ends it, and with an answer for each byte it gets to the last one. -/
theorem frames_printed (hlib : lib.RoundTrips) (output : Output) {posts : List Post}
    (hposts : ∀ p ∈ posts, p.Fits lib) {cs : List Call} (hfull : ∀ c ∈ cs, c.Full)
    (htexts : texts cs = posts.map fun p => lib.serialize p.msg) (as : List Arrival)
    (hlive : ∀ a ∈ as, a = .wouldBlock ∨ ∃ k, a = .bytes k) (n : ℕ) :
    let out := loop lib output n H9Socket.new ⟨wire cs, as⟩
    out.2 = none ∧ ∃ read, read <+: posts ∧
      readLog output (text (header output ++ out.1)) = some (read.filterMap Post.frame?) ∧
      ((wire cs).length ≤ as.countP (· matches .bytes _) → as.length ≤ n → read = posts) := by
  have h := recvs_encode (fun p (hp : p ∈ texts cs) => mem_texts hp) Framing.partial_nil as hlive n
  rw [List.append_nil, ← wire_of_full hfull, htexts] at h
  obtain ⟨hres, hpre, -, hall, hdrain⟩ := h
  intro out
  have hout : out = ((msgs (H9Socket.new.recvs n ⟨wire cs, as⟩).1).flatMap (shown lib output), none) := by
    refine loop_of_recvs output n _ _ fun r hr => ?_
    rcases hres r hr with heq | ⟨p, rfl⟩
    · exact .inl heq
    · have hmem : p ∈ msgs (H9Socket.new.recvs n ⟨wire cs, as⟩).1 := List.mem_filterMap.2 ⟨_, hr, rfl⟩
      obtain ⟨post, hpost, rfl⟩ := List.mem_map.1 (hpre.mem hmem)
      obtain ⟨ls, hls, -⟩ := shown_of_fits output hlib (hposts post hpost)
      exact .inr ⟨_, rfl, ls, hls⟩
  -- the messages that came are those of the first posts
  obtain ⟨read, hread, hmsgs⟩ : ∃ read, read <+: posts ∧
      msgs (H9Socket.new.recvs n ⟨wire cs, as⟩).1 = read.map fun p => lib.serialize p.msg := by
    refine ⟨posts.take (msgs (H9Socket.new.recvs n ⟨wire cs, as⟩).1).length, List.take_prefix _ _, ?_⟩
    rw [List.map_take]
    exact List.prefix_iff_eq_take.1 hpre
  obtain ⟨hlines, hreads⟩ := readLines_posts output hlib fun p hp => hposts p (hread.mem hp)
  rw [hmsgs] at hout
  rw [hout]
  refine ⟨rfl, read, hread, ?_, fun hbytes hn => ?_⟩
  · rw [readLog_text hlines, hreads]
  · have hmap := hall (hdrain hbytes hn)
    rw [hmsgs] at hmap
    exact hread.eq_of_length (by simpa using congrArg List.length hmap)

/-- Register 5 of node 2, whose value is 65, as h9bus passes it on. -/
def reading : H9frame := ⟨.LOW, H9frame.REG_VALUE, 3, 2, 0x1ff, 2, #v[5, 65, 0, 0, 0, 0, 0, 0]⟩

def readingPost : Post := .frame reading "h9" "can0" 1

def readingCall : Call where
  payload := ⟨Libxml2.plain.serialize readingPost.msg, by decide +kernel, by decide +kernel,
    by decide +kernel⟩
  header := .count 3
  text := .count 500

theorem frames_printed_reading : readLog .extended (text (loop Libxml2.plain .extended
    (wire [readingCall]).length H9Socket.new
    ⟨wire [readingCall], List.replicate (wire [readingCall]).length (.bytes 0)⟩).1) = some [reading] := by
  have hposts : ∀ p ∈ [readingPost], p.Fits Libxml2.plain := by
    rw [List.forall_mem_singleton]
    exact ⟨by decide, by decide, by decide, by decide⟩
  have hfull : ∀ c ∈ [readingCall], c.Full := by
    rw [List.forall_mem_singleton]
    exact ⟨3, 500, rfl, by decide, rfl, by decide +kernel⟩
  obtain ⟨-, read, -, hread, hall⟩ := frames_printed Libxml2.plain_roundTrips .extended hposts hfull rfl
    _ (fun a ha => .inr ⟨0, (List.mem_replicate.1 ha).2⟩) (wire [readingCall]).length
  rw [hall (by rw [List.countP_replicate, if_pos rfl]) (by simp)] at hread
  simp only [header, List.nil_append] at hread
  rw [hread]
  decide +kernel

end Run

end H9sniffer

end H9
