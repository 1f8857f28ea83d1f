import H9.Proofs.Replies
import H9.Schema

/-!
# What a valid message says

The schema and the readers of a message take the same text apart, each in its own way. What the
schema takes as a number is read as that number, what it requires is there, and the element in the
root is the one that the type of the message says.
-/

namespace H9

namespace Schema

theorem isspace_of_isBlank {c : Char} (h : isBlank c) : CText.isspace c := by
  simp only [isBlank, Bool.or_eq_true, decide_eq_true_eq] at h
  rcases h with ((rfl | rfl) | rfl) | rfl <;> rfl

theorem exists_collapse (cs : List Char) : ∃ pre post, cs = pre ++ (collapse cs ++ post) ∧
    (∀ c ∈ pre, isBlank c) ∧ ∀ c ∈ post, isBlank c := by
  refine ⟨cs.takeWhile isBlank, (cs.dropWhile isBlank).rtakeWhile isBlank, ?_,
    fun c hc => List.mem_takeWhile_imp hc, fun c hc => List.mem_rtakeWhile_imp hc⟩
  rw [collapse, List.rdropWhile_append_rtakeWhile, List.takeWhile_append_dropWhile]

theorem head_not_isspace {body : List Char}
    (h : ∀ c ∈ (CText.sign body).2, c.isDigit) : ∀ c ∈ body.head?, ¬ CText.isspace c := by
  rcases body with _ | ⟨c, cs⟩
  · exact fun c hc => by cases hc
  · intro c' hc' hspace
    obtain rfl := Option.some.inj hc'
    simp only [CText.isspace, Bool.or_eq_true, decide_eq_true_eq] at hspace
    rcases hspace with ((((rfl | rfl) | rfl) | rfl) | rfl) | rfl <;>
      exact absurd (h _ List.mem_cons_self) (by decide)

/-- `strtol` reads a number that the schema takes as it is meant. -/
theorem strtol_of_nonNegativeInteger {cs : List Char} {n : ℕ}
    (h : nonNegativeInteger cs = some n) (hlt : n < 2 ^ 63) : CText.strtol 10 cs = n := by
  obtain ⟨pre, post, hcs, hpre, hpost⟩ := exists_collapse cs
  unfold nonNegativeInteger at h
  dsimp only at h
  split_ifs at h with hbad
  rw [not_or, not_or] at hbad
  obtain ⟨hne, hdigits, hneg⟩ := hbad
  have hn := Option.some.inj h
  have hds : ∀ c ∈ (CText.sign (collapse cs)).2, c.isDigit := by simpa using hdigits
  have hbody : collapse cs ≠ [] := fun h => hne (by rw [h]; rfl)
  rw [hcs]
  refine CText.strtol_numeral (fun c hc => isspace_of_isBlank (hpre c hc)) hbody
    (head_not_isspace hds) (fun c hc => isspace_of_isBlank (hpost c hc)) hn (fun hs => ?_) hlt
  by_contra h0
  exact hneg ⟨hs, hn ▸ h0⟩

theorem attributes_required {attrs : List Attribute} {e : XmlElement} {a : Attribute}
    (h : attributes attrs e = true) (ha : a ∈ attrs) (hr : a.required = true) :
    ∃ v, e.xmlGetProp a.name = some v := by
  simp only [attributes, Bool.and_eq_true, List.all_eq_true] at h
  have hhas := h.2 a ha
  rw [hr, Bool.not_true, Bool.false_or] at hhas
  exact Option.isSome_iff_exists.1 hhas

/-- A valid message has one element in its root, which is of a known type, and an id. -/
theorem valid_root {msg : GenericMsg} (h : valid msg = true) :
    ∃ node, msg.get_msg_root = some node ∧ message node = true ∧
      ∃ id, msg.xmlGetProp "id" = some id := by
  simp only [valid, Bool.and_eq_true, decide_eq_true_eq] at h
  obtain ⟨⟨⟨-, hattrs⟩, hseq⟩, hone⟩ := h
  obtain ⟨node, hnode⟩ := List.length_eq_one_iff.1 hone
  refine ⟨node, by rw [GenericMsg.get_msg_root, hnode]; rfl, ?_,
    attributes_required (a := messageId "id" true) hattrs (by simp) rfl⟩
  have hmem : node ∈ msg.elements := by rw [hnode]; exact List.mem_cons_self
  obtain ⟨child, hchild, he⟩ := List.mem_filterMap.1 hmem
  have hok := List.all_eq_true.1 hseq child hchild
  cases child with
  | element name props children =>
    obtain rfl := Option.some.inj he
    exact hok
  | text content => cases he
  | cdata content => cases he
  | comment => cases he

/-- What the type of a message says of the element in the root. -/
theorem message_cases {node : XmlElement} (h : message node = true) :
    (node.name = "identification" ∧ identification_t node = true) ∨
      (node.name = "sendframe" ∧ h9sendframe_t node = true) ∨
      (node.name = "execute" ∧ executemethod_t node = true) ∨
      node.name ∈ ["frame", "error", "response", "event"] := by
  unfold message at h
  split_ifs at h with h1 h2 h3 h4 h5 h6 h7
  · exact .inl ⟨h1, h⟩
  · exact .inr (.inl ⟨h2, h⟩)
  · simp [h3]
  · simp [h4]
  · exact .inr (.inr (.inl ⟨h5, h⟩))
  · simp [h6]
  · simp [h7]

theorem executemethod_of_name {node : XmlElement} (h : message node = true)
    (hname : node.name = "execute") : executemethod_t node = true := by
  rcases message_cases h with ⟨hn, -⟩ | ⟨hn, -⟩ | ⟨-, hn⟩ | hn
  · rw [hname] at hn
    simp at hn
  · rw [hname] at hn
    simp at hn
  · exact hn
  · rw [hname] at hn
    simp at hn

theorem method_of_execute {node : XmlElement} (h : message node = true)
    (hname : node.name = "execute") : ∃ method_name, node.xmlGetProp "method" = some method_name := by
  have ht := executemethod_of_name h hname
  rw [executemethod_t, Bool.and_eq_true] at ht
  exact attributes_required (a := ⟨"method", .string, true⟩) ht.1 (by simp) rfl

/-! ### The readers -/

theorem get_type_ok {msg : GenericMsg} (h : valid msg = true) : ∃ type, msg.get_type = .ok type := by
  obtain ⟨node, hroot, -⟩ := valid_root h
  unfold GenericMsg.get_type
  rw [hroot]
  dsimp only
  split_ifs <;> exact ⟨_, rfl⟩

theorem get_id_ok {msg : GenericMsg} (h : valid msg = true) : ∃ id, msg.get_id = .ok id := by
  obtain ⟨node, -, -, tmp, htmp⟩ := valid_root h
  rw [GenericMsg.get_id, GenericMsg.required, htmp]
  exact ⟨_, rfl⟩

theorem get_entity_ok {msg : GenericMsg} (h : valid msg = true)
    (htype : msg.get_type = .ok .IDENTIFICATION) : ∃ entity, get_entity msg = .ok entity := by
  obtain ⟨node, hroot, hmessage, -⟩ := valid_root h
  have hname : node.name = "identification" := by
    rw [GenericMsg.get_type, hroot] at htype
    dsimp only at htype
    split_ifs at htype <;> first | assumption | cases htype
  have ht : identification_t node = true := by
    unfold message at hmessage
    rwa [if_pos hname] at hmessage
  rw [identification_t, Bool.and_eq_true] at ht
  obtain ⟨entity, hentity⟩ := attributes_required (a := ⟨"entity", .string, true⟩) ht.1 (by simp) rfl
  exact ⟨entity, GenericMsg.requiredOfRoot_of_lookup hroot hentity⟩

theorem get_method_name_ok {msg : GenericMsg} (h : valid msg = true)
    (htype : msg.get_type = .ok .EXECUTEMETHOD) : ∃ name, get_method_name msg = .ok name := by
  obtain ⟨node, hroot, hmessage, -⟩ := valid_root h
  obtain ⟨name, hname⟩ :=
    method_of_execute hmessage (GenericMsg.name_of_execute hroot (.inl htype))
  exact ⟨name, GenericMsg.requiredOfRoot_of_lookup hroot hname⟩

end Schema

end H9
