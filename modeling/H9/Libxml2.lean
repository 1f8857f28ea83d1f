import H9.Lib.Trees
import H9.MsgSocket

/-!
# Documents as text

What a message becomes on the wire and what its reader makes of the text, by libxml2, which is not
the program's. The library gives the attributes back as they were, between blanks of its own.
-/

namespace H9

/-- A character that a document can contain. -/
def XmlChar (c : Char) : Prop :=
  c = '\t' ∨ c = '\n' ∨ c = '\r' ∨ 0x20 ≤ c.toNat ∧ c.toNat ≠ 0xfffe ∧ c.toNat ≠ 0xffff

instance (c : Char) : Decidable (XmlChar c) := inferInstanceAs (Decidable (_ ∨ _))

/-- A text that an attribute can carry. -/
def XmlText (s : String) : Prop := ∀ c ∈ s.toList, XmlChar c

instance (s : String) : Decidable (XmlText s) := List.decidableBAll XmlChar s.toList

/-- A name, of ASCII characters only, that declares no namespace. -/
def XmlName (s : String) : Prop :=
  s ≠ "xmlns" ∧ s.toList.head?.any Char.isAlpha = true ∧
    s.toList.all (fun c => c.isAlphanum || c = '-') = true

instance (s : String) : Decidable (XmlName s) := inferInstanceAs (Decidable (_ ∧ _))

namespace XmlElement

/-- The names and the properties of the element and of those in it. -/
def tags (e : XmlElement) : List (String × List (String × String)) :=
  (e.name, e.props) :: e.elements.map fun child => (child.name, child.props)

/-- A document of elements in the root and nothing in these, with texts that XML can carry. -/
structure Carried (doc : XmlDoc) : Prop where
  flat : doc.children = doc.elements.map fun child => .element child.name child.props []
  names : ∀ tag ∈ doc.tags, XmlName tag.1 ∧ ∀ prop ∈ tag.2, XmlName prop.1
  distinct : ∀ tag ∈ doc.tags, (tag.2.map Prod.fst).Nodup
  texts : ∀ tag ∈ doc.tags, ∀ prop ∈ tag.2, XmlText prop.2

end XmlElement

/-- The functions of libxml2 that write and read a document. -/
structure Libxml2 where
  xmlDocDumpFormatMemory : XmlDoc → List UInt8
  xmlReadMemory : List UInt8 → Option XmlDoc

namespace Libxml2

/-- A document is a C string as text, and is read back with its elements and attributes. -/
structure RoundTrips (lib : Libxml2) : Prop where
  text : ∀ doc : XmlDoc, doc.Carried → 0 ∉ lib.xmlDocDumpFormatMemory doc
  read : ∀ doc : XmlDoc, doc.Carried →
    ∃ doc', lib.xmlReadMemory (lib.xmlDocDumpFormatMemory doc) = some doc' ∧ doc'.tags = doc.tags

/-- `GenericMsg::serialize`, whose string ends at the first null byte. -/
def serialize (lib : Libxml2) (msg : GenericMsg) : List UInt8 :=
  (lib.xmlDocDumpFormatMemory msg).takeWhile (· ≠ 0)

/-- The message that a reader makes of the text of `msg`. -/
def resent (lib : Libxml2) (msg : GenericMsg) : Except Exn GenericMsg :=
  H9MsgSocket.parse lib.xmlReadMemory (lib.serialize msg)

/-- A name and properties as they are written. -/
def toTag (tag : String × List (String × String)) : Markup.Tag where
  name := tag.1.toList
  attrs := tag.2.map fun prop => (prop.1.toList, prop.2.toList)

def ofTag (t : Markup.Tag) : String × List (String × String) :=
  (String.ofList t.name, t.attrs.map fun a => (String.ofList a.1, String.ofList a.2))

/-- The tree that is read, with the blanks between the elements. -/
def tree (root : Markup.Tag) (ts : List Markup.Tag) : XmlDoc where
  name := (ofTag root).1
  props := (ofTag root).2
  children := (ts.flatMap fun t => [.text "\n  ", .element (ofTag t).1 (ofTag t).2 []]) ++
    if ts = [] then [] else [.text "\n"]

/-- What libxml2 writes and reads of a document of ASCII characters that is flat. -/
def plain : Libxml2 where
  xmlDocDumpFormatMemory doc :=
    (Markup.write (toTag (doc.name, doc.props)) (doc.tags.tail.map toTag)).flatMap
      String.utf8EncodeChar
  xmlReadMemory bytes := do
    let cs ← bytes.toByteArray.utf8Decode?
    let doc ← Markup.read cs.toList
    return tree doc.1 doc.2

end Libxml2

/-! ### Elements in elements -/

/-- The name and the properties of an element can be written. -/
structure XmlTag (name : String) (props : List (String × String)) : Prop where
  names : XmlName name ∧ ∀ prop ∈ props, XmlName prop.1
  distinct : (props.map Prod.fst).Nodup
  texts : ∀ prop ∈ props, XmlText prop.2

namespace XmlNode

/-- Elements, in each of which is nothing, a text, or more elements. -/
inductive Layered : List XmlNode → Prop
  | nil : Layered []
  | leaf {name : String} {props : List (String × String)} {ns : List XmlNode} :
    XmlTag name props → Layered ns → Layered (.element name props [] :: ns)
  | value {name : String} {props : List (String × String)} {s : String} {ns : List XmlNode} :
    XmlTag name props → s ≠ "" → XmlText s → Layered ns →
      Layered (.element name props [.text s] :: ns)
  | branch {name : String} {props : List (String × String)} {cs ns : List XmlNode} :
    XmlTag name props → cs ≠ [] → Layered cs → Layered ns → Layered (.element name props cs :: ns)

/-- The nodes that are read of those that were written, with blanks beside the elements. -/
inductive Reread : List XmlNode → List XmlNode → Prop
  | nil : Reread [] []
  | blank {s : String} {ns ns' : List XmlNode} :
    (∀ c ∈ s.toList, c = '\n' ∨ c = ' ') → Reread ns ns' → Reread ns (.text s :: ns')
  | leaf {name : String} {props : List (String × String)} {ns ns' : List XmlNode} :
    Reread ns ns' → Reread (.element name props [] :: ns) (.element name props [] :: ns')
  | value {name : String} {props : List (String × String)} {s : String} {ns ns' : List XmlNode} :
    Reread ns ns' → Reread (.element name props [.text s] :: ns) (.element name props [.text s] :: ns')
  | branch {name : String} {props : List (String × String)} {cs cs' ns ns' : List XmlNode} :
    Reread cs cs' → Reread ns ns' → Reread (.element name props cs :: ns) (.element name props cs' :: ns')

end XmlNode

namespace Libxml2

/-- A document of elements in elements is a C string as text, and is read back with blanks between
the elements. -/
structure KeepsTrees (lib : Libxml2) : Prop where
  text : ∀ doc : XmlDoc, XmlNode.Layered [doc.toNode] → 0 ∉ lib.xmlDocDumpFormatMemory doc
  read : ∀ doc : XmlDoc, XmlNode.Layered [doc.toNode] →
    ∃ doc', lib.xmlReadMemory (lib.xmlDocDumpFormatMemory doc) = some doc' ∧
      XmlNode.Reread [doc.toNode] [doc'.toNode]

mutual

/-- The node as it is written, in front of `f`. -/
def addNode (f : Markup.Forest) : XmlNode → Markup.Forest
  | .element name props [] => .leaf (toTag (name, props)) [] f
  | .element name props [.text s] => .leaf (toTag (name, props)) s.toList f
  | .element name props cs => .branch (toTag (name, props)) (forest cs) f
  | _ => f
termination_by structural n => n

def forest : List XmlNode → Markup.Forest
  | [] => .nil
  | n :: ns => addNode (forest ns) n
termination_by structural ns => ns

end

/-- The nodes that are read, the blanks among them. -/
def spaced (depth : ℕ) : Markup.Forest → List XmlNode
  | .nil => []
  | .leaf t text rest => .text (String.ofList (Markup.Forest.newline depth)) ::
    .element (ofTag t).1 (ofTag t).2 (if text = [] then [] else [.text (String.ofList text)]) ::
      spaced depth rest
  | .branch t cs rest => .text (String.ofList (Markup.Forest.newline depth)) ::
    .element (ofTag t).1 (ofTag t).2
      (spaced (depth + 1) cs ++ [.text (String.ofList (Markup.Forest.newline depth))]) ::
        spaced depth rest

/-- What libxml2 writes and reads of a document of elements in elements. -/
def formatted : Libxml2 where
  xmlDocDumpFormatMemory doc :=
    (Markup.writeDoc (forest [doc.toNode])).flatMap String.utf8EncodeChar
  xmlReadMemory bytes := do
    let cs ← bytes.toByteArray.utf8Decode?
    let f ← Markup.readDoc cs.toList
    ((spaced 0 f).filterMap XmlNode.element?).head?

end Libxml2

open GenericMsg

/-- `GenericFrameMsg::get_endpoint`. -/
def get_endpoint (msg : GenericMsg) : Except Exn String := requiredOfRoot msg "endpoint"

/-- `FrameMsg::get_origin`. -/
def get_origin (msg : GenericMsg) : Except Exn String := requiredOfRoot msg "origin"

/-- `DeviceEvent::get_device_id`. -/
def DeviceEvent.get_device_id (msg : GenericMsg) : Except Exn (BitVec 16) := do
  let tmp ← requiredOfRoot msg "device-id"
  return BitVec.ofNat 16 (UInt8.ofInt (CText.strtol 10 tmp.toList)).toNat

/-- `DeviceEvent::operator[]`. -/
def DeviceEvent.value (msg : GenericMsg) (name : String) : Except Exn XmlElement := parameter msg name

end H9
