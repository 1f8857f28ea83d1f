import H9.GenericMsg

/-!
# The schema of the messages

h9msg.xsd as a check of a document: the attributes of an element with their types, and the
elements that may stand in it. A type that takes no text takes none between its elements but
blanks.
-/

namespace H9

namespace Schema

/-- What XML takes as blank. -/
def isBlank (c : Char) : Bool := c = ' ' || c = '\t' || c = '\n' || c = '\r'

/-- The text without the blanks around it. -/
def collapse (cs : List Char) : List Char := (cs.dropWhile isBlank).rdropWhile isBlank

/-- The value of an `xs:nonNegativeInteger`. -/
def nonNegativeInteger (cs : List Char) : Option ℕ :=
  let (neg, ds) := CText.sign (collapse cs)
  let n := CText.number 10 (CText.digits 10 ds)
  if ds = [] ∨ ds.any (fun c => !c.isDigit) ∨ neg = true ∧ n ≠ 0 then none else some n

inductive SimpleType
  | string
  | enumeration (values : List String)
  | nonNegativeInteger (minInclusive : ℕ) (maxInclusive : Option ℕ)
  | hexBinary

def SimpleType.valid : SimpleType → String → Bool
  | .string, _ => true
  | .enumeration values, s => values.contains s
  | .nonNegativeInteger minInclusive maxInclusive, s =>
    match Schema.nonNegativeInteger s.toList with
    | some n => minInclusive ≤ n && maxInclusive.all (n ≤ ·)
    | none => false
  | .hexBinary, s =>
    let ds := collapse s.toList
    ds.length % 2 = 0 && ds.all fun c => (CText.digitVal c).any (· < 16)

structure Attribute where
  name : String
  type : SimpleType
  required : Bool

/-- Each property is one of the attributes, and those required are there. -/
def attributes (attrs : List Attribute) (e : XmlElement) : Bool :=
  (e.props.all fun p => attrs.any fun a => a.name = p.1 && a.type.valid p.2) &&
    attrs.all fun a => !a.required || e.xmlHasProp a.name

/-- No text and no elements. -/
def empty (e : XmlElement) : Bool :=
  e.children.all fun
    | .comment => true
    | _ => false

/-- Text, and no elements. -/
def simpleContent (e : XmlElement) : Bool :=
  e.children.all fun
    | .element .. => false
    | _ => true

/-- Elements that `p` takes, with blanks between them. -/
def sequence (p : XmlElement → Bool) (e : XmlElement) : Bool :=
  e.children.all fun
    | .element name props children => p ⟨name, props, children⟩
    | .text content => content.toList.all isBlank
    | .cdata content => content.toList.all isBlank
    | .comment => true

def value_t (e : XmlElement) : Bool := attributes [⟨"name", .string, false⟩] e && simpleContent e

def array_t (e : XmlElement) : Bool :=
  attributes [⟨"name", .string, false⟩] e && sequence (fun c => c.name = "value" && value_t c) e

def valuegroup (e : XmlElement) : Bool :=
  if e.name = "value" then value_t e
  else if e.name = "array" || e.name = "dict" then array_t e
  else false

def error_t (e : XmlElement) : Bool :=
  attributes [⟨"code", .nonNegativeInteger 1 none, true⟩, ⟨"name", .string, false⟩,
    ⟨"message", .string, true⟩] e && empty e

def identification_t (e : XmlElement) : Bool :=
  attributes [⟨"entity", .string, true⟩] e && empty e

def deviceId (required : Bool) : Attribute :=
  ⟨"device-id", .nonNegativeInteger 0 (some 511), required⟩

def executemethod_t (e : XmlElement) : Bool :=
  attributes [⟨"method", .string, true⟩, deviceId false] e && sequence valuegroup e

def methodresponse_t (e : XmlElement) : Bool :=
  attributes [⟨"method", .string, true⟩, deviceId false] e &&
    sequence (fun c => valuegroup c || c.name = "error" && error_t c) e && e.elements.length ≤ 1

def deviceevent_t (e : XmlElement) : Bool :=
  attributes [⟨"event", .string, true⟩, deviceId true] e && sequence valuegroup e

def sendframeAttributes : List Attribute :=
  [⟨"endpoint", .string, false⟩, ⟨"priority", .enumeration ["H", "h", "L", "l"], true⟩,
    ⟨"type", .nonNegativeInteger 0 (some 31), true⟩,
    ⟨"seqnum", .nonNegativeInteger 0 (some 31), true⟩,
    ⟨"source", .nonNegativeInteger 0 (some 511), true⟩,
    ⟨"destination", .nonNegativeInteger 0 (some 511), true⟩,
    ⟨"dlc", .nonNegativeInteger 0 (some 8), true⟩, ⟨"data", .hexBinary, false⟩]

def h9sendframe_t (e : XmlElement) : Bool := attributes sendframeAttributes e && empty e

def h9frame_t (e : XmlElement) : Bool :=
  attributes (sendframeAttributes ++ [⟨"origin", .string, true⟩]) e && empty e

def messageId (name : String) (required : Bool) : Attribute :=
  ⟨name, .nonNegativeInteger 1 (some 18446744073709551615), required⟩

/-- The type of an element in the root. -/
def message (e : XmlElement) : Bool :=
  if e.name = "identification" then identification_t e
  else if e.name = "sendframe" then h9sendframe_t e
  else if e.name = "frame" then h9frame_t e
  else if e.name = "error" then error_t e
  else if e.name = "execute" then executemethod_t e
  else if e.name = "response" then methodresponse_t e
  else if e.name = "event" then deviceevent_t e
  else false

/-- Whether a document is valid. -/
def valid (msg : XmlDoc) : Bool :=
  msg.name = "h9" &&
    attributes [⟨"version", .enumeration ["0.0"], true⟩, messageId "id" true,
      messageId "request-id" false] msg &&
    sequence message msg && msg.elements.length = 1

end Schema

end H9
