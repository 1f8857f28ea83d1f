import Mathlib

/-!
# XML documents

What the program uses of a libxml2 tree: elements with their properties and children, text, and
nodes that are neither. A document is its root element. Names and properties are taken without
namespaces, as `xmlGetProp` and `node->name` take them.
-/

namespace H9

inductive XmlNode
  | element (name : String) (props : List (String × String)) (children : List XmlNode)
  | text (content : String)
  | cdata (content : String)
  /-- A comment or a processing instruction. -/
  | comment
deriving Repr

/-- An element: a document's root, or a child of it. -/
structure XmlElement where
  name : String
  props : List (String × String)
  children : List XmlNode
deriving Repr

abbrev XmlDoc := XmlElement

def XmlElement.toNode (e : XmlElement) : XmlNode := .element e.name e.props e.children

/-- The node, if it is an element. -/
def XmlNode.element? : XmlNode → Option XmlElement
  | .element name props children => some ⟨name, props, children⟩
  | _ => none

namespace XmlElement

def xmlGetProp (e : XmlElement) (name : String) : Option String := e.props.lookup name

def xmlHasProp (e : XmlElement) (name : String) : Bool := (e.xmlGetProp name).isSome

/-- `xmlNewProp`, which does not look for a property of that name. -/
def xmlNewProp (e : XmlElement) (name value : String) : XmlElement :=
  { e with props := e.props ++ [(name, value)] }

/-- The properties with the first one of that name changed, or a new one behind them. -/
def setProp (name value : String) : List (String × String) → List (String × String)
  | [] => [(name, value)]
  | p :: ps => if p.1 = name then (name, value) :: ps else p :: setProp name value ps

def xmlSetProp (e : XmlElement) (name value : String) : XmlElement :=
  { e with props := setProp name value e.props }

def xmlAddChild (e : XmlElement) (child : XmlNode) : XmlElement :=
  { e with children := e.children ++ [child] }

/-- `xmlNewTextChild`. -/
def xmlNewTextChild (e : XmlElement) (name content : String) (props : List (String × String)) :
    XmlElement :=
  e.xmlAddChild (.element name props [.text content])

/-- The children that are elements. -/
def elements (e : XmlElement) : List XmlElement := e.children.filterMap XmlNode.element?

end XmlElement

end H9
