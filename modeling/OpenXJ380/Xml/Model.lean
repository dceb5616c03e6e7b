import OpenXJ380.Json.Grammar

/-! # The XML parser (`lib/xapi_xml_impl.inc`)

A node is the number of its allocation. There is memory for everything that is
allocated; a document that is not returned takes its nodes with it.
-/

namespace OpenXJ380.Xml

open TextCursor
open Json (isspace)

/-- `xapi_XmlParseResult`. -/
inductive ParseResult where
  | ok
  | invalidParam
  | noMemory
  | syntaxError
  | mismatchTag
  | trailingContent
deriving DecidableEq

inductive XmlNodeType where
  | element
  | text
deriving DecidableEq

abbrev NodeId := Nat

/-- `xapi_XmlNode`; the attributes are the list that the node points to. -/
structure XmlNode where
  type : XmlNodeType
  name : Option Text
  text : Option Text
  attributes : List (Text × Text)
  parent : Option NodeId
  firstChild : Option NodeId
  lastChild : Option NodeId
  nextSibling : Option NodeId
deriving DecidableEq

abbrev Heap := List XmlNode

abbrev Parser := Parse ParseResult

/-- `xapi_xmlCreateNode`; the new node is the next one. -/
def createNode (type : XmlNodeType) (h : Heap) : Heap :=
  h ++ [{ type := type, name := none, text := none, attributes := [], parent := none, firstChild := none,
          lastChild := none, nextSibling := none }]

def setParent (parent : NodeId) (n : XmlNode) : XmlNode := { n with parent := some parent }

def setNextSibling (next : NodeId) (n : XmlNode) : XmlNode := { n with nextSibling := some next }

def setFirstChild (child : NodeId) (n : XmlNode) : XmlNode := { n with firstChild := some child }

def setLastChild (child : NodeId) (n : XmlNode) : XmlNode := { n with lastChild := some child }

def setName (name : Text) (n : XmlNode) : XmlNode := { n with name := some name }

def setText (text : Text) (n : XmlNode) : XmlNode := { n with text := some text }

def addAttribute (name value : Text) (n : XmlNode) : XmlNode := { n with attributes := n.attributes ++ [(name, value)] }

def load (h : Heap) (node : Option NodeId) : Parser XmlNode := fun c =>
  match node.bind (h[·]?) with
  | none => .fault
  | some n => .ok n c

/-- `xapi_xmlAppendChild`. -/
def appendChild (parent child : NodeId) (h : Heap) : Parser Heap := do
  let _ ← load h (some child)
  let h := h.modify child (setParent parent)
  let node ← load h (some parent)
  if node.firstChild = none then pure (h.modify parent fun n => setLastChild child (setFirstChild child n))
  else do
    let _ ← load h node.lastChild
    pure ((h.modify (node.lastChild.getD 0) (setNextSibling child)).modify parent (setLastChild child))

def isNameStart (ch : Char) : Bool := 'a' ≤ ch && ch ≤ 'z' || 'A' ≤ ch && ch ≤ 'Z' || ch = '_' || ch = ':'

def isNameChar (ch : Char) : Bool := isNameStart ch || '0' ≤ ch && ch ≤ '9' || ch = '-' || ch = '.'

def skipSpaces : Parser PUnit := skipWhile isspace

def skipComment : Parser PUnit := do
  advance 4
  let _ ← through ['-', '-', '>'] .syntaxError
  pure ⟨⟩

def skipInstruction : Parser PUnit := do
  advance 2
  let _ ← through ['?', '>'] .syntaxError
  pure ⟨⟩

/-- The loop of `xapi_xmlSkipDeclaration`; no quote is open where it is the NUL. -/
def declarationLoop : Nat → Nat → Char → Parser PUnit
  | 0, _, _ => outOfRounds
  | more + 1, squareDepth, quote => do
    let ch ← deref
    if ch = nul then fail .syntaxError
    else do
      advance 1
      if quote ≠ nul then declarationLoop more squareDepth (if ch = quote then nul else quote)
      else if ch = '"' ∨ ch = '\'' then declarationLoop more squareDepth ch
      else if ch = '[' then declarationLoop more (squareDepth + 1) quote
      else if ch = ']' ∧ squareDepth > 0 then declarationLoop more (squareDepth - 1) quote
      else if ch = '>' ∧ squareDepth = 0 then pure ⟨⟩
      else declarationLoop more squareDepth quote

def skipDeclaration : Parser PUnit := do
  advance 2
  let cursor ← here
  declarationLoop (rounds cursor) 0 nul

/-- The loop of `xapi_xmlSkipMisc`. -/
def miscLoop : Nat → Parser PUnit
  | 0 => outOfRounds
  | more + 1 => do
    skipSpaces
    let comment ← startsWith ['<', '!', '-', '-'] 0
    if comment then do
      skipComment
      miscLoop more
    else do
      let instruction ← startsWith ['<', '?'] 0
      if instruction then do
        skipInstruction
        miscLoop more
      else do
        let declaration ← startsWith ['<', '!'] 0
        if declaration then do
          skipDeclaration
          miscLoop more
        else pure ⟨⟩

def skipMisc : Parser PUnit := do
  let cursor ← here
  miscLoop (rounds cursor)

def appendText (text : Text) (parent : NodeId) (h : Heap) : Parser Heap :=
  appendChild parent h.length ((createNode .text h).modify h.length (setText text))

def parseTextNode (parent : NodeId) (h : Heap) : Parser Heap := do
  let text ← spanWhile fun ch => ch ≠ nul && ch ≠ '<'
  if text.all isspace then pure h else appendText text parent h

def parseCDataNode (parent : NodeId) (h : Heap) : Parser Heap := do
  advance 9
  let text ← through [']', ']', '>'] .syntaxError
  appendText text parent h

def parseName : Parser Text := do
  let ch ← deref
  if isNameStart ch then spanWhile isNameChar else fail .syntaxError

def parseAttribute (node : NodeId) (h : Heap) : Parser Heap := do
  let name ← parseName
  skipSpaces
  let ch ← deref
  if ch ≠ '=' then fail .syntaxError
  else do
    advance 1
    skipSpaces
    let quote ← deref
    if quote ≠ '"' ∧ quote ≠ '\'' then fail .syntaxError
    else do
      advance 1
      let value ← spanWhile fun ch => ch ≠ nul && ch ≠ quote
      let ch ← deref
      if ch ≠ quote then fail .syntaxError
      else do
        advance 1
        pure (h.modify node (addAttribute name value))

/-- The first loop of `xapi_xmlParseElement`, and whether the element ends there. -/
def attributeLoop (node : NodeId) : Nat → Heap → Parser (Bool × Heap)
  | 0, _ => outOfRounds
  | more + 1, h => do
    skipSpaces
    let closed ← startsWith ['/', '>'] 0
    if closed then do
      advance 2
      pure (true, h)
    else do
      let ch ← deref
      if ch = '>' then do
        advance 1
        pure (false, h)
      else if ch = nul then fail .syntaxError
      else do
        let h ← parseAttribute node h
        attributeLoop node more h

/-- The end tag, behind its `</`. -/
def parseEndTag (name : Text) : Parser PUnit := do
  let closingName ← parseName
  if name ≠ closingName then fail .mismatchTag
  else do
    skipSpaces
    let ch ← deref
    if ch ≠ '>' then fail .syntaxError else advance 1

/-- The second loop of `xapi_xmlParseElement`. -/
def contentLoop (parseElement : Heap → Parser (NodeId × Heap)) (node : NodeId) (name : Text) : Nat → Heap → Parser Heap
  | 0, _ => outOfRounds
  | more + 1, h => do
    let endTag ← startsWith ['<', '/'] 0
    if endTag then do
      advance 2
      parseEndTag name
      pure h
    else do
      let comment ← startsWith ['<', '!', '-', '-'] 0
      if comment then do
        skipComment
        contentLoop parseElement node name more h
      else do
        let cdata ← startsWith ['<', '!', '[', 'C', 'D', 'A', 'T', 'A', '['] 0
        if cdata then do
          let h ← parseCDataNode node h
          contentLoop parseElement node name more h
        else do
          let instruction ← startsWith ['<', '?'] 0
          if instruction then do
            skipInstruction
            contentLoop parseElement node name more h
          else do
            let ch ← deref
            if ch = '<' then do
              let (child, h) ← parseElement h
              let h ← appendChild node child h
              contentLoop parseElement node name more h
            else do
              let h ← parseTextNode node h
              let ch ← deref
              if ch = nul then fail .syntaxError else contentLoop parseElement node name more h

/-- `xapi_xmlParseElement`, to a depth. -/
def parseElement : Nat → Heap → Parser (NodeId × Heap)
  | 0, _ => outOfRounds
  | depth + 1, h => do
    let ch ← deref
    if ch ≠ '<' then fail .syntaxError
    else do
      advance 1
      let node := h.length
      let h := createNode .element h
      let name ← parseName
      let h := h.modify node (setName name)
      let cursor ← here
      let (closed, h) ← attributeLoop node (rounds cursor) h
      if closed then pure (node, h)
      else do
        let cursor ← here
        let h ← contentLoop (parseElement depth) node name (rounds cursor) h
        pure (node, h)

/-- The end of `xapi_parseXml`, where the root is already in the tree; `xapi_freeXmlTree` takes it out again. -/
def parseEpilog (root : NodeId) (h : Heap) (c : Cursor) : Option (ParseResult × Option NodeId × Heap) :=
  match (do skipMisc; deref : Parser Char) c with
  | .ok ch _ => if ch ≠ nul then some (.trailingContent, none, []) else some (.ok, some root, h)
  | .error e => some (e, none, [])
  | .fault => none
  | .spent => none

/-- What `xapi_parseXml` returns, the root of the tree and the nodes; nothing where it reads past the NUL, follows a
pointer to nothing or does not end. -/
def parseXml (xmlText : Text) : Option (ParseResult × Option NodeId × Heap) :=
  match (do skipMisc; let cursor ← here; parseElement (rounds cursor) [] : Parser (NodeId × Heap)) (some xmlText) with
  | .ok (root, h) c => parseEpilog root h c
  | .error e => some (e, none, [])
  | .fault => none
  | .spent => none

end OpenXJ380.Xml
