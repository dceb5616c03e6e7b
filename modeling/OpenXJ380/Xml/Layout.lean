import Mathlib.Data.List.Chain
import OpenXJ380.Xml.Model

/-! # Element trees and their texts -/

namespace OpenXJ380.Xml

open List (append_assoc cons_append cons_ne_nil length_append length_cons nil_append)

section

open TextCursor
open Json (isspace Spaces)

inductive XmlTree where
  | text (text : Text)
  | element (name : Text) (attributes : List (Text × Text)) (children : List XmlTree)

def XmlTree.isText : XmlTree → Bool
  | .text _ => true
  | .element _ _ _ => false

def XmlTree.children : XmlTree → List XmlTree
  | .text _ => []
  | .element _ _ children => children

inductive IsName : Text → Prop
  | chars {ch : Char} {t : Text} (hStart : isNameStart ch = true) (hRest : ∀ c ∈ t, isNameChar c = true) :
      IsName (ch :: t)

def IsCharData (t : Text) : Prop := t.all isspace = false ∧ '<' ∉ t

def IsAttributeOf (a : Text × Text) : Prop := IsName a.1 ∧ ('"' ∉ a.2 ∨ '\'' ∉ a.2)

def NoAdjacentText (children : List XmlTree) : Prop := children.IsChain fun a b => ¬ (a.isText = true ∧ b.isText = true)

mutual

def WellFormed : XmlTree → Prop
  | .text t => IsCharData t
  | .element name attributes children =>
    IsName name ∧ (∀ a ∈ attributes, IsAttributeOf a) ∧ NoAdjacentText children ∧ AllWellFormed children

def AllWellFormed : List XmlTree → Prop
  | [] => True
  | child :: children => WellFormed child ∧ AllWellFormed children

end

def printAttribute (a : Text × Text) : Text :=
  let quote := if '"' ∈ a.2 then '\'' else '"'
  a.1 ++ '=' :: quote :: (a.2 ++ [quote])

def printAttributes (attributes : List (Text × Text)) : Text := attributes.flatMap fun a => ' ' :: printAttribute a

mutual

def print : XmlTree → Text
  | .text t => t
  | .element name attributes children =>
    '<' :: (name ++ (printAttributes attributes ++ '>' :: (printAll children ++ '<' :: '/' :: (name ++ ['>']))))

def printAll : List XmlTree → Text
  | [] => []
  | child :: children => print child ++ printAll children

end

inductive IsComment : Text → Prop
  | comment {body : Text} (hBody : ¬ ['-', '-', '>'] <:+: body) :
      IsComment (['<', '!', '-', '-'] ++ (body ++ ['-', '-', '>']))

inductive IsInstruction : Text → Prop
  | instruction {body : Text} (hBody : ¬ ['?', '>'] <:+: body) : IsInstruction (['<', '?'] ++ (body ++ ['?', '>']))

inductive IsMisc : Text → Prop
  | spaces {w : Text} (hSpaces : Spaces w) : IsMisc w
  | markup {w u t : Text} (hSpaces : Spaces w) (hMarkup : IsComment u ∨ IsInstruction u) (rest : IsMisc t) :
      IsMisc (w ++ (u ++ t))

inductive IsAttribute (name value : Text) : Text → Prop
  | quoted {a b : Text} {quote : Char} (hName : IsName name) (hBefore : Spaces a) (hAfter : Spaces b)
      (hQuote : quote = '"' ∨ quote = '\'') (hValue : quote ∉ value) :
      IsAttribute name value (name ++ (a ++ '=' :: (b ++ quote :: (value ++ [quote]))))

inductive IsAttributes : List (Text × Text) → Text → Prop
  | nil : IsAttributes [] []
  | cons {name value w u t : Text} {attributes : List (Text × Text)} (hSpaces : Spaces w) (hSome : w ≠ [])
      (hAttribute : IsAttribute name value u) (rest : IsAttributes attributes t) :
      IsAttributes ((name, value) :: attributes) (w ++ (u ++ t))

mutual

/-- White space stands before an attribute, around its `=` and before the end of a tag. -/
inductive IsElement : XmlTree → Text → Prop
  | empty {name t w : Text} {attributes : List (Text × Text)} (hName : IsName name)
      (hAttributes : IsAttributes attributes t) (hSpaces : Spaces w) :
      IsElement (.element name attributes []) ('<' :: (name ++ (t ++ (w ++ ['/', '>']))))
  | content {name t w c v : Text} {attributes : List (Text × Text)} {children : List XmlTree} (hName : IsName name)
      (hAttributes : IsAttributes attributes t) (hSpaces : Spaces w) (hContent : IsContent true children c)
      (hEnd : Spaces v) :
      IsElement (.element name attributes children)
        ('<' :: (name ++ (t ++ (w ++ '>' :: (c ++ '<' :: '/' :: (name ++ (v ++ ['>'])))))))

/-- The children, with what is inserted between markup. Characters may come first where none stand before. -/
inductive IsContent : Bool → List XmlTree → Text → Prop
  | nil {chars : Bool} : IsContent chars [] []
  | spaces {w t : Text} {children : List XmlTree} (hSpaces : Spaces w) (hSome : w ≠ [])
      (rest : IsContent false children t) : IsContent true children (w ++ t)
  | markup {chars : Bool} {u t : Text} {children : List XmlTree} (hMarkup : IsComment u ∨ IsInstruction u)
      (rest : IsContent true children t) : IsContent chars children (u ++ t)
  | text {s t : Text} {children : List XmlTree} (hText : IsCharData s) (rest : IsContent false children t) :
      IsContent true (.text s :: children) (s ++ t)
  | element {chars : Bool} {tree : XmlTree} {u t : Text} {children : List XmlTree} (hElement : IsElement tree u)
      (rest : IsContent true children t) : IsContent chars (tree :: children) (u ++ t)

end

inductive IsDocument (root : XmlTree) : Text → Prop
  | text {a u b : Text} (hBefore : IsMisc a) (hElement : IsElement root u) (hAfter : IsMisc b) :
      IsDocument root (a ++ (u ++ b))

theorem spaces_nil : Spaces [] := fun _ h => nomatch h

theorem isAttribute_print {a : Text × Text} (h : IsAttributeOf a) : IsAttribute a.1 a.2 (printAttribute a) := by
  obtain ⟨hName, hQuote⟩ := h
  rw [printAttribute]
  split
  · next hDouble =>
    obtain hNot | hSingle := hQuote
    · exact absurd hDouble hNot
    · exact .quoted (a := []) (b := []) hName spaces_nil spaces_nil (.inr rfl) hSingle
  · next hDouble => exact .quoted (a := []) (b := []) hName spaces_nil spaces_nil (.inl rfl) hDouble

theorem isAttributes_print {attributes : List (Text × Text)} (h : ∀ a ∈ attributes, IsAttributeOf a) :
    IsAttributes attributes (printAttributes attributes) := by
  induction attributes with
  | nil => exact .nil
  | cons a attributes ih =>
    obtain ⟨hFirst, hRest⟩ := List.forall_mem_cons.mp h
    have hSpaces : Spaces [' '] := by
      rintro ch (_ | ⟨_, ⟨⟩⟩)
      rfl
    rw [printAttributes, List.flatMap_cons]
    exact .cons hSpaces (cons_ne_nil _ _) (isAttribute_print hFirst) (ih hRest)

mutual

theorem isElement_print (name : Text) (attributes : List (Text × Text)) (children : List XmlTree)
    (h : WellFormed (.element name attributes children)) :
    IsElement (.element name attributes children) (print (.element name attributes children)) := by
  rw [WellFormed] at h
  obtain ⟨hName, hAttributes, hText, hChildren⟩ := h
  rw [print]
  exact .content (w := []) (v := []) hName (isAttributes_print hAttributes) spaces_nil
    (isContent_print children hChildren hText true (absurd · Bool.noConfusion)) spaces_nil

theorem isContent_print (children : List XmlTree) (h : AllWellFormed children) (hText : NoAdjacentText children)
    (chars : Bool) (hFirst : chars = false → ∀ child ∈ children.head?, child.isText = false) :
    IsContent chars children (printAll children) := by
  cases children with
  | nil => exact .nil
  | cons child children =>
    rw [AllWellFormed] at h
    obtain ⟨hChild, hChildren⟩ := h
    rw [printAll]
    cases child with
    | text t =>
      cases chars with
      | false => exact absurd (hFirst rfl _ rfl) Bool.noConfusion
      | true =>
        rw [WellFormed] at hChild
        rw [print]
        refine .text hChild (isContent_print children hChildren hText.tail false ?_)
        rintro - next hNext
        cases children with
        | nil => cases hNext
        | cons second children =>
          cases hNext
          rw [NoAdjacentText, List.isChain_cons_cons] at hText
          rw [← Bool.not_eq_true]
          exact fun hNextText => hText.1 ⟨rfl, hNextText⟩
    | element name attributes grandchildren =>
      exact .element (isElement_print name attributes grandchildren hChild)
        (isContent_print children hChildren hText.tail true (absurd · Bool.noConfusion))

end

end

/-! # The nodes of a tree

A tree is allocated in the order in which its text begins its nodes.
-/

open TextCursor

mutual

/-- The node has the tree's name, attributes and text, and it is linked to its parent and its next sibling and to the
nodes of the children, in their order. -/
def Holds (h : Heap) : XmlTree → NodeId → Option NodeId → Option NodeId → Prop
  | .text t, n, parent, next =>
    h[n]? = some { type := .text, name := none, text := some t, attributes := [], parent := parent, firstChild := none,
                   lastChild := none, nextSibling := next }
  | .element name attributes children, n, parent, next =>
    ∃ ids : List NodeId,
      h[n]? = some { type := .element, name := some name, text := none, attributes := attributes, parent := parent,
                     firstChild := ids.head?, lastChild := ids.getLast?, nextSibling := next } ∧
        AllHold h children ids n

def AllHold (h : Heap) : List XmlTree → List NodeId → NodeId → Prop
  | [], [], _ => True
  | child :: children, id :: ids, parent => Holds h child id (some parent) ids.head? ∧ AllHold h children ids parent
  | [], _ :: _, _ => False
  | _ :: _, [], _ => False

end

mutual

def size : XmlTree → Nat
  | .text _ => 1
  | .element _ _ children => sizes children + 1

def sizes : List XmlTree → Nat
  | [] => 0
  | child :: children => size child + sizes children

end

def idsOf : NodeId → List XmlTree → List NodeId
  | _, [] => []
  | n, child :: children => n :: idsOf (n + size child) children

def nodeOf : XmlTree → NodeId → Option NodeId → Option NodeId → XmlNode
  | .text t, _, parent, next =>
    { type := .text, name := none, text := some t, attributes := [], parent := parent, firstChild := none,
      lastChild := none, nextSibling := next }
  | .element name attributes children, n, parent, next =>
    { type := .element, name := some name, text := none, attributes := attributes, parent := parent,
      firstChild := (idsOf (n + 1) children).head?, lastChild := (idsOf (n + 1) children).getLast?,
      nextSibling := next }

mutual

def layout : XmlTree → NodeId → Option NodeId → Option NodeId → Heap
  | .text t, n, parent, next => [nodeOf (.text t) n parent next]
  | .element name attributes children, n, parent, next =>
    nodeOf (.element name attributes children) n parent next :: layoutAll children (n + 1) n none

def layoutAll : List XmlTree → NodeId → NodeId → Option NodeId → Heap
  | [], _, _, _ => []
  | child :: children, n, parent, after =>
    layout child n (some parent) ((idsOf (n + size child) children).head?.or after) ++
      layoutAll children (n + size child) parent after

end

theorem layout_eq (tree : XmlTree) (n : NodeId) (parent next : Option NodeId) :
    layout tree n parent next = nodeOf tree n parent next :: layoutAll tree.children (n + 1) n none := by
  cases tree with
  | text t => rw [layout, XmlTree.children, layoutAll]
  | element name attributes children => rw [layout, XmlTree.children]

mutual

theorem length_layout (tree : XmlTree) (n : NodeId) (parent next : Option NodeId) :
    (layout tree n parent next).length = size tree := by
  cases tree with
  | text t => rw [layout, size, List.length_singleton]
  | element name attributes children => rw [layout, size, length_cons, length_layoutAll children]

theorem length_layoutAll (children : List XmlTree) (n parent : NodeId) (after : Option NodeId) :
    (layoutAll children n parent after).length = sizes children := by
  cases children with
  | nil => rw [layoutAll, sizes, List.length_nil]
  | cons child children =>
    rw [layoutAll, sizes, length_append, length_layout child, length_layoutAll children]

end

theorem idsOf_concat (n : NodeId) (children : List XmlTree) (child : XmlTree) :
    idsOf n (children ++ [child]) = idsOf n children ++ [n + sizes children] := by
  induction children generalizing n with
  | nil => rfl
  | cons first children ih => rw [cons_append, idsOf, idsOf, ih, cons_append, sizes, add_assoc]

theorem layoutAll_concat (children : List XmlTree) (child : XmlTree) (n parent : NodeId) (after : Option NodeId) :
    layoutAll (children ++ [child]) n parent after = layoutAll children n parent (some (n + sizes children)) ++
        layout child (n + sizes children) (some parent) after := by
  induction children generalizing n with
  | nil =>
    rw [nil_append, layoutAll, layoutAll, layoutAll, List.append_nil, nil_append]
    rfl
  | cons first children ih =>
    have hNext : (idsOf (n + size first) (children ++ [child])).head?.or after =
        (idsOf (n + size first) children).head?.or (some (n + sizes (first :: children))) := by
      rw [idsOf_concat, sizes, ← add_assoc]
      cases children with
      | nil => rfl
      | cons second children => rfl
    rw [cons_append, layoutAll, layoutAll, ih, hNext, sizes, append_assoc, add_assoc]

theorem modify_at {pre post : Heap} {n : XmlNode} {i : NodeId} (hAt : i = pre.length) (f : XmlNode → XmlNode) :
    (pre ++ n :: post).modify i f = pre ++ f n :: post := by
  subst hAt
  induction pre with
  | nil => exact List.modify_zero_cons f n post
  | cons first pre ih => rw [cons_append, length_cons, List.modify_succ_cons, ih, cons_append]

theorem load_at {pre post : Heap} {n : XmlNode} {i : NodeId} (hAt : i = pre.length) (c : Cursor) :
    load (pre ++ n :: post) (some i) c = .ok n c := by
  have hGet : (some i).bind ((pre ++ n :: post)[·]?) = some n := by
    subst hAt
    rw [Option.bind_some, List.getElem?_append_right le_rfl, Nat.sub_self, List.getElem?_cons_zero]
  rw [load, hGet]

theorem setParent_nodeOf (tree : XmlTree) (n parent : NodeId) (next : Option NodeId) :
    setParent parent (nodeOf tree n none next) = nodeOf tree n (some parent) next := by
  cases tree <;> rfl

theorem setNextSibling_nodeOf (tree : XmlTree) (n next : NodeId) (parent : Option NodeId) :
    setNextSibling next (nodeOf tree n parent none) = nodeOf tree n parent (some next) := by
  cases tree <;> rfl

theorem setLastChild_nodeOf {children : List XmlTree} (hSome : children ≠ []) (child : XmlTree) (name : Text)
    (attributes : List (Text × Text)) (n : NodeId) (parent next : Option NodeId) :
    setLastChild (n + 1 + sizes children) (nodeOf (.element name attributes children) n parent next) =
      nodeOf (.element name attributes (children ++ [child])) n parent next := by
  cases children with
  | nil => exact absurd rfl hSome
  | cons first children =>
    have hLast : (idsOf (n + 1) (first :: children ++ [child])).getLast? =
        some (n + 1 + sizes (first :: children)) := by
      rw [idsOf_concat, List.getLast?_concat]
    rw [nodeOf, nodeOf, hLast]
    rfl

section Append

variable {h : Heap} {parent child : NodeId} {new node : XmlNode} {c : Cursor}
  (hNew : load h (some child) c = .ok new c)
  (hNode : load (h.modify child (setParent parent)) (some parent) c = .ok node c)
include hNew hNode

theorem appendChild_first (hFirst : node.firstChild = none) : appendChild parent child h c =
      .ok ((h.modify child (setParent parent)).modify parent fun n => setLastChild child (setFirstChild child n))
        c := by
  rw [appendChild, bind_ok hNew, bind_ok hNode, if_pos hFirst, pure_eq]

theorem appendChild_next {last : NodeId} {sibling : XmlNode} (hFirst : node.firstChild ≠ none)
    (hLast : node.lastChild = some last)
    (hSibling : load (h.modify child (setParent parent)) (some last) c = .ok sibling c) : appendChild parent child h c =
      .ok (((h.modify child (setParent parent)).modify last (setNextSibling child)).modify parent (setLastChild child))
        c := by
  rw [appendChild, bind_ok hNew, bind_ok hNode, if_neg hFirst, hLast, bind_ok hSibling, pure_eq, Option.getD_some]

end Append

theorem appendChild_layout {pre : Heap} {name : Text} {attributes : List (Text × Text)} (children : List XmlTree)
    (child : XmlTree) {n m : Nat} (hNode : n = pre.length) (hChild : m = n + 1 + sizes children) (c : Cursor) :
    appendChild n m (pre ++ (layout (.element name attributes children) n none none ++ layout child m none none)) c =
      .ok (pre ++ layout (.element name attributes (children ++ [child])) n none none) c := by
  have hLength : m = (pre ++ layout (.element name attributes children) n none none).length := by
    rw [length_append, length_layout, size]
    omega
  have hPut : (pre ++ (layout (.element name attributes children) n none none ++ layout child m none none)).modify m
      (setParent n) =
        pre ++ (layout (.element name attributes children) n none none ++ layout child m (some n) none) := by
    rw [← append_assoc, layout_eq child, modify_at hLength, setParent_nodeOf, ← layout_eq, append_assoc]
  have hNew : load (pre ++ (layout (.element name attributes children) n none none ++ layout child m none none))
      (some m) c = .ok (nodeOf child m none none) c := by
    rw [← append_assoc, layout_eq child]
    exact load_at hLength c
  have hParent : load ((pre ++ (layout (.element name attributes children) n none none ++
      layout child m none none)).modify m (setParent n)) (some n) c =
        .ok (nodeOf (.element name attributes children) n none none) c := by
    rw [hPut, layout]
    exact load_at hNode c
  obtain rfl | ⟨earlier, last, rfl⟩ := List.eq_nil_or_concat children
  · rw [appendChild_first hNew hParent rfl, hPut, layout, cons_append, modify_at hNode, hChild]
    simp only [layout, layoutAll, nil_append, List.append_nil, sizes, add_zero]
    rfl
  · rw [List.concat_eq_append] at hLength hChild hPut hNew hParent ⊢
    have hIds : idsOf (n + 1) (earlier ++ [last]) = idsOf (n + 1) earlier ++ [n + 1 + sizes earlier] :=
      idsOf_concat _ _ _
    have hFirst : (nodeOf (.element name attributes (earlier ++ [last])) n none none).firstChild ≠ none := by
      change (idsOf (n + 1) (earlier ++ [last])).head? ≠ none
      rw [hIds, Ne, List.head?_eq_none_iff]
      exact List.append_ne_nil_of_right_ne_nil _ (cons_ne_nil _ _)
    have hLast : (nodeOf (.element name attributes (earlier ++ [last])) n none none).lastChild =
        some (n + 1 + sizes earlier) := by
      change (idsOf (n + 1) (earlier ++ [last])).getLast? = _
      rw [hIds, List.getLast?_concat]
    -- The last child so far, among the nodes before and after it.
    have hSplit : ∀ (node : XmlNode) (next : Option NodeId),
        pre ++ (node :: layoutAll (earlier ++ [last]) (n + 1) n next ++ layout child m (some n) none) =
          (pre ++ (node :: layoutAll earlier (n + 1) n (some (n + 1 + sizes earlier)))) ++
            (nodeOf last (n + 1 + sizes earlier) (some n) next ::
              (layoutAll last.children (n + 1 + sizes earlier + 1) (n + 1 + sizes earlier) none ++
                layout child m (some n) none)) := by
      intro node next
      rw [layoutAll_concat, layout_eq last]
      simp only [append_assoc, cons_append]
    have hAt : ∀ node : XmlNode, n + 1 + sizes earlier =
        (pre ++ (node :: layoutAll earlier (n + 1) n (some (n + 1 + sizes earlier)))).length := by
      intro node
      rw [length_append, length_cons, length_layoutAll]
      omega
    have hSibling : load ((pre ++ (layout (.element name attributes (earlier ++ [last])) n none none ++
        layout child m none none)).modify m (setParent n)) (some (n + 1 + sizes earlier)) c =
          .ok (nodeOf last (n + 1 + sizes earlier) (some n) none) c := by
      rw [hPut, layout, hSplit]
      exact load_at (hAt _) c
    rw [appendChild_next hNew hParent hFirst hLast hSibling, hPut, layout, hSplit, modify_at (hAt _),
      setNextSibling_nodeOf, ← hSplit, cons_append, modify_at hNode, layout, layoutAll_concat _ child, ← hChild]
    congr 3
    rw [hChild]
    exact setLastChild_nodeOf (List.append_ne_nil_of_right_ne_nil _ (cons_ne_nil _ _)) _ _ _ _ _ _

theorem getElem?_at (pre post : Heap) (n : XmlNode) : (pre ++ n :: post)[pre.length]? = some n := by
  rw [List.getElem?_append_right le_rfl, Nat.sub_self, List.getElem?_cons_zero]

mutual

theorem holds_layout (tree : XmlTree) (pre post : Heap) (parent next : Option NodeId) :
    Holds (pre ++ (layout tree pre.length parent next ++ post)) tree pre.length parent next := by
  cases tree with
  | text t =>
    rw [Holds, layout]
    exact getElem?_at pre post _
  | element name attributes children =>
    rw [Holds, layout, cons_append]
    refine ⟨idsOf (pre.length + 1) children, getElem?_at pre _ _, ?_⟩
    have hChildren := allHold_layout children
      (pre ++ [nodeOf (.element name attributes children) pre.length parent next]) post pre.length
    rw [length_append, List.length_singleton, append_assoc, List.singleton_append] at hChildren
    exact hChildren

theorem allHold_layout (children : List XmlTree) (pre post : Heap) (parent : NodeId) :
    AllHold (pre ++ (layoutAll children pre.length parent none ++ post)) children (idsOf pre.length children)
      parent := by
  cases children with
  | nil => trivial
  | cons child children =>
    rw [layoutAll, idsOf, AllHold, Option.or_none]
    constructor
    · rw [append_assoc]
      exact holds_layout child pre _ _ _
    · have hRest := allHold_layout children
        (pre ++ layout child pre.length (some parent) (idsOf (pre.length + size child) children).head?) post parent
      rw [length_append, length_layout, append_assoc, ← append_assoc (layout child _ _ _)] at hRest
      exact hRest

end

end OpenXJ380.Xml
