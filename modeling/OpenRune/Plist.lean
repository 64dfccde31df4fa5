import OpenRune.Java

/-!
# Property lists

The output of `hdiutil attach -plist` as a document tree, and the search for the
mount point in it.
-/
namespace OpenRune.Plist
open OpenRune.Java

/-- The children of a node, in document order; `other` stands for comments and
    processing instructions. -/
inductive Nodes
  | nil
  | element (name : String) (children rest : Nodes)
  | text (content : String) (rest : Nodes)
  | other (rest : Nodes)
  deriving DecidableEq, Repr

/-- The children of every descendant element with the name, in document order. -/
def Nodes.getElementsByTagName (name : String) : Nodes → List Nodes
  | .nil => []
  | .element found children rest =>
    (if found = name then [children] else []) ++ children.getElementsByTagName name ++ rest.getElementsByTagName name
  | .text _ rest => rest.getElementsByTagName name
  | .other rest => rest.getElementsByTagName name

def Nodes.getTextContent : Nodes → String
  | .nil => ""
  | .element _ children rest => children.getTextContent ++ rest.getTextContent
  | .text content rest => content ++ rest.getTextContent
  | .other rest => rest.getTextContent

/-- The inner loop: a value is the element after a key. -/
def Nodes.mountPoint (lastKey : Option String) : Nodes → Option String
  | .nil => none
  | .element name children rest =>
    if name = "key" then rest.mountPoint (some children.getTextContent)
    else match lastKey with
      | none => rest.mountPoint none
      | some key => if key = "mount-point" then some children.getTextContent else rest.mountPoint none
  | .text _ rest => rest.mountPoint lastKey
  | .other rest => rest.mountPoint lastKey

/-- `Updater.parseHdiutilPlist` on the document that the parser has built. -/
def parseHdiutilPlist (doc : Nodes) : Except Thrown (Option String) := do
  let plist ← deref (doc.getElementsByTagName "plist")[0]?
  let dict ← deref (plist.getElementsByTagName "dict")[0]?
  let arr ← deref (dict.getElementsByTagName "array")[0]?
  return (arr.getElementsByTagName "dict").findSome? (Nodes.mountPoint none)

end OpenRune.Plist
