import OpenRune.Plist

/-!
# Mount points

The documents that `hdiutil` prints, as pairs of keys and values, and what
`Updater.parseHdiutilPlist` finds in them.
-/
namespace OpenRune.MountPoints
open OpenRune.Java OpenRune.Plist

def append : Nodes → Nodes → Nodes
  | .nil, later => later
  | .element name children rest, later => .element name children (append rest later)
  | .text content rest, later => .text content (append rest later)
  | .other rest, later => .other (append rest later)

/-- Text and comments, without elements. -/
def Flat : Nodes → Prop
  | .nil => True
  | .element _ _ _ => False
  | .text _ rest => Flat rest
  | .other rest => Flat rest

/-- The children of a dict with the given keys and values; a value is any element
    without elements in it. -/
inductive Entity : List (String × String) → Nodes → Prop
  | nil : Entity [] .nil
  | text {pairs : List (String × String)} {content : String} {rest : Nodes} (later : Entity pairs rest) :
      Entity pairs (.text content rest)
  | other {pairs : List (String × String)} {rest : Nodes} (later : Entity pairs rest) : Entity pairs (.other rest)
  | pair {pairs : List (String × String)} {key gap value rest : Nodes} {name : String} (keyFlat : Flat key)
      (gapFlat : Flat gap) (valued : name ≠ "key") (valueFlat : Flat value) (later : Entity pairs rest) :
      Entity ((key.getTextContent,value.getTextContent) :: pairs) (.element "key" key (append gap (.element name value rest)))

/-- The children of an array of such dicts. -/
inductive Entities : List (List (String × String)) → Nodes → Prop
  | nil : Entities [] .nil
  | text {dicts : List (List (String × String))} {content : String} {rest : Nodes} (later : Entities dicts rest) :
      Entities dicts (.text content rest)
  | other {dicts : List (List (String × String))} {rest : Nodes} (later : Entities dicts rest) : Entities dicts (.other rest)
  | dict {pairs : List (String × String)} {dicts : List (List (String × String))} {children rest : Nodes}
      (entity : Entity pairs children) (later : Entities dicts rest) : Entities (pairs :: dicts) (.element "dict" children rest)

/-- A property list whose first array is the value of `system-entities` in its dict. -/
inductive Document (dicts : List (List (String × String))) : Nodes → Prop
  | plist {prolog lead before key gap array after trail epilog : Nodes} (prologFlat : Flat prolog) (leadFlat : Flat lead)
      (first : before.getElementsByTagName "array" = []) (keyFlat : Flat key)
      (named : key.getTextContent = "system-entities") (gapFlat : Flat gap) (entities : Entities dicts array) :
      Document dicts (append prolog (.element "plist" (append lead (.element "dict"
        (append before (.element "key" key (append gap (.element "array" array after)))) trail)) epilog))

/-- The value of the first key `mount-point`. -/
def mountPointOf (pairs : List (String × String)) : Option String :=
  (pairs.find? fun pair => pair.1 == "mount-point").map Prod.snd

/-! ## Searching -/

section
variable {first later gap nodes : Nodes} {name : String}

theorem elements_append (first later : Nodes) (name : String) : (append first later).getElementsByTagName name =
    first.getElementsByTagName name ++ later.getElementsByTagName name := by
  induction first with
  | nil => rfl
  | element found children rest _ ih => simp only [append,Nodes.getElementsByTagName,ih,List.append_assoc]
  | text content rest ih => exact ih
  | other rest ih => exact ih

theorem elements_flat (flat : Flat nodes) (name : String) : nodes.getElementsByTagName name = [] := by
  induction nodes with
  | nil => rfl
  | element found children rest => exact flat.elim
  | text content rest ih => exact ih flat
  | other rest ih => exact ih flat

theorem mountPoint_append (flat : Flat gap) (lastKey : Option String) :
    (append gap later).mountPoint lastKey = later.mountPoint lastKey := by
  induction gap with
  | nil => rfl
  | element found children rest => exact flat.elim
  | text content rest ih => exact ih flat
  | other rest ih => exact ih flat

theorem mountPoint_flat (flat : Flat nodes) (lastKey : Option String) : nodes.mountPoint lastKey = none := by
  induction nodes with
  | nil => rfl
  | element found children rest => exact flat.elim
  | text content rest ih => exact ih flat
  | other rest ih => exact ih flat

end

/-- The inner loop pairs every key with its value. -/
theorem entity_mountPoint {pairs : List (String × String)} {nodes : Nodes} (entity : Entity pairs nodes) :
    nodes.mountPoint none = mountPointOf pairs := by
  induction entity with
  | nil => rfl
  | text later ih => exact ih
  | other later ih => exact ih
  | @pair pairs key gap value rest name keyFlat gapFlat valued valueFlat later ih =>
    rw [Nodes.mountPoint,if_pos rfl,mountPoint_append gapFlat,Nodes.mountPoint,if_neg valued]
    by_cases here : key.getTextContent = "mount-point"
    · simp [mountPointOf,here]
    · simp [mountPointOf,here,ih]

/-- A dict among the values holds nothing. -/
theorem entity_inner {pairs : List (String × String)} {nodes : Nodes} (entity : Entity pairs nodes) :
    (nodes.getElementsByTagName "dict").findSome? (Nodes.mountPoint none) = none := by
  induction entity with
  | nil => rfl
  | text later ih => exact ih
  | other later ih => exact ih
  | @pair pairs key gap value rest name keyFlat gapFlat valued valueFlat later ih =>
    rw [Nodes.getElementsByTagName,if_neg (by decide),elements_flat keyFlat,elements_append,elements_flat gapFlat,
      Nodes.getElementsByTagName,elements_flat valueFlat]
    by_cases dict : name = "dict"
    · simp [dict,mountPoint_flat valueFlat,ih]
    · simp [dict,ih]

/-- The outer loop goes through the dicts in their order. -/
theorem entities_mountPoint {dicts : List (List (String × String))} {nodes : Nodes} (entities : Entities dicts nodes) :
    (nodes.getElementsByTagName "dict").findSome? (Nodes.mountPoint none) = dicts.findSome? mountPointOf := by
  induction entities with
  | nil => rfl
  | text later ih => exact ih
  | other later ih => exact ih
  | @dict pairs dicts children rest entity later ih =>
    rw [Nodes.getElementsByTagName,if_pos rfl,List.append_assoc,List.singleton_append,List.findSome?_cons,
      entity_mountPoint entity,List.findSome?_cons,List.findSome?_append,entity_inner entity,ih]
    cases mountPointOf pairs <;> rfl

/-- What is found is the value of the first `mount-point` among the keys of the
    first entity that has one. -/
theorem mount_point_found {dicts : List (List (String × String))} {doc : Nodes} (document : Document dicts doc) :
    parseHdiutilPlist doc = .ok (dicts.findSome? mountPointOf) := by
  obtain @⟨prolog,lead,before,key,gap,array,after,trail,epilog,prologFlat,leadFlat,first,keyFlat,named,gapFlat,entities⟩ :=
    document
  rw [← entities_mountPoint entities]
  simp [parseHdiutilPlist,elements_append,elements_flat prologFlat,elements_flat leadFlat,first,
    Nodes.getElementsByTagName,elements_flat keyFlat,elements_flat gapFlat]

/-! ## A document -/

/-- A key and a string value. -/
def entry (key value : String) (rest : Nodes) : Nodes :=
  .element "key" (.text key .nil) (.text "\n" (.element "string" (.text value .nil) rest))

theorem entry_entity {pairs : List (String × String)} {rest : Nodes} (key value : String) (later : Entity pairs rest) :
    Entity ((key,value) :: pairs) (entry key value rest) := by
  have named : "string" ≠ "key" := by decide
  have pair := Entity.pair (show Flat (.text key .nil) from trivial) (show Flat (.text "\n" .nil) from trivial) named
    (show Flat (.text value .nil) from trivial) later
  simp only [Nodes.getTextContent,String.append_empty] at pair
  exact pair

/-- The first entity has no mount point, but a hint that reads like the key of one. -/
def sampleEntities : Nodes :=
  .element "dict" (entry "content-hint" "mount-point" (entry "dev-entry" "/dev/disk4" .nil)) (.text "\n"
    (.element "dict" (entry "dev-entry" "/dev/disk4s1" (entry "mount-point" "/Volumes/RuneLite" .nil)) .nil))

def sampleDicts : List (List (String × String)) :=
  [[("content-hint","mount-point"),("dev-entry","/dev/disk4")],[("dev-entry","/dev/disk4s1"),("mount-point","/Volumes/RuneLite")]]

theorem sampleEntities_entities : Entities sampleDicts sampleEntities :=
  .dict (entry_entity _ _ (entry_entity _ _ .nil)) (.text (.dict (entry_entity _ _ (entry_entity _ _ .nil)) .nil))

/-- As `hdiutil` prints it, on one line. -/
def sampleDocument : Nodes :=
  .element "plist" (.element "dict" (.element "key" (.text "system-entities" .nil) (.element "array" sampleEntities .nil)) .nil) .nil

theorem sampleDocument_document : Document sampleDicts sampleDocument := by
  have flat : Flat .nil := trivial
  exact .plist flat flat (show Nodes.getElementsByTagName "array" .nil = [] from rfl)
    (show Flat (.text "system-entities" .nil) from trivial) (by decide) flat sampleEntities_entities

theorem mount_point_found_sample : parseHdiutilPlist sampleDocument = .ok (some "/Volumes/RuneLite") :=
  mount_point_found sampleDocument_document

end OpenRune.MountPoints
