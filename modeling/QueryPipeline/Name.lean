import QueryPipeline.Text.Quoted

/-!
# Qualified names and member paths

A function or member is named by its own name and the names of what owns it, outermost first. A place
in a result shape is named by the path of members that leads to it from the root of the shape.
-/

set_option autoImplicit false

namespace QueryPipeline

/-- Two texts in the order of their characters' code points. -/
def compareText (a b : String) : Ordering := compareOfLessAndEq a b

/-- Two lists of texts in dictionary order. -/
def compareTexts : List String → List String → Ordering
  | [], [] => .eq
  | [], _ :: _ => .lt
  | _ :: _, [] => .gt
  | a :: as, b :: bs => (compareText a b).then (compareTexts as bs)

/-- The name of a function or member. -/
structure QualifiedName where
  /-- The names of the owners, outermost first. -/
  path : List String
  name : String
deriving DecidableEq, Repr, Inhabited

namespace QualifiedName

/-- A name without an owner. -/
def plain (name : String) : QualifiedName := ⟨[], name⟩

/-- A name with one owner. -/
def owned (owner name : String) : QualifiedName := ⟨[owner], name⟩

/-- All parts of the name, its own name last. -/
def parts (n : QualifiedName) : List String := n.path ++ [n.name]

/-- The innermost owner, if there is one. -/
def owner? (n : QualifiedName) : Option String := n.path.getLast?

/-- The name is that of `owner.name`, whatever owns the owner. -/
def is (n : QualifiedName) (owner name : String) : Bool :=
  n.owner? == some owner && n.name == name

/-- The first part of the name is the given one. -/
def startsWith (n : QualifiedName) (part : String) : Bool := n.parts.head? == some part

/-- The parts with points between them. -/
def display (n : QualifiedName) : String :=
  String.join (n.path.map (· ++ ".")) ++ n.name

/-- The parts as a list of quoted texts. -/
def quotedParts (n : QualifiedName) : String :=
  "[" ++ String.intercalate ", " (n.parts.map Text.quoted) ++ "]"

/-- Owners decide first, then the names themselves. -/
def compare (a b : QualifiedName) : Ordering :=
  (compareTexts a.path b.path).then (compareText a.name b.name)

end QualifiedName

/-- A place in a result shape: the members that lead to it from the root. -/
structure MemberPath where
  members : List String
deriving DecidableEq, Repr, Inhabited

namespace MemberPath

/-- The whole shape. -/
def root : MemberPath := ⟨[]⟩

/-- The place of a member of the value at a place. -/
def append (p : MemberPath) (member : String) : MemberPath := ⟨p.members ++ [member]⟩

/-- The place that a path leads to when it starts at another place. -/
def prepend (p start : MemberPath) : MemberPath := ⟨start.members ++ p.members⟩

/-- The path leads nowhere else. -/
def isRoot (p : MemberPath) : Bool := p.members.isEmpty

/-- The member at the end of the path. -/
def last? (p : MemberPath) : Option String := p.members.getLast?

/-- The members between brackets, with points between them. -/
def display (p : MemberPath) : String := "[" ++ String.intercalate "." p.members ++ "]"

/-- Two paths in dictionary order. -/
def compare (a b : MemberPath) : Ordering := compareTexts a.members b.members

end MemberPath

end QueryPipeline
