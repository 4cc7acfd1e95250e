import StyledTree.ClassSet
import StyledTree.Fault
import StyledTree.Text.Blank

/-!
# Elements

What a node holds that is not plain text: a type, perhaps an id, classes, and
the handles of the nodes below it.
-/

namespace StyledTree

/-- An element. Its type is kept as it was given. -/
structure Element where
  typeName : String
  id : Option String := none
  classes : ClassSet := .empty
  /-- The nodes below the element, first to last. -/
  children : List NodeId := []
deriving Repr, DecidableEq

namespace Element

/-- An element of the given type, with nothing else set. A type must have
something to see in it. -/
def create (typeName : String) : Except Fault Element :=
  if Text.allBlank typeName.toList then .error .blankType else .ok { typeName }

def setId (element : Element) (id : String) : Element := { element with id := some id }

def clearId (element : Element) : Element := { element with id := none }

def hasClass (element : Element) (name : String) : Bool := element.classes.contains name

def sortedClasses (element : Element) : List String := element.classes.listed

def addClass (element : Element) (name : String) : Bool × Element :=
  (!element.hasClass name, { element with classes := element.classes.insert name })

/-- Gives the element the id and all classes of the attribute, where given. -/
def withAttributes (element : Element) (id : Option String) (classAttribute : Option String) :
    Element :=
  { element with
    id := id.or element.id
    classes := element.classes.insertAll ((classAttribute.map ClassSet.namesIn).getD []) }

theorem hasClass_addClass (element : Element) (name other : String) :
    (element.addClass name).2.hasClass other =
      (other == name || element.hasClass other) :=
  ClassSet.contains_insert element.classes name other

end Element

end StyledTree
