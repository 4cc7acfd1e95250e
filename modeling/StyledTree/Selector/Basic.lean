import StyledTree.Element
import StyledTree.Text.Lowercase

/-!
# Selectors

A selector picks elements by type, id and one class. A part that is not given
picks every element.
-/

namespace StyledTree

/-- A selector. Parts that are absent do not restrict it. -/
structure Selector where
  typeName : Option String := none
  id : Option String := none
  className : Option String := none
deriving Repr, DecidableEq

namespace Selector

def any : Selector := {}

/-- The part as given, or nothing if it is blank. -/
def givenPart (part : Option String) : Option String :=
  part.filter fun text => !Text.allBlank text.toList

def ofParts (typeName id className : Option String) : Selector where
  typeName := givenPart typeName
  id := givenPart id
  className := givenPart className

/-- The weight of a selector against others: an id counts 100, a class 10 and a
type 1. -/
def specificity (selector : Selector) : Nat :=
  (if selector.id.isSome then 100 else 0) +
    (if selector.className.isSome then 10 else 0) +
    (if selector.typeName.isSome then 1 else 0)

/-- Whether a selector picks an element. The case of letters counts for ids and
classes but not for types. -/
def picks (selector : Selector) (element : Element) : Bool :=
  selector.typeName.all (Text.sameIgnoringCase · element.typeName) &&
    selector.id.all (fun id => element.id == some id) &&
    selector.className.all element.hasClass

/-- A selector in writing: the type, `#` with the id, a dot with the class; or
`*` if it has none of them. -/
def text (selector : Selector) : String :=
  if selector = any then "*"
  else
    selector.typeName.getD "" ++
      ((selector.id.map fun id => "#" ++ id).getD "") ++
      ((selector.className.map fun name => "." ++ name).getD "")

theorem any_picks (element : Element) : any.picks element = true := rfl

end Selector

end StyledTree
