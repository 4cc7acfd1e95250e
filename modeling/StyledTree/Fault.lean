/-!
# Handles, and what can go wrong

A node is named by the document that made it and its place in the order of
creation there. Every fault is a mistake of the caller, and the operation that
reports it has changed nothing. A renderer passes on the faults of the tree and
refuses a theme that it does not know; a log cannot be set up a second time.
-/

namespace StyledTree

/-- The handle of a node: the number of its document and its place in it. -/
structure NodeId where
  document : Nat
  index : Nat
deriving Repr, DecidableEq, Inhabited

/-- The handle as it stands in messages, such as `#0:3`. -/
def NodeId.label (id : NodeId) : String :=
  "#" ++ toString id.document ++ ":" ++ toString id.index

/-- The causes for which an operation on a tree, a selector or a color is
refused. -/
inductive Fault where
  | blankType
  | blankSelector
  | unknownColor (text : String)
  | foreignNode (id : NodeId)
  | notAnElement (id : NodeId)
  | notAText (id : NodeId)
  | alreadyAttached (id : NodeId)
  | listedTwice (id : NodeId)
  | wouldCycle (child parent : NodeId)
deriving Repr, DecidableEq

namespace Fault

/-- The two kinds of fault: an argument that is no good in any state, and one
that the present shape of the tree rules out. -/
inductive Kind where
  | invalidArgument
  | invalidState
deriving Repr, DecidableEq

/-- Only the shape of the tree makes a fault one of state. -/
def kind : Fault → Kind
  | alreadyAttached _ => .invalidState
  | listedTwice _ => .invalidState
  | wouldCycle _ _ => .invalidState
  | _ => .invalidArgument

def Kind.heading : Kind → String
  | invalidArgument => "Invalid argument: "
  | invalidState => "Invalid state: "

def detail : Fault → String
  | blankType => "element type must be a non-empty string"
  | blankSelector => "selector text must be a non-empty string"
  | unknownColor text => "unknown color: " ++ text
  | foreignNode id => "node " ++ id.label ++ " does not belong to this document"
  | notAnElement id => "node " ++ id.label ++ " is not an element"
  | notAText id => "node " ++ id.label ++ " is not a text node"
  | alreadyAttached id => "node " ++ id.label ++ " already has a parent"
  | listedTwice id =>
      "node " ++ id.label ++ " appears more than once in the same add"
  | wouldCycle child parent =>
      "adding node " ++ child.label ++ " under " ++ parent.label ++
        " would create a cycle"

/-- The whole message: the kind, then the cause. -/
def message (fault : Fault) : String := fault.kind.heading ++ fault.detail

end Fault

/-- The causes for which rendering is refused, or a log is. -/
inductive RenderError where
  | style (fault : Fault)
  | unknownTheme (name : String)
  | logInstalled
deriving Repr, DecidableEq

def RenderError.message : RenderError → String
  | style fault => "Style error: " ++ fault.message
  | unknownTheme name => "Unknown theme: " ++ name
  | logInstalled =>
      "Logger error: attempted to set a logger after the logging system was already initialized"

end StyledTree
