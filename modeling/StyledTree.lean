import StyledTree.Renderer
import StyledTree.Document.Build
import StyledTree.Proofs.Cascade.LastWord
import StyledTree.Proofs.Cascade.IndexedStyles
import StyledTree.Proofs.Cascade.Coverage
import StyledTree.Proofs.Cascade.Splicing
import StyledTree.Proofs.Cascade.Slicing
import StyledTree.Proofs.Cascade.Visibility
import StyledTree.Proofs.Selector.Reading
import StyledTree.Proofs.Selector.RoundTrip
import StyledTree.Proofs.Selector.Meaning
import StyledTree.Proofs.Selector.Image
import StyledTree.Proofs.Document.Growth
import StyledTree.Proofs.Document.Forest
import StyledTree.Proofs.Document.Updates
import StyledTree.Proofs.Document.Descent
import StyledTree.Proofs.Document.Attachment
import StyledTree.Proofs.Document.Batches
import StyledTree.Proofs.Document.Partition
import StyledTree.Proofs.Document.Permanence
import StyledTree.Proofs.Document.Traversal
import StyledTree.Proofs.Document.Splicing
import StyledTree.Proofs.Document.Isolation
import StyledTree.Proofs.Document.ClassNames
import StyledTree.Proofs.Text.ColorNames
import StyledTree.Proofs.Rendering.Placement
import StyledTree.Proofs.Rendering.Outcome
import StyledTree.Proofs.Rendering.Ground
import StyledTree.Proofs.Rendering.Measure
import StyledTree.Proofs.Canvas.Glyphs
import StyledTree.Proofs.Canvas.Edits
import StyledTree.Proofs.Canvas.Writing
import StyledTree.Proofs.Canvas.Replay
import StyledTree.Proofs.Canvas.Plain
import StyledTree.Proofs.Canvas.Harmless
import StyledTree.Proofs.Rendering.Strokes
import StyledTree.Proofs.Rendering.Lines
import StyledTree.Proofs.Rendering.Layers
import StyledTree.Proofs.Rendering.Rows
import StyledTree.Proofs.Rendering.Texts
import StyledTree.Proofs.Rendering.Display
import StyledTree.Proofs.Rendering.Shift
import StyledTree.Proofs.Rendering.Parts
import StyledTree.Proofs.Rendering.Clipping
import StyledTree.Proofs.Rendering.Locality
import StyledTree.Proofs.Rendering.Sketch
import StyledTree.Proofs.Rendering.Marks
import StyledTree.Proofs.Canvas.Colorless
import StyledTree.Proofs.Rendering.Recoloring
import StyledTree.Proofs.Rendering.Readback
import StyledTree.Proofs.Rendering.Boxes
import StyledTree.Proofs.Canvas.Regions
