import ComponentTree.Files.Tree
import ComponentTree.Main
import ComponentTree.Proofs.Conversion.Simulation
import ComponentTree.Proofs.Conversion.Slots
import ComponentTree.Proofs.Source.Graph
import ComponentTree.Proofs.Source.Sketch
import ComponentTree.Proofs.Source.Interchange
import ComponentTree.Proofs.Descriptor.Expressible
import ComponentTree.Proofs.Descriptor.RoundTrip
import ComponentTree.Proofs.Decimal.Literal
import ComponentTree.Proofs.Json.Tokens
import ComponentTree.Proofs.Data
import ComponentTree.Proofs.Json.RoundTrip
import ComponentTree.Proofs.Path
import ComponentTree.Proofs.Json.Reader
import ComponentTree.Proofs.Value.Nest
import ComponentTree.Proofs.Props.Standard
import ComponentTree.Proofs.Conversion.Plain
import ComponentTree.Proofs.Conversion.Kept
import ComponentTree.Proofs.Props.Opaque
import ComponentTree.Proofs.Conversion.Rearranged
import ComponentTree.Proofs.Conversion.Schedule
import ComponentTree.Proofs.Conversion.Calls
import ComponentTree.Proofs.Conversion.Translated
import ComponentTree.Proofs.Conversion.Correspondence
import ComponentTree.Proofs.Source.Adoption
import ComponentTree.Proofs.Text.Lowercase
import ComponentTree.Proofs.Source.Alike
import ComponentTree.Proofs.Conversion.Respelled
import ComponentTree.Proofs.Conversion.Parts
import ComponentTree.Proofs.Markup.Parsed
import ComponentTree.Proofs.Markup.Template
import ComponentTree.Proofs.Conversion.Templates
import ComponentTree.Proofs.Path.Update
import ComponentTree.Proofs.Path.Segments
import ComponentTree.Proofs.Props.Origin
import ComponentTree.Proofs.Json.Denoted
import ComponentTree.Proofs.Json.Accepted
import ComponentTree.Proofs.Files.Text
import ComponentTree.Proofs.Conversion.Numbers
import ComponentTree.Proofs.Command
import ComponentTree.Proofs.Command.Components
import ComponentTree.Proofs.Descriptor.Equality
import ComponentTree.Proofs.Data.NormalForm
import ComponentTree.Proofs.Text.Titlecase
import ComponentTree.Proofs.Props.CamelCase
import ComponentTree.Proofs.Text.WordByWord
import ComponentTree.Proofs.Text.Ascii
import ComponentTree.Proofs.Source.Attributes
import ComponentTree.Proofs.Source.Spelling
import ComponentTree.Proofs.Files.Room
import ComponentTree.Proofs.Files.ReadBack
import ComponentTree.Proofs.Command.Components
