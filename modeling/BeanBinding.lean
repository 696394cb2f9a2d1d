import BeanBinding.Decimal.Layout
import BeanBinding.Decimal.Reading
import BeanBinding.Json.Parser
import BeanBinding.Json.Printer
import BeanBinding.Text.Quoted
import BeanBinding.Tree.Writing
import BeanBinding.Schema.Decoding
import BeanBinding.Schema.Display
import BeanBinding.Schema.Literal
import BeanBinding.Annotation
import BeanBinding.Config
import BeanBinding.Metadata
import BeanBinding.Value
import BeanBinding.Error
import BeanBinding.Introspection
import BeanBinding.Record
import BeanBinding.Serializer.Draft
import BeanBinding.Deserializer.Draft
import BeanBinding.Binding.Module
import BeanBinding.Codec
import BeanBinding.Display.Codec
import BeanBinding.Proofs.InPlace
import BeanBinding.Proofs.NameTable
import BeanBinding.Proofs.Declared
import BeanBinding.Proofs.Accessors
import BeanBinding.Proofs.Matching
import BeanBinding.Proofs.Writing
import BeanBinding.Proofs.Elements
import BeanBinding.Proofs.Alignment
import BeanBinding.Proofs.Synthesis
import BeanBinding.Proofs.Updating
import BeanBinding.Proofs.Restoring
import BeanBinding.Proofs.RoundTrip
import BeanBinding.Proofs.Describing
import BeanBinding.Proofs.Rebinding
import BeanBinding.Proofs.KnownNames
import BeanBinding.Proofs.Placeholders
import BeanBinding.Proofs.Creating
import BeanBinding.Proofs.ListRoundTrip
import BeanBinding.Proofs.Collecting
import BeanBinding.Proofs.Delivering
import BeanBinding.Proofs.Omitting
import BeanBinding.Proofs.Defaults
import BeanBinding.Proofs.Keeping
import BeanBinding.Proofs.Filling
import BeanBinding.Proofs.Installing
import BeanBinding.Proofs.Setting
import BeanBinding.Proofs.TypeSafety
import BeanBinding.Proofs.Forms
import BeanBinding.Proofs.Tables
import BeanBinding.Proofs.Stopping
import BeanBinding.Proofs.BoundDefaults
import BeanBinding.Proofs.Making
import BeanBinding.Proofs.Ignoring
import BeanBinding.Proofs.Storing
import BeanBinding.Proofs.Repeating
import BeanBinding.Proofs.Reordering
import BeanBinding.Proofs.Nesting
import BeanBinding.Proofs.Validation
import BeanBinding.Proofs.SelfReferences
import BeanBinding.Proofs.ArgumentSlots
import BeanBinding.Proofs.Adjusting
import BeanBinding.Proofs.Admitting
import BeanBinding.Proofs.Accepting
import BeanBinding.Proofs.Nullability
import BeanBinding.Proofs.ExplicitNulls
import BeanBinding.Proofs.Ranking
import BeanBinding.Proofs.Literals
import BeanBinding.Proofs.Emptiness
import BeanBinding.Proofs.Taking
import BeanBinding.Proofs.Redeclaring
import BeanBinding.Proofs.Annotating
