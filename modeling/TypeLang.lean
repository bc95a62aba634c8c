import TypeLang.Codec.Reading
import TypeLang.Codec.Size
import TypeLang.Codec.Writing
import TypeLang.Main
import TypeLang.Report.Schema
import TypeLang.Wire.WireType
import TypeLang.Proofs.Association
import TypeLang.Proofs.Wire.JsonRoundTrip
import TypeLang.Proofs.Wire.Spanning
import TypeLang.Proofs.Wire.Yielding
import TypeLang.Proofs.Plan.Compiled
import TypeLang.Proofs.Plan.Dispatch
import TypeLang.Proofs.Plan.Presence
import TypeLang.Proofs.Plan.Types
import TypeLang.Proofs.Schema.Parsed
import TypeLang.Proofs.Token.Delivery
import TypeLang.Proofs.Codec.Canonical
import TypeLang.Proofs.Codec.Decoded
import TypeLang.Proofs.Codec.Depth
import TypeLang.Proofs.Codec.Fields
import TypeLang.Proofs.Codec.PresenceLaw
import TypeLang.Proofs.Codec.RoundTrip
import TypeLang.Proofs.Codec.Size
import TypeLang.Proofs.Codec.Locality
import TypeLang.Proofs.Codec.TypeSafety
import TypeLang.Proofs.Token.Grouping
import TypeLang.Proofs.Declaration.Assembly
import TypeLang.Proofs.Text.Visible
import TypeLang.Proofs.Token.Spelling
import TypeLang.Proofs.Declaration.Lines
import TypeLang.Proofs.Text.Cut
import TypeLang.Proofs.Text.Digits
import TypeLang.Proofs.TypeExpr.Printed
import TypeLang.Proofs.Declaration.Printed
import TypeLang.Proofs.Schema.FrontEnds
import TypeLang.Proofs.Wire.WireTypes
import TypeLang.Proofs.Plan.Recursion
import TypeLang.Proofs.Plan.Groups
import TypeLang.Proofs.Plan.Modular
import TypeLang.Proofs.Codec.Extension.References
import TypeLang.Proofs.Codec.Extension
import TypeLang.Proofs.Token.Location
import TypeLang.Proofs.Token.Pointing
import TypeLang.Proofs.Codec.LeadingIds
import TypeLang.Proofs.Codec.Settling
import TypeLang.Proofs.Codec.Termination
import TypeLang.Proofs.Codec.Weight
import TypeLang.Proofs.Codec.CommonFields
import TypeLang.Proofs.Plan.Reordering
import TypeLang.Proofs.Plan.Ownership
import TypeLang.Proofs.Plan.Layout
import TypeLang.Proofs.Codec.GenericVectors
import TypeLang.Proofs.Token.Kinds
import TypeLang.Proofs.Token.Spacing
import TypeLang.Proofs.Plan.Chains
import TypeLang.Proofs.Plan.Interfaces
import TypeLang.Proofs.Name.Words
import TypeLang.Proofs.Plan.Enums
import TypeLang.Proofs.TypeExpr.Reprinted
import TypeLang.Proofs.Codec.Alignment
import TypeLang.Proofs.Codec.Indifference
import TypeLang.Proofs.Text.Spelled
import TypeLang.Proofs.Schema.IdTexts
import TypeLang.Proofs.Wire.Requests
import TypeLang.Proofs.Token.IdLiterals
