import GeoTag.Main
import GeoTag.Proofs.Snapshot
import GeoTag.Proofs.StrictEnrichment
import GeoTag.Proofs.Append
import GeoTag.Proofs.Idempotence
import GeoTag.Proofs.RangeRows
import GeoTag.Proofs.RangeText
import GeoTag.Proofs.RangeScan
import GeoTag.Proofs.Overwriting
import GeoTag.Proofs.FieldOrder
import GeoTag.Proofs.LookupCount
import GeoTag.Proofs.CanonicalText
import GeoTag.Proofs.FieldText
import GeoTag.Proofs.Growth
import GeoTag.Proofs.FieldJson
import GeoTag.Proofs.Likeness
import GeoTag.Proofs.WrittenValues
import GeoTag.Proofs.NumberText
import GeoTag.Proofs.CompactText
import GeoTag.Proofs.JsonShape
import GeoTag.Proofs.ReadBack
import GeoTag.Proofs.Utf8
import GeoTag.Proofs.Framing
import GeoTag.Proofs.Visits
import GeoTag.Proofs.Transcript
import GeoTag.Proofs.Rerun
import GeoTag.Proofs.InternalFields
import GeoTag.Proofs.Unseen
import GeoTag.Proofs.Failures
import GeoTag.Proofs.Opening
import GeoTag.Proofs.BlockIntervals
import GeoTag.Proofs.DottedQuad
import GeoTag.Proofs.LiteralGrammar
import GeoTag.Proofs.AddressText
import GeoTag.Proofs.RangeVerdict
import GeoTag.Proofs.MostSpecificBlock
import GeoTag.Proofs.StackedTables
import GeoTag.Proofs.LocalizedNames
import GeoTag.Proofs.ShownNames
import GeoTag.Proofs.FilledNames
import GeoTag.Proofs.RoundTrip
import GeoTag.Proofs.SourcesInTurn
import GeoTag.Proofs.JsonGrammar
import GeoTag.Proofs.FloatText
import GeoTag.Proofs.RereadIntegers
import GeoTag.Proofs.PassThrough
import GeoTag.Proofs.SettingValues
import GeoTag.Proofs.SkippedText
import GeoTag.Proofs.SystemNumbers
import GeoTag.Proofs.Percentiles
import GeoTag.Proofs.SettingsText
import GeoTag.Proofs.Precedence
import GeoTag.Proofs.ContentEquality
import GeoTag.Proofs.StoredRows
import GeoTag.Proofs.LeadingBits
import GeoTag.Proofs.WriteHistory
import GeoTag.Proofs.FloatEquality
import GeoTag.Proofs.WordCounters
