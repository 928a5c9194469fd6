import Phrasebook.Main
import Phrasebook.Proofs.Alike
import Phrasebook.Proofs.Arguments
import Phrasebook.Proofs.BlockNodes
import Phrasebook.Proofs.BlockTokens
import Phrasebook.Proofs.Catalog
import Phrasebook.Proofs.Cut
import Phrasebook.Proofs.Discovery
import Phrasebook.Proofs.Except
import Phrasebook.Proofs.Failure
import Phrasebook.Proofs.Fallback
import Phrasebook.Proofs.Filing
import Phrasebook.Proofs.FirstEntry
import Phrasebook.Proofs.Gaps
import Phrasebook.Proofs.Grouping
import Phrasebook.Proofs.Identifier
import Phrasebook.Proofs.Insertion
import Phrasebook.Proofs.Isolation
import Phrasebook.Proofs.Items
import Phrasebook.Proofs.JsonText
import Phrasebook.Proofs.Keys
import Phrasebook.Proofs.LanguageHeader
import Phrasebook.Proofs.Lawful
import Phrasebook.Proofs.Layering
import Phrasebook.Proofs.Layout
import Phrasebook.Proofs.Likeness
import Phrasebook.Proofs.LineScalars
import Phrasebook.Proofs.Lines
import Phrasebook.Proofs.Loading
import Phrasebook.Proofs.LocalizeLine
import Phrasebook.Proofs.LogFile
import Phrasebook.Proofs.LogFilter
import Phrasebook.Proofs.Marks
import Phrasebook.Proofs.MessageArguments
import Phrasebook.Proofs.Negotiation
import Phrasebook.Proofs.Opening
import Phrasebook.Proofs.Output
import Phrasebook.Proofs.Override
import Phrasebook.Proofs.Parts
import Phrasebook.Proofs.Path
import Phrasebook.Proofs.Preferences
import Phrasebook.Proofs.PublicTokens
import Phrasebook.Proofs.Rearrangement
import Phrasebook.Proofs.Record
import Phrasebook.Proofs.RecordReading
import Phrasebook.Proofs.RecordShapes
import Phrasebook.Proofs.Sameness
import Phrasebook.Proofs.Settings
import Phrasebook.Proofs.SettingsFile
import Phrasebook.Proofs.SettingsText
import Phrasebook.Proofs.SkippedLength
import Phrasebook.Proofs.SkippedScalar
import Phrasebook.Proofs.SkippedValue
import Phrasebook.Proofs.Spelling
import Phrasebook.Proofs.StandIn
import Phrasebook.Proofs.TagOrder
import Phrasebook.Proofs.TagSelection
import Phrasebook.Proofs.Token
import Phrasebook.Proofs.TokenGrammar
import Phrasebook.Proofs.Trail
import Phrasebook.Proofs.Unmentioned
import Phrasebook.Proofs.UserTags
import Phrasebook.Proofs.Walk
import Phrasebook.Proofs.WalkOrder
import Phrasebook.Proofs.Written
