import Endpoints.Text
import Endpoints.SortedMap
import Endpoints.Text.Quoted
import Endpoints.Mapping
import Endpoints.Decimal
import Endpoints.Json
import Endpoints.Json.Reader
import Endpoints.Failure
import Endpoints.Declaration.Syntax
import Endpoints.Declaration.Compilation
import Endpoints.Request
import Endpoints.Files
import Endpoints.Source
import Endpoints.Cache
import Endpoints.Engine
import Endpoints.Command.Options
import Endpoints.Command.Run
import Endpoints.Main
import Endpoints.Proofs.Tokens
import Endpoints.Proofs.Replacement
import Endpoints.Proofs.Filling
import Endpoints.Proofs.SimultaneousFilling
import Endpoints.Proofs.Acceptance
import Endpoints.Proofs.EngineRuns
import Endpoints.Proofs.PayloadExposure
import Endpoints.Proofs.Reading
import Endpoints.Proofs.Search
import Endpoints.Proofs.RequestFields
import Endpoints.Proofs.Extraction
import Endpoints.Proofs.BinaryCache
import Endpoints.Proofs.JsonCache
import Endpoints.Proofs.BulkLoad
import Endpoints.Proofs.Truncation
import Endpoints.Proofs.QuerySegments
import Endpoints.Proofs.TokenOrder
import Endpoints.Proofs.CompleteFilling
import Endpoints.Proofs.DryRun
import Endpoints.Proofs.CacheGrowth
import Endpoints.Proofs.LocalStorage
import Endpoints.Proofs.CheckPrediction
import Endpoints.Proofs.LoaderAgreement
import Endpoints.Proofs.StaleFacts
import Endpoints.Proofs.FieldSets
import Endpoints.Proofs.TrailingText
import Endpoints.Proofs.WrittenFiles
import Endpoints.Proofs.FolderListings
import Endpoints.Proofs.CommandLines
import Endpoints.Proofs.SavedCache
import Endpoints.Proofs.Splitting
import Endpoints.Proofs.MapLiterals
import Endpoints.Proofs.RequestBodies
import Endpoints.Proofs.DisplayedMappings
import Endpoints.Proofs.Choices
import Endpoints.Proofs.CanonicalCache
import Endpoints.Proofs.HelpFlag
import Endpoints.Proofs.SourceOrder
import Endpoints.Proofs.Placeholders
import Endpoints.Proofs.ArgumentOrder
