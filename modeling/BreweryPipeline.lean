import BreweryPipeline.Support.JsonFrame
import BreweryPipeline.Support.Grouping
import BreweryPipeline.Support.FileStore
import BreweryPipeline.Support.Replay
import BreweryPipeline.Support.Paging
import BreweryPipeline.Support.Calendar
import BreweryPipeline.Support.FormatPieces
import BreweryPipeline.Support.PosixPath
import BreweryPipeline.Support.TemplateText
import BreweryPipeline.Lake
import BreweryPipeline.BreweryHook
import BreweryPipeline.PageCount
import BreweryPipeline.ApiExtraction
import BreweryPipeline.Pagination
import BreweryPipeline.ConcurrentEdits
import BreweryPipeline.BreweryOperator
import BreweryPipeline.BronzeFormat
import BreweryPipeline.ExtractionFailure
import BreweryPipeline.Transformation
import BreweryPipeline.Aggregation
import BreweryPipeline.AggregationFailure
import BreweryPipeline.GoldTable
import BreweryPipeline.LayerPaths
import BreweryPipeline.SilverTable
import BreweryPipeline.BreweryDag
import BreweryPipeline.DailySchedule
import BreweryPipeline.SchemaGate
import BreweryPipeline.SilverRows
import BreweryPipeline.RunIsolation
import BreweryPipeline.LatestSnapshot
import BreweryPipeline.RetryTransparency
import BreweryPipeline.SilverView
import BreweryPipeline.PublishedRun
import BreweryPipeline.Conservation
import BreweryPipeline.PagesToGold
import BreweryPipeline.GoldHistory
import BreweryPipeline.ScheduledRuns
import BreweryPipeline.LakeLayout
import BreweryPipeline.NbExplorer
