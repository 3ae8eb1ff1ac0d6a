import MatrixOdbc.Util.KvProgress
import MatrixOdbc.Util.KvRoundTrip
import MatrixOdbc.Util.UtfRoundTrip
import MatrixOdbc.Driver.WideChunks
import MatrixOdbc.Driver.ByteChunks
import MatrixOdbc.Driver.Escape
import MatrixOdbc.Driver.Batch
import MatrixOdbc.Driver.ForwardFetch
import MatrixOdbc.Driver.UniqueKey
import MatrixOdbc.Driver.DaeAssembly
import MatrixOdbc.Driver.PositionedText
import MatrixOdbc.Driver.RowDelivery
import MatrixOdbc.Driver.WhereFaithful
import MatrixOdbc.Driver.QueryTimeout
import MatrixOdbc.Driver.DescriptorAtomic
import MatrixOdbc.Driver.DescriptorReadBack
import MatrixOdbc.Driver.ParseAccess
import MatrixOdbc.Driver.OutParamsDelivered
import MatrixOdbc.Driver.BraceTransparency
import MatrixOdbc.Driver.Transact
import MatrixOdbc.Driver.ScrollerText
import MatrixOdbc.Driver.ArrayExecution
import MatrixOdbc.Driver.CursorPosition
import MatrixOdbc.Driver.ColumnNumber
import MatrixOdbc.Driver.SqlNumeric
import MatrixOdbc.Driver.BitConversion
import MatrixOdbc.Driver.IntegerPaths
import MatrixOdbc.Driver.QueryAttributes
import MatrixOdbc.Driver.BoundParam
import MatrixOdbc.Driver.ParamArray
import MatrixOdbc.Driver.ParamPaths
import MatrixOdbc.Driver.RowsetCode
import MatrixOdbc.Driver.IntegerRange
import MatrixOdbc.Driver.FieldFrame
import MatrixOdbc.Driver.GetDataPosition
import MatrixOdbc.Driver.HexChunks
import MatrixOdbc.Driver.CatalogCondition
import MatrixOdbc.Driver.NumberBuffer
import MatrixOdbc.Driver.NumericReading
import MatrixOdbc.Driver.NumericText
import MatrixOdbc.Driver.NumericDigits
import MatrixOdbc.Driver.NumericSpelling
import MatrixOdbc.Driver.NumericLayout
import MatrixOdbc.Driver.NumericSent
import MatrixOdbc.Driver.RowIndependence
import MatrixOdbc.Driver.RowDependence
import MatrixOdbc.Util.WellFormed
import MatrixOdbc.Driver.HostList
import MatrixOdbc.Driver.QueryCopy
import MatrixOdbc.Driver.SetPos
import MatrixOdbc.Driver.BatchInsert
import MatrixOdbc.Driver.Bookmark
import MatrixOdbc.Driver.CatalogRows
import MatrixOdbc.Driver.DateAgreement
import MatrixOdbc.Driver.FetchByBookmark
import MatrixOdbc.Driver.BookmarkRoundTrip
import MatrixOdbc.Driver.LegacyTimestamp
import MatrixOdbc.Driver.PrimaryKeys
import MatrixOdbc.Driver.Statistics
import MatrixOdbc.Driver.TimeAgreement
import MatrixOdbc.Util.KvBounds
import MatrixOdbc.Driver.BitNumber
import MatrixOdbc.Driver.EnumSize
import MatrixOdbc.Driver.OutputContract
import MatrixOdbc.Driver.PrefetchNumber
import MatrixOdbc.Driver.ProcCopies
import MatrixOdbc.Driver.QuotedNames
import MatrixOdbc.Driver.StorageTable
import MatrixOdbc.Driver.TempBuffers
import MatrixOdbc.Driver.TypeSize
import MatrixOdbc.Driver.WideParam
import MatrixOdbc.Foundations.BoundedText
import MatrixOdbc.Util.BoundedCopies
import MatrixOdbc.Driver.CursorName
import MatrixOdbc.Foundations.Registry
import MatrixOdbc.Driver.ErrorTable
import MatrixOdbc.Driver.Handles
import MatrixOdbc.Driver.HandleView
import MatrixOdbc.Driver.HandleLists
import MatrixOdbc.Driver.HandleDescs
import MatrixOdbc.Driver.HandleRuns
import MatrixOdbc.Driver.LimitPosition
import MatrixOdbc.Driver.DummyParams
import MatrixOdbc.Driver.CursorRuns
import MatrixOdbc.Foundations.SharedQueue
import MatrixOdbc.Driver.BatchRuns
