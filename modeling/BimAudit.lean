import BimAudit.Audit.Batch
import BimAudit.Audit.Check
import BimAudit.Audit.Json
import BimAudit.Audit.Lookup
import BimAudit.Audit.Report
import BimAudit.Browser.Key
import BimAudit.Browser.Picture
import BimAudit.Browser.State
import BimAudit.Browser.Theme
import BimAudit.Browser.Window
import BimAudit.CommandLine.Arguments
import BimAudit.CommandLine.Help
import BimAudit.CommandLine.Run
import BimAudit.Csv.Reader
import BimAudit.Csv.Writer
import BimAudit.Decimal.Literal
import BimAudit.Decimal.Notation
import BimAudit.Decimal.Shortest
import BimAudit.Dictionary
import BimAudit.Export.Save
import BimAudit.Export.SheetName
import BimAudit.Export.Table
import BimAudit.Files.Access
import BimAudit.Files.Folder
import BimAudit.Files.Path
import BimAudit.Ids.Document
import BimAudit.Ids.Facet
import BimAudit.Ids.Json
import BimAudit.Ids.Reader
import BimAudit.Ids.Value
import BimAudit.Ids.Writer
import BimAudit.Ifc.Assembly
import BimAudit.Ifc.Entity
import BimAudit.Ifc.Links
import BimAudit.Ifc.Reader
import BimAudit.Ifc.Scan
import BimAudit.Ifc.Store
import BimAudit.Json.Basic
import BimAudit.Json.Canonical
import BimAudit.Json.Printer
import BimAudit.Json.Reader
import BimAudit.Main
import BimAudit.Proofs.AuditResults
import BimAudit.Proofs.AuditSteps
import BimAudit.Proofs.BrokenOffReport
import BimAudit.Proofs.Cardinalities
import BimAudit.Proofs.ChunkedReading
import BimAudit.Proofs.ClassificationSystems
import BimAudit.Proofs.ColumnOrder
import BimAudit.Proofs.Correspondences
import BimAudit.Proofs.Courses
import BimAudit.Proofs.DecodingByPlace
import BimAudit.Proofs.Dictionaries
import BimAudit.Proofs.DigitGroups
import BimAudit.Proofs.DirectReport
import BimAudit.Proofs.DocumentRoundTrip
import BimAudit.Proofs.DroppedBlanks
import BimAudit.Proofs.EncodedStrings
import BimAudit.Proofs.EntityNames
import BimAudit.Proofs.EntryOrder
import BimAudit.Proofs.EventDocuments
import BimAudit.Proofs.FirstPlaces
import BimAudit.Proofs.LargeFiles
import BimAudit.Proofs.LateResults
import BimAudit.Proofs.Layouts
import BimAudit.Proofs.Lookups
import BimAudit.Proofs.MaterialNames
import BimAudit.Proofs.MixedContent
import BimAudit.Proofs.MixedDocuments
import BimAudit.Proofs.MixedEncodings
import BimAudit.Proofs.NumberLiterals
import BimAudit.Proofs.Numerals
import BimAudit.Proofs.ObjectLinks
import BimAudit.Proofs.OpenResults
import BimAudit.Proofs.ParameterLiterals
import BimAudit.Proofs.ParameterScans
import BimAudit.Proofs.ParameterTexts
import BimAudit.Proofs.ProgressEvents
import BimAudit.Proofs.PropertyValues
import BimAudit.Proofs.RangeCells
import BimAudit.Proofs.ReadDocuments
import BimAudit.Proofs.ReaderStates
import BimAudit.Proofs.ReadRecords
import BimAudit.Proofs.ReadingByPlace
import BimAudit.Proofs.ReadingCalls
import BimAudit.Proofs.ReadingSteps
import BimAudit.Proofs.RecordLines
import BimAudit.Proofs.RecordOrder
import BimAudit.Proofs.RecordStarts
import BimAudit.Proofs.RecordStore
import BimAudit.Proofs.RecordTexts
import BimAudit.Proofs.RelatedObjects
import BimAudit.Proofs.RestrictionRoundTrip
import BimAudit.Proofs.RowsAndTotals
import BimAudit.Proofs.RunEvents
import BimAudit.Proofs.ScansByPlace
import BimAudit.Proofs.Selections
import BimAudit.Proofs.SessionHistory
import BimAudit.Proofs.SheetNames
import BimAudit.Proofs.ShownSelections
import BimAudit.Proofs.SoleCourse
import BimAudit.Proofs.SpecificationResults
import BimAudit.Proofs.StatedConstraints
import BimAudit.Proofs.StepsInWords
import BimAudit.Proofs.TextPlaces
import BimAudit.Proofs.Totals
import BimAudit.Proofs.TrimmedText
import BimAudit.Proofs.UnfinishedRecords
import BimAudit.Proofs.UnitCounts
import BimAudit.Proofs.WellFormedEntities
import BimAudit.Proofs.WorkbookRoundTrip
import BimAudit.Proofs.WorkbookRows
import BimAudit.Proofs.WrittenRecords
import BimAudit.Proofs.WrittenValues
import BimAudit.Proofs.XmlRoundTrip
import BimAudit.Proofs.XmlTags
import BimAudit.Regex.Basic
import BimAudit.Regex.Class
import BimAudit.Regex.Escape
import BimAudit.Regex.Reader
import BimAudit.Regex.Size
import BimAudit.Screen.Canvas
import BimAudit.Screen.Layout
import BimAudit.Screen.Widget
import BimAudit.Session.Config
import BimAudit.Session.Event
import BimAudit.Session.FileAudit
import BimAudit.Session.Run
import BimAudit.Session.Source
import BimAudit.Session.Validate
import BimAudit.Spreadsheet.Basic
import BimAudit.Step.Encoding
import BimAudit.Step.Parameter
import BimAudit.Step.Printer
import BimAudit.Step.Record
import BimAudit.Step.Value
import BimAudit.Text.Ascii
import BimAudit.Text.Blank
import BimAudit.Text.CodePoint
import BimAudit.Text.Lines
import BimAudit.Text.Numeral
import BimAudit.Text.Pieces
import BimAudit.Text.Utf8
import BimAudit.Text.Words
import BimAudit.Total
import BimAudit.Unicode.Age
import BimAudit.Unicode.Boundary
import BimAudit.Unicode.Case
import BimAudit.Unicode.Category
import BimAudit.Unicode.CharSet
import BimAudit.Unicode.Lookup
import BimAudit.Unicode.Property
import BimAudit.Unicode.Script
import BimAudit.Unicode.SharedScript
import BimAudit.Workbook.Basic
import BimAudit.Workbook.Document
import BimAudit.Workbook.Load
import BimAudit.Workbook.Restriction
import BimAudit.Workbook.Source
import BimAudit.Xml.Element
import BimAudit.Xml.Event
import BimAudit.Xml.Markup
import BimAudit.Xml.Reference
