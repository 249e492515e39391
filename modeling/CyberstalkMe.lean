import CyberstalkMe.Agent.Delivery
import CyberstalkMe.Agent.Main
import CyberstalkMe.Api.TextReports
import CyberstalkMe.Shared.ReportText
import CyberstalkMe.Webui.CatalogFeed
import CyberstalkMe.Setup.EntryPage
import CyberstalkMe.Setup.Admission
import CyberstalkMe.Web.TextSession
import CyberstalkMe.Shared.Text
import CyberstalkMe.Foundations.EventStream
import CyberstalkMe.Foundations.JsonRoundTrip
import CyberstalkMe.Foundations.Execution
import CyberstalkMe.Foundations.Log
import CyberstalkMe.Usage.Attribute
import CyberstalkMe.Usage.Tiling
import CyberstalkMe.Usage.Aggregation
import CyberstalkMe.Store.Tables
import CyberstalkMe.Go.Strings
import CyberstalkMe.Go.Location
import CyberstalkMe.Agent.RoundTrip
import CyberstalkMe.Agent.Durations
import CyberstalkMe.Agent.Endpoint
import CyberstalkMe.Agent.SaveFaults
import CyberstalkMe.Server.Config
import CyberstalkMe.Server.Register
import CyberstalkMe.Report.Loop
import CyberstalkMe.Foundations.Grouping
import CyberstalkMe.Foundations.Recency
import CyberstalkMe.Foundations.Sorting
import CyberstalkMe.Setup.LivePreview
import CyberstalkMe.Setup.Catalog
import CyberstalkMe.Api.Usage
import CyberstalkMe.Hub.Broadcast
import CyberstalkMe.Hub.Delivery
import CyberstalkMe.State.Tracker
import CyberstalkMe.Store.Spec
import CyberstalkMe.Api.Report
import CyberstalkMe.Api.Crediting
import CyberstalkMe.Api.Snapshot
import CyberstalkMe.Sequential.System
import CyberstalkMe.Sequential.Readback
import CyberstalkMe.Sequential.UsageTimeline
import CyberstalkMe.Sequential.ReportIntervals
import CyberstalkMe.Sequential.UnacceptedReports
import CyberstalkMe.Sequential.Announcements
import CyberstalkMe.Sequential.Restart
import CyberstalkMe.Concurrent.Process
import CyberstalkMe.Concurrent.Records
import CyberstalkMe.Concurrent.DoubleCredit
import CyberstalkMe.Concurrent.StaleAnnouncements
import CyberstalkMe.Concurrent.NewestReport
import CyberstalkMe.Mapping.Mapper
import CyberstalkMe.Mapping.Spec
import CyberstalkMe.Mapping.Noninterference
import CyberstalkMe.Mapping.Errors
import CyberstalkMe.Webui.UndisturbedSave
import CyberstalkMe.Web.Page
import CyberstalkMe.Web.Session
import CyberstalkMe.Web.Convergence
import CyberstalkMe.Web.WireAgreement
import CyberstalkMe.Concurrent.Serial
import CyberstalkMe.Api.Charts
import CyberstalkMe.Foundations.Utf8
import CyberstalkMe.Foundations.Move
import CyberstalkMe.Foundations.Frames
import CyberstalkMe.Foundations.Casing
import CyberstalkMe.Store.Retention
import CyberstalkMe.Server.Retention
import CyberstalkMe.Api.Isolation
import CyberstalkMe.Mapping.PatternOrder
import CyberstalkMe.Mapping.Duplicates
import CyberstalkMe.Webui.MovePattern
import CyberstalkMe.Webui.CatalogStream
import CyberstalkMe.Webui.ProcessNames
import CyberstalkMe.Web.UseUsage
