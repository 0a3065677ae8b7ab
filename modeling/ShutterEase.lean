import ShutterEase.AccountSetting
import ShutterEase.AutoPlayTime
import ShutterEase.BulkCommands
import ShutterEase.Dashboard
import ShutterEase.Dialogs
import ShutterEase.PartialFailure
import ShutterEase.RecordTypes
import ShutterEase.ScheduleCells
import ShutterEase.ScheduleForm
import ShutterEase.ScheduleLanguages
import ShutterEase.SchedulerMinutes
import ShutterEase.Session
import ShutterEase.SignIn
import ShutterEase.Toggles
import ShutterEase.DeviceCodec
import ShutterEase.Paths
import ShutterEase.Loader
import ShutterEase.SignUps
import ShutterEase.Resources
import ShutterEase.Reports
import ShutterEase.HomeRefinement
import ShutterEase.Cards
import ShutterEase.LocalizationController
import ShutterEase.ConcurrentHome
import ShutterEase.ScheduleView
import ShutterEase.LiveDashboard
import ShutterEase.AccountFlows
import ShutterEase.AddDeviceForm
import ShutterEase.KeyComparator
import ShutterEase.CardOrder
import ShutterEase.LLRBBalance
import ShutterEase.LLRBRemove
import ShutterEase.SortedDictionary
import ShutterEase.ChildrenNode
import ShutterEase.KeyEnumerators
