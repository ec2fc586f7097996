import HikakuKun.EventSystem
import HikakuKun.Throwing
import HikakuKun.Memory
import HikakuKun.FloorTiling
import HikakuKun.Erasures
import HikakuKun.RealmClasses
import HikakuKun.CompareMainVC
import HikakuKun.SaveData
import HikakuKun.App
import HikakuKun.Layout
import HikakuKun.ViewDidLoad
import HikakuKun.BackupRestore
import HikakuKun.StoreKeys
import HikakuKun.SaveSpec
import HikakuKun.GuardedAssignments
import HikakuKun.ListSpec
import HikakuKun.Reachable
import HikakuKun.RunInvariants
import HikakuKun.RowCount
import HikakuKun.KeepInput
import HikakuKun.ListScreen
import HikakuKun.Session
import HikakuKun.Forms
import HikakuKun.FormRefinement
import HikakuKun.Failures
import HikakuKun.Opening
import HikakuKun.SaveRedisplay
import HikakuKun.GridLayout
import HikakuKun.PartialForms
import HikakuKun.Provenance
import HikakuKun.CrashSafety
import HikakuKun.Records
import HikakuKun.Recovery
import HikakuKun.Drafts
import HikakuKun.Screen
import HikakuKun.Reopening
import HikakuKun.Limits
import HikakuKun.StaleList
import HikakuKun.Retry
import HikakuKun.Listing
import HikakuKun.Attainable
import HikakuKun.Retention
import HikakuKun.Timestamps
