import VendorMediatek.AccessTraces
import VendorMediatek.AudioCommandThreads
import VendorMediatek.AudioStreamAnswers
import VendorMediatek.AudioStreamEnds
import VendorMediatek.AudioStreams
import VendorMediatek.BackupBlocks
import VendorMediatek.BackupBounds
import VendorMediatek.BackupFlag
import VendorMediatek.BackupRegion
import VendorMediatek.BackupRestore
import VendorMediatek.BackupSearch
import VendorMediatek.BlockTraces
import VendorMediatek.BluetoothSessions
import VendorMediatek.ByteFile
import VendorMediatek.CMemory
import VendorMediatek.CStrings
import VendorMediatek.CameraCallbacks
import VendorMediatek.CameraDeviceNames
import VendorMediatek.CameraPreviewWindow
import VendorMediatek.CameraProvider
import VendorMediatek.CdmaInfoRecs
import VendorMediatek.CdmaSms
import VendorMediatek.CheckData
import VendorMediatek.CheckFileNum
import VendorMediatek.CheckNo
import VendorMediatek.CheckSum
import VendorMediatek.CircularList
import VendorMediatek.ConvertAll
import VendorMediatek.CountedArrays
import VendorMediatek.DataFile
import VendorMediatek.DecimalStrings
import VendorMediatek.DriverCommands
import VendorMediatek.DriverPowerSave
import VendorMediatek.DriverPrivateCommands
import VendorMediatek.DriverTokens
import VendorMediatek.EventBounds
import VendorMediatek.Faults
import VendorMediatek.FdWatcher
import VendorMediatek.FdWatcherRounds
import VendorMediatek.FdWatcherStop
import VendorMediatek.FieldLayouts
import VendorMediatek.FirmwareInit
import VendorMediatek.FirmwareTeardown
import VendorMediatek.FirstBoot
import VendorMediatek.FlashHistory
import VendorMediatek.H4EmptyPayload
import VendorMediatek.H4Receive
import VendorMediatek.HandleLeaves
import VendorMediatek.Handles
import VendorMediatek.HciSend
import VendorMediatek.HeapLedgers
import VendorMediatek.HexStrings
import VendorMediatek.HistoryFields
import VendorMediatek.HistoryLog
import VendorMediatek.HistoryLogFaults
import VendorMediatek.HistoryLogRing
import VendorMediatek.LabelledRuns
import VendorMediatek.LowPowerWatchdog
import VendorMediatek.MemoryLoads
import VendorMediatek.MiscLog
import VendorMediatek.NameLookup
import VendorMediatek.NetlinkAttributes
import VendorMediatek.NetlinkMessages
import VendorMediatek.NvramSession
import VendorMediatek.NvramStore
import VendorMediatek.NvramTable
import VendorMediatek.PointerList
import VendorMediatek.ProtectedSize
import VendorMediatek.RankedRuns
import VendorMediatek.ReadWriteLock
import VendorMediatek.RecencyLists
import VendorMediatek.RecordFile
import VendorMediatek.ResetWrites
import VendorMediatek.RilAnswers
import VendorMediatek.RilBufferOwnership
import VendorMediatek.RilBufferReleases
import VendorMediatek.RilCallbackLocks
import VendorMediatek.RilCallbackObjects
import VendorMediatek.RilCallbacks
import VendorMediatek.RilCellInfoLists
import VendorMediatek.RilChannelQueue
import VendorMediatek.RilCommandTable
import VendorMediatek.RilCurrentCalls
import VendorMediatek.RilDataCalls
import VendorMediatek.RilDispatch
import VendorMediatek.RilEventDeletes
import VendorMediatek.RilEventFires
import VendorMediatek.RilEventLoop
import VendorMediatek.RilEventShape
import VendorMediatek.RilEventSteps
import VendorMediatek.RilEventTimers
import VendorMediatek.RilLifecycle
import VendorMediatek.RilNitz
import VendorMediatek.RilOperatorNames
import VendorMediatek.RilPayloads
import VendorMediatek.RilPending
import VendorMediatek.RilQueuedCopy
import VendorMediatek.RilQueuedPayload
import VendorMediatek.RilReadBack
import VendorMediatek.RilRequestBuffers
import VendorMediatek.RilSmsPdus
import VendorMediatek.RilStartup
import VendorMediatek.RilStringAnswers
import VendorMediatek.RilStringBounds
import VendorMediatek.RilThreadTable
import VendorMediatek.RilUnsolCache
import VendorMediatek.RilUnsolTable
import VendorMediatek.RilWakeLock
import VendorMediatek.RilWakeups
import VendorMediatek.RilWatchTable
import VendorMediatek.SapCompletions
import VendorMediatek.SapQueue
import VendorMediatek.SapRequests
import VendorMediatek.SessionFrame
import VendorMediatek.SessionKeeps
import VendorMediatek.SessionPayload
import VendorMediatek.SessionRace
import VendorMediatek.SessionUpdates
import VendorMediatek.SlotDirectory
import VendorMediatek.SlotRequests
import VendorMediatek.SortedMaps
import VendorMediatek.StepFolds
import VendorMediatek.TextInput
import VendorMediatek.ThermalCpuUsages
import VendorMediatek.Tilings
import VendorMediatek.TimerQueue
import VendorMediatek.TitleHeaders
import VendorMediatek.TitleSearch
import VendorMediatek.UnsealedSizes
import VendorMediatek.VersionAgreement
import VendorMediatek.VersionDelete
import VendorMediatek.VersionFile
import VendorMediatek.VersionFormats
import VendorMediatek.VersionList
import VendorMediatek.VersionLocks
import VendorMediatek.VersionReaders
import VendorMediatek.VersionSlots
import VendorMediatek.VersionUpdate
import VendorMediatek.VersionsCurrent
import VendorMediatek.WifiCleanup
import VendorMediatek.WifiEventLoop
import VendorMediatek.WifiHandlerOwners
import VendorMediatek.WifiHandlers
import VendorMediatek.WifiInitialize
import VendorMediatek.WifiReplies
import VendorMediatek.WifiReplyCopies
import VendorMediatek.WifiRequests
import VendorMediatek.WifiRoamingConfig
