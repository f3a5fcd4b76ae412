import SwmLvgl.RunSteps
import SwmLvgl.CArray
import SwmLvgl.PmModel
import SwmLvgl.PmAnim
import SwmLvgl.PmManager
import SwmLvgl.PmSpec
import SwmLvgl.PmStart
import SwmLvgl.PmSafety
import SwmLvgl.PmHistory
import SwmLvgl.PmPicture
import SwmLvgl.PmMove
import SwmLvgl.PmSettle
import SwmLvgl.PmVisibility
import SwmLvgl.PmPosition
import SwmLvgl.PmRestore
import SwmLvgl.PmLifecycle
import SwmLvgl.PmTransitions
import SwmLvgl.AppPages
import SwmLvgl.AppShell
import SwmLvgl.AppSpec
import SwmLvgl.AppInvariant
import SwmLvgl.AppRequests
import SwmLvgl.TouchDriver
import SwmLvgl.TouchPad
import SwmLvgl.TouchSpec
import SwmLvgl.TouchReports
import SwmLvgl.RegBits
import SwmLvgl.Kerrno
import SwmLvgl.GpioModel
import SwmLvgl.GpioDriver
import SwmLvgl.GpioPins
import SwmLvgl.GpioIsr
import SwmLvgl.PmRefused
import SwmLvgl.TouchRelease
import SwmLvgl.TouchSlots
import SwmLvgl.FlatMemory
import SwmLvgl.DispFlush
import SwmLvgl.DispBlit
import SwmLvgl.CanDriver
import SwmLvgl.CanFilter
import SwmLvgl.CanFrame
import SwmLvgl.SdioDriver
import SwmLvgl.SdioCompletion
import SwmLvgl.CrcDriver
import SwmLvgl.CrcContexts
import SwmLvgl.GpioNames
import SwmLvgl.SdioStatus
import SwmLvgl.SdioClock
import SwmLvgl.LeWords
import SwmLvgl.SdioTransfer
import SwmLvgl.SdioBlocks
import SwmLvgl.SdioRequest
import SwmLvgl.Calendar
import SwmLvgl.RtcTime
import SwmLvgl.RtcDriver
import SwmLvgl.PwmDriver
import SwmLvgl.AppLayout
import SwmLvgl.FlashDump
import SwmLvgl.FlashCopy
import SwmLvgl.DownCounter
import SwmLvgl.I2cDelay
import SwmLvgl.CalendarDates
import SwmLvgl.RtcWeekDay
import SwmLvgl.MemheapModel
import SwmLvgl.Rings
import SwmLvgl.Blocks
import SwmLvgl.MemheapAlign
import SwmLvgl.MemheapClient
import SwmLvgl.MemheapSafety
import SwmLvgl.LvAreas
import SwmLvgl.RefrDirty
import SwmLvgl.RefrPort
import SwmLvgl.I2cBitOps
import SwmLvgl.I2cBus
import SwmLvgl.I2cBytes
import SwmLvgl.I2cTransfer
import SwmLvgl.I2cPins
import SwmLvgl.TouchRegisters
import SwmLvgl.TouchConfig
