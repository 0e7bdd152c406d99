import FatDrive.Lib.Runs
import FatDrive.Lib.Programs
import FatDrive.Lib.Descriptor
import FatDrive.UsbComm
import FatDrive.FlatMedium
import FatDrive.BufScsiCache
import FatDrive.BufScsiRefine
import FatDrive.BufScsiInvariant
import FatDrive.BufScsiFault
import FatDrive.BufScsiTear
import FatDrive.BufScsiLost
import FatDrive.Partition
import FatDrive.BufScsiConfine
import FatDrive.Lib.Memory
import FatDrive.Lib.Locks
import FatDrive.IdStore
import FatDrive.Volume
import FatDrive.IdStoreInv
import FatDrive.IdStoreHistory
import FatDrive.IdStoreIssues
import FatDrive.Mounted
import FatDrive.UsbFs
import FatDrive.UsbFsInit
import FatDrive.UsbFsLifetime
import FatDrive.UsbFsPaths
import FatDrive.UsbFsLocks
import FatDrive.UsbFsExclusion
import FatDrive.BufScsiFaultFree
import FatDrive.FatfsRaw
import FatDrive.FatfsRawTable
import FatDrive.FatfsRawRequests
import FatDrive.FatfsRawSectors
import FatDrive.FatfsRawBounds
import FatDrive.FatfsRawDrives
import FatDrive.DirectoryOps
import FatDrive.NewlibFile
import FatDrive.NewlibContext
import FatDrive.BufScsiFrame
import FatDrive.BufScsiAtomic
import FatDrive.BufScsiSeek
import FatDrive.UsbCommTransfers
import FatDrive.FatfsRawAdd
import FatDrive.NewlibPartitions
import FatDrive.IdStoreReads
import FatDrive.Lib.Separated
import FatDrive.StatPath
import FatDrive.StatSlashes
import FatDrive.UsbFsShortcuts
import FatDrive.StatOpens
import FatDrive.UsbFsDelete
import FatDrive.FileOps
import FatDrive.UsbFsFiles
import FatDrive.NewlibSeek
import FatDrive.FatfsRawFiles
import FatDrive.DirEntries
import FatDrive.NewlibDir
import FatDrive.StatLength
import FatDrive.BufScsiLength
import FatDrive.DirListing
import FatDrive.UsbFsApi
import FatDrive.UsbFsHealth
import FatDrive.UsbFsService
import FatDrive.Lib.Serial
import FatDrive.UsbFsSerial
import FatDrive.Lib.OpenFiles
import FatDrive.UserFiles
import FatDrive.UsbFsDescriptors
import FatDrive.Lib.WriteBehind
import FatDrive.BufScsiCrash
import FatDrive.FatfsRawCrash
