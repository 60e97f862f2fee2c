import ObjectFile.Numeral
/-!
# Faults

Everything that can stop the reading of an object file, with what is known about it, and
the one place where the wording of a fault is settled.  A failure of the underlying device
keeps its own kind and wording, with one exception: a device that reports that its data
ended too early says what an early end of the data says (`Fault.ofDevice`).
-/

namespace ObjectFile

/-- The kinds of failure a device can report. -/
inductive DeviceError where
  | notFound | permissionDenied | connectionRefused | connectionReset | hostUnreachable
  | networkUnreachable | connectionAborted | notConnected | addrInUse | addrNotAvailable
  | networkDown | brokenPipe | alreadyExists | wouldBlock | notADirectory | isADirectory
  | directoryNotEmpty | readOnlyFilesystem | filesystemLoop | staleNetworkFileHandle
  | invalidInput | invalidData | timedOut | writeZero | storageFull | notSeekable | quotaExceeded
  | fileTooLarge | resourceBusy | executableFileBusy | deadlock | crossesDevices | tooManyLinks
  | invalidFilename | argumentListTooLong | interrupted | unsupported | unexpectedEof
  | outOfMemory | inProgress | other | uncategorized
deriving DecidableEq, Repr

namespace DeviceError

/-- Every kind of failure. -/
def all : List DeviceError :=
  [notFound, permissionDenied, connectionRefused, connectionReset, hostUnreachable,
    networkUnreachable, connectionAborted, notConnected, addrInUse, addrNotAvailable, networkDown,
    brokenPipe, alreadyExists, wouldBlock, notADirectory, isADirectory, directoryNotEmpty,
    readOnlyFilesystem, filesystemLoop, staleNetworkFileHandle, invalidInput, invalidData,
    timedOut, writeZero, storageFull, notSeekable, quotaExceeded, fileTooLarge, resourceBusy,
    executableFileBusy, deadlock, crossesDevices, tooManyLinks, invalidFilename,
    argumentListTooLong, interrupted, unsupported, unexpectedEof, outOfMemory, inProgress, other,
    uncategorized]

/-- The name under which a kind of failure is shown. -/
def name : DeviceError → String
  | notFound => "NotFound"
  | permissionDenied => "PermissionDenied"
  | connectionRefused => "ConnectionRefused"
  | connectionReset => "ConnectionReset"
  | hostUnreachable => "HostUnreachable"
  | networkUnreachable => "NetworkUnreachable"
  | connectionAborted => "ConnectionAborted"
  | notConnected => "NotConnected"
  | addrInUse => "AddrInUse"
  | addrNotAvailable => "AddrNotAvailable"
  | networkDown => "NetworkDown"
  | brokenPipe => "BrokenPipe"
  | alreadyExists => "AlreadyExists"
  | wouldBlock => "WouldBlock"
  | notADirectory => "NotADirectory"
  | isADirectory => "IsADirectory"
  | directoryNotEmpty => "DirectoryNotEmpty"
  | readOnlyFilesystem => "ReadOnlyFilesystem"
  | filesystemLoop => "FilesystemLoop"
  | staleNetworkFileHandle => "StaleNetworkFileHandle"
  | invalidInput => "InvalidInput"
  | invalidData => "InvalidData"
  | timedOut => "TimedOut"
  | writeZero => "WriteZero"
  | storageFull => "StorageFull"
  | notSeekable => "NotSeekable"
  | quotaExceeded => "QuotaExceeded"
  | fileTooLarge => "FileTooLarge"
  | resourceBusy => "ResourceBusy"
  | executableFileBusy => "ExecutableFileBusy"
  | deadlock => "Deadlock"
  | crossesDevices => "CrossesDevices"
  | tooManyLinks => "TooManyLinks"
  | invalidFilename => "InvalidFilename"
  | argumentListTooLong => "ArgumentListTooLong"
  | interrupted => "Interrupted"
  | unsupported => "Unsupported"
  | unexpectedEof => "UnexpectedEof"
  | outOfMemory => "OutOfMemory"
  | inProgress => "InProgress"
  | other => "Other"
  | uncategorized => "Uncategorized"

/-- The kind of failure of a given name. -/
def ofName? (name : String) : Option DeviceError := all.find? (·.name = name)

theorem ofName?_name (kind : DeviceError) : ofName? kind.name = some kind := by
  cases kind <;> decide +kernel

end DeviceError

/-- The two tables of an object file that consist of marked records. -/
inductive Section where
  | references
  | symbols
deriving DecidableEq, Repr

/-- How a section is called in a message. -/
def Section.name : Section → String
  | .references => "reference table"
  | .symbols => "symbol table"

/-- What stopped the reading of an object file. -/
inductive Fault where
  /-- The data ended, after so many bytes, where more were needed. -/
  | truncated (consumed : Nat)
  /-- The data holds no header. -/
  | noHeader
  /-- The header names a version that is not read. -/
  | wrongVersion (version : UInt8)
  /-- These bytes stand where the footer has to be. -/
  | wrongFooter (footer : List UInt8)
  /-- A byte that marks neither a record nor the end of the section. -/
  | strayMarker (part : Section) (marker : UInt8)
  /-- A number that goes on after ten bytes. -/
  | longNumber
  /-- A negative number where a length is needed. -/
  | negativeLength (what : String) (value : Int64)
  /-- The device failed. -/
  | device (kind : DeviceError) (message : String)
deriving DecidableEq, Repr

namespace Fault

/-- A device's failure after so many bytes, as a fault. -/
def ofDevice (kind : DeviceError) (message : String) (consumed : Nat) : Fault :=
  match kind with
  | .unexpectedEof => .truncated consumed
  | kind => .device kind message

/-- Bytes as a bracketed list. -/
def dump (bytes : List UInt8) : String :=
  "[" ++ String.intercalate ", " (bytes.map Numeral.byteHex) ++ "]"

/-- The wording of a fault. -/
def message : Fault → String
  | .truncated consumed =>
    "unexpected end of input after " ++ Numeral.natural consumed ++ " bytes"
  | .noHeader => "header magic not found"
  | .wrongVersion version => "unexpected version: " ++ Numeral.natural version.toNat
  | .wrongFooter footer => "invalid footer: " ++ dump footer
  | .strayMarker part marker =>
    "sanity check failed in " ++ part.name ++ ": unexpected marker " ++ Numeral.hex marker.toNat
  | .longNumber => "varint does not fit in 64 bits"
  | .negativeLength what value =>
    "negative " ++ what ++ " length: " ++ Numeral.decimal value.toInt
  | .device kind message => "i/o error (" ++ kind.name ++ "): " ++ message

end Fault

end ObjectFile
