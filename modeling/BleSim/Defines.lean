import Mathlib.Tactic.Common
import Mathlib.Algebra.Group.Nat.Defs
import Mathlib.Algebra.Group.Int.Defs

/-!
# Constants of the simulator

The macros of `defines.h` the model uses, under camel-case versions of their names, and the
`ble_data_type_t` enumeration with its table of sizes. C strings are lists of characters,
without the terminating NUL; buffers are lists of bytes.
-/

namespace BleSim

/-- The characters of a C string before its terminating NUL. -/
abbrev CStr := List Char

/-- The contents of a buffer. -/
abbrev Bytes := List UInt8

/-- `ORIGIN_C` and `ORIGIN_LUA`: who owns the memory of an object's struct. -/
inductive Origin where
  | c
  | lua
deriving DecidableEq, Repr

/-! ## The command line and the log -/

def simArgsOptionScript : CStr := "--script".toList
def simArgsOptionHelp : CStr := "--help".toList
def simArgsOptionLogging : CStr := "--logging".toList

def loggingLevelNoneStr : CStr := "None".toList
def loggingLevelInfoStr : CStr := "Info".toList
def loggingLevelErrorStr : CStr := "ERROR".toList
def loggingLevelWarnStr : CStr := "WARN".toList
def loggingLevelDebugStr : CStr := "Debug".toList
def loggingLevelTraceStr : CStr := "Trace".toList

/-! ## Paths and names -/

def baseAdapterPath : CStr := "/org/bluez/hci".toList
def defaultAdapterPath : CStr := "/org/bluez/hci0".toList
def emptyString : CStr := "".toList
def deviceObjectName : CStr := "dev".toList
def serviceObjectName : CStr := "serv".toList
def characteristicObjectName : CStr := "char".toList
def descriptorObjectName : CStr := "desc".toList
def advertisementObjectName : CStr := "advrt".toList

/-! ## Advertisement defaults -/

def advertisementTypeDefault : CStr := "peripheral".toList
def advertisementSecondaryChannelDefault : CStr := "1M".toList
def advertisementDurationDefault : UInt16 := 5
def advertisementTimeoutDefault : UInt16 := 0
def advertisementDiscoverableTimeoutDefault : UInt16 := 0
def advertisementDiscoverableDefault : Bool := true
def advertisementMinIntervalDefault : UInt32 := 1000
def advertisementMaxIntervalDefault : UInt32 := 5000
def advertisementDataMaxSize : ℕ := 24

/-! ## D-Bus property, method and interface names -/

def blePropertyUuid : CStr := "UUID".toList
def blePropertyPrimary : CStr := "Primary".toList
def blePropertyDevice : CStr := "Device".toList
def blePropertyService : CStr := "Service".toList
def blePropertyCharacteristic : CStr := "Characteristic".toList
def blePropertyValue : CStr := "Value".toList
def blePropertyFlags : CStr := "Flags".toList
def blePropertyType : CStr := "Type".toList
def blePropertyManufacturerData : CStr := "ManufacturerData".toList
def blePropertyDiscoverable : CStr := "Discoverable".toList
def blePropertyDiscoverableTimeout : CStr := "DiscoverableTimeout".toList
def blePropertyIncludes : CStr := "Includes".toList
def blePropertyDuration : CStr := "Duration".toList
def blePropertyTimeout : CStr := "Timeout".toList
def blePropertyMinInterval : CStr := "MinInterval".toList
def blePropertyMaxInterval : CStr := "MaxInterval".toList

def dbusInterfaceProperties : CStr := "org.freedesktop.DBus.Properties".toList
def dbusSignalPropertiesChanged : CStr := "PropertiesChanged".toList
def dbusMethodSet : CStr := "Set".toList
def dbusMethodGet : CStr := "Get".toList
def dbusMethodGetAll : CStr := "GetAll".toList

def dbusInterfaceObjectManager : CStr := "org.freedesktop.DBus.ObjectManager".toList
def dbusMethodGetManagedObjects : CStr := "GetManagedObjects".toList

def bluezAdapterInterface : CStr := "org.bluez.Adapter1".toList
def bluezAdapterPropertyPowered : CStr := "Powered".toList
def bluezAdapterPropertyDiscoverable : CStr := "Discoverable".toList

def bluezGattManagerInterface : CStr := "org.bluez.GattManager1".toList
def bluezGattServiceInterface : CStr := "org.bluez.GattService1".toList
def bluezGattCharacteristicInterface : CStr := "org.bluez.GattCharacteristic1".toList
def bluezGattDescriptorInterface : CStr := "org.bluez.GattDescriptor1".toList
def bluezLeAdvertisingManagerInterface : CStr := "org.bluez.LEAdvertisingManager1".toList
def bluezLeAdvertisementInterface : CStr := "org.bluez.LEAdvertisement1".toList

def bluezMethodRelease : CStr := "Release".toList
def bluezMethodRegisterApplication : CStr := "RegisterApplication".toList
def bluezMethodRegisterAdvertisement : CStr := "RegisterAdvertisement".toList
def bluezMethodReadValue : CStr := "ReadValue".toList
def bluezMethodWriteValue : CStr := "WriteValue".toList
def bluezMethodStartNotify : CStr := "StartNotify".toList
def bluezMethodStopNotify : CStr := "StopNotify".toList

/-! ## Flags -/

/-- A row of a flag table: `object_flag_t`. -/
structure ObjectFlag where
  flagValue : CStr
  enabledBit : UInt32

/-- `utils_is_flag_set`. -/
def utilsIsFlagSet (x flag : UInt32) : Bool := (x &&& flag) != 0

/-- The mask `1 << n`. -/
def flagBit (n : UInt32) : UInt32 := 1 <<< n

def characteristicFlagsAllEnabled : UInt32 := 0x01FFFFFF

def characteristicFlags : List ObjectFlag :=
  [⟨"broadcast".toList, flagBit 0⟩,
    ⟨"read".toList, flagBit 1⟩,
    ⟨"write-without-response".toList, flagBit 2⟩,
    ⟨"write".toList, flagBit 3⟩,
    ⟨"notify".toList, flagBit 4⟩,
    ⟨"indicate".toList, flagBit 5⟩,
    ⟨"authenticated-signed-writes".toList, flagBit 6⟩,
    ⟨"extended-properties".toList, flagBit 7⟩,
    ⟨"reliable-write".toList, flagBit 8⟩,
    ⟨"writable-auxiliaries".toList, flagBit 9⟩,
    ⟨"encrypt-read".toList, flagBit 10⟩,
    ⟨"encrypt-write".toList, flagBit 11⟩,
    ⟨"encrypt-authenticated-read".toList, flagBit 12⟩,
    ⟨"encrypt-authenticated-write".toList, flagBit 13⟩,
    ⟨"secure-read".toList, flagBit 14⟩,
    ⟨"secure-write".toList, flagBit 15⟩,
    ⟨"authorize".toList, flagBit 16⟩]

def descriptorFlagsAllEnabled : UInt16 := 0x01FF

def descriptorFlags : List ObjectFlag :=
  [⟨"read".toList, flagBit 0⟩,
    ⟨"write".toList, flagBit 1⟩,
    ⟨"encrypt-read".toList, flagBit 2⟩,
    ⟨"encrypt-write".toList, flagBit 3⟩,
    ⟨"encrypt-authenticated-read".toList, flagBit 4⟩,
    ⟨"encrypt-authenticated-write".toList, flagBit 5⟩,
    ⟨"secure-read".toList, flagBit 6⟩,
    ⟨"secure-write".toList, flagBit 7⟩,
    ⟨"authorize".toList, flagBit 8⟩]

/-! ## Data types of characteristic values -/

/-- `ble_data_type_t`: the data types a script can name. -/
inductive BleDataType where
  | bool | int8 | uint8 | int16 | uint16 | int32 | uint32 | int64 | uint64
  | float | double | string
deriving DecidableEq, Repr

/-- The enumerators' values. -/
def BleDataType.code : BleDataType → UInt32
  | bool => 0
  | int8 => 1
  | uint8 => 2
  | int16 => 3
  | uint16 => 4
  | int32 => 5
  | uint32 => 6
  | int64 => 7
  | uint64 => 8
  | float => 9
  | double => 10
  | string => 11

/-- The enumerator with the given value, if there is one. -/
def BleDataType.ofCode (code : UInt32) : Option BleDataType :=
  [bool, int8, uint8, int16, uint16, int32, uint32, int64, uint64, float, double, string].find?
    fun t => t.code == code

/-- The array `BLE_DATA_TYPE_SIZE`, indexed by enumerators. -/
def bleDataTypeSize : List ℕ := [1, 1, 1, 2, 2, 4, 4, 8, 8, 4, 8, 0]

@[simp] theorem BleDataType.ofCode_code (t : BleDataType) : BleDataType.ofCode t.code = some t := by
  cases t <;> decide

end BleSim
