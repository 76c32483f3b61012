import Nut.Common.TokenList
import Nut.Drivers.Hidtypes
import Nut.Library.Checked

set_option autoImplicit false

namespace Nut

structure UsageLkp where
  usageName : CString
  usageCode : UInt32
  deriving DecidableEq, Repr

-- `usage_tables_t *`: the tables up to the null pointer, each up to its entry without a name.
abbrev UsageTables := List (List UsageLkp)

-- Global usage table (from USB HID class definition)
def hidUsageLkp : List UsageLkp := [
  ⟨cstr "Undefined", 0x00840000⟩,
  ⟨cstr "iName", 0x00840001⟩,
  ⟨cstr "PresentStatus", 0x00840002⟩,
  ⟨cstr "ChangedStatus", 0x00840003⟩,
  ⟨cstr "UPS", 0x00840004⟩,
  ⟨cstr "PowerSupply", 0x00840005⟩,
  ⟨cstr "BatterySystem", 0x00840010⟩,
  ⟨cstr "BatterySystemID", 0x00840011⟩,
  ⟨cstr "Battery", 0x00840012⟩,
  ⟨cstr "BatteryID", 0x00840013⟩,
  ⟨cstr "Charger", 0x00840014⟩,
  ⟨cstr "ChargerID", 0x00840015⟩,
  ⟨cstr "PowerConverter", 0x00840016⟩,
  ⟨cstr "PowerConverterID", 0x00840017⟩,
  ⟨cstr "OutletSystem", 0x00840018⟩,
  ⟨cstr "OutletSystemID", 0x00840019⟩,
  ⟨cstr "Input", 0x0084001a⟩,
  ⟨cstr "InputID", 0x0084001b⟩,
  ⟨cstr "Output", 0x0084001c⟩,
  ⟨cstr "OutputID", 0x0084001d⟩,
  ⟨cstr "Flow", 0x0084001e⟩,
  ⟨cstr "FlowID", 0x0084001f⟩,
  ⟨cstr "Outlet", 0x00840020⟩,
  ⟨cstr "OutletID", 0x00840021⟩,
  ⟨cstr "Gang", 0x00840022⟩,
  ⟨cstr "GangID", 0x00840023⟩,
  ⟨cstr "PowerSummary", 0x00840024⟩,
  ⟨cstr "PowerSummaryID", 0x00840025⟩,
  ⟨cstr "Voltage", 0x00840030⟩,
  ⟨cstr "Current", 0x00840031⟩,
  ⟨cstr "Frequency", 0x00840032⟩,
  ⟨cstr "ApparentPower", 0x00840033⟩,
  ⟨cstr "ActivePower", 0x00840034⟩,
  ⟨cstr "PercentLoad", 0x00840035⟩,
  ⟨cstr "Temperature", 0x00840036⟩,
  ⟨cstr "Humidity", 0x00840037⟩,
  ⟨cstr "BadCount", 0x00840038⟩,
  ⟨cstr "ConfigVoltage", 0x00840040⟩,
  ⟨cstr "ConfigCurrent", 0x00840041⟩,
  ⟨cstr "ConfigFrequency", 0x00840042⟩,
  ⟨cstr "ConfigApparentPower", 0x00840043⟩,
  ⟨cstr "ConfigActivePower", 0x00840044⟩,
  ⟨cstr "ConfigPercentLoad", 0x00840045⟩,
  ⟨cstr "ConfigTemperature", 0x00840046⟩,
  ⟨cstr "ConfigHumidity", 0x00840047⟩,
  ⟨cstr "SwitchOnControl", 0x00840050⟩,
  ⟨cstr "SwitchOffControl", 0x00840051⟩,
  ⟨cstr "ToggleControl", 0x00840052⟩,
  ⟨cstr "LowVoltageTransfer", 0x00840053⟩,
  ⟨cstr "HighVoltageTransfer", 0x00840054⟩,
  ⟨cstr "DelayBeforeReboot", 0x00840055⟩,
  ⟨cstr "DelayBeforeStartup", 0x00840056⟩,
  ⟨cstr "DelayBeforeShutdown", 0x00840057⟩,
  ⟨cstr "Test", 0x00840058⟩,
  ⟨cstr "ModuleReset", 0x00840059⟩,
  ⟨cstr "AudibleAlarmControl", 0x0084005a⟩,
  ⟨cstr "Present", 0x00840060⟩,
  ⟨cstr "Good", 0x00840061⟩,
  ⟨cstr "InternalFailure", 0x00840062⟩,
  ⟨cstr "VoltageOutOfRange", 0x00840063⟩,
  ⟨cstr "FrequencyOutOfRange", 0x00840064⟩,
  ⟨cstr "Overload", 0x00840065⟩,
  ⟨cstr "OverCharged", 0x00840066⟩,
  ⟨cstr "OverTemperature", 0x00840067⟩,
  ⟨cstr "ShutdownRequested", 0x00840068⟩,
  ⟨cstr "ShutdownImminent", 0x00840069⟩,
  ⟨cstr "SwitchOn/Off", 0x0084006b⟩,
  ⟨cstr "Switchable", 0x0084006c⟩,
  ⟨cstr "Used", 0x0084006d⟩,
  ⟨cstr "Boost", 0x0084006e⟩,
  ⟨cstr "Buck", 0x0084006f⟩,
  ⟨cstr "Initialized", 0x00840070⟩,
  ⟨cstr "Tested", 0x00840071⟩,
  ⟨cstr "AwaitingPower", 0x00840072⟩,
  ⟨cstr "CommunicationLost", 0x00840073⟩,
  ⟨cstr "iManufacturer", 0x008400fd⟩,
  ⟨cstr "iProduct", 0x008400fe⟩,
  ⟨cstr "iSerialNumber", 0x008400ff⟩,
  ⟨cstr "Undefined", 0x00850000⟩,
  ⟨cstr "SMBBatteryMode", 0x00850001⟩,
  ⟨cstr "SMBBatteryStatus", 0x00850002⟩,
  ⟨cstr "SMBAlarmWarning", 0x00850003⟩,
  ⟨cstr "SMBChargerMode", 0x00850004⟩,
  ⟨cstr "SMBChargerStatus", 0x00850005⟩,
  ⟨cstr "SMBChargerSpecInfo", 0x00850006⟩,
  ⟨cstr "SMBSelectorState", 0x00850007⟩,
  ⟨cstr "SMBSelectorPresets", 0x00850008⟩,
  ⟨cstr "SMBSelectorInfo", 0x00850009⟩,
  ⟨cstr "OptionalMfgFunction1", 0x00850010⟩,
  ⟨cstr "OptionalMfgFunction2", 0x00850011⟩,
  ⟨cstr "OptionalMfgFunction3", 0x00850012⟩,
  ⟨cstr "OptionalMfgFunction4", 0x00850013⟩,
  ⟨cstr "OptionalMfgFunction5", 0x00850014⟩,
  ⟨cstr "ConnectionToSMBus", 0x00850015⟩,
  ⟨cstr "OutputConnection", 0x00850016⟩,
  ⟨cstr "ChargerConnection", 0x00850017⟩,
  ⟨cstr "BatteryInsertion", 0x00850018⟩,
  ⟨cstr "Usenext", 0x00850019⟩,
  ⟨cstr "OKToUse", 0x0085001a⟩,
  ⟨cstr "BatterySupported", 0x0085001b⟩,
  ⟨cstr "SelectorRevision", 0x0085001c⟩,
  ⟨cstr "ChargingIndicator", 0x0085001d⟩,
  ⟨cstr "ManufacturerAccess", 0x00850028⟩,
  ⟨cstr "RemainingCapacityLimit", 0x00850029⟩,
  ⟨cstr "RemainingTimeLimit", 0x0085002a⟩,
  ⟨cstr "AtRate", 0x0085002b⟩,
  ⟨cstr "CapacityMode", 0x0085002c⟩,
  ⟨cstr "BroadcastToCharger", 0x0085002d⟩,
  ⟨cstr "PrimaryBattery", 0x0085002e⟩,
  ⟨cstr "ChargeController", 0x0085002f⟩,
  ⟨cstr "TerminateCharge", 0x00850040⟩,
  ⟨cstr "TerminateDischarge", 0x00850041⟩,
  ⟨cstr "BelowRemainingCapacityLimit", 0x00850042⟩,
  ⟨cstr "RemainingTimeLimitExpired", 0x00850043⟩,
  ⟨cstr "Charging", 0x00850044⟩,
  ⟨cstr "Discharging", 0x00850045⟩,
  ⟨cstr "FullyCharged", 0x00850046⟩,
  ⟨cstr "FullyDischarged", 0x00850047⟩,
  ⟨cstr "ConditioningFlag", 0x00850048⟩,
  ⟨cstr "AtRateOK", 0x00850049⟩,
  ⟨cstr "SMBErrorCode", 0x0085004a⟩,
  ⟨cstr "NeedReplacement", 0x0085004b⟩,
  ⟨cstr "AtRateTimeToFull", 0x00850060⟩,
  ⟨cstr "AtRateTimeToEmpty", 0x00850061⟩,
  ⟨cstr "AverageCurrent", 0x00850062⟩,
  ⟨cstr "Maxerror", 0x00850063⟩,
  ⟨cstr "RelativeStateOfCharge", 0x00850064⟩,
  ⟨cstr "AbsoluteStateOfCharge", 0x00850065⟩,
  ⟨cstr "RemainingCapacity", 0x00850066⟩,
  ⟨cstr "FullChargeCapacity", 0x00850067⟩,
  ⟨cstr "RunTimeToEmpty", 0x00850068⟩,
  ⟨cstr "AverageTimeToEmpty", 0x00850069⟩,
  ⟨cstr "AverageTimeToFull", 0x0085006a⟩,
  ⟨cstr "CycleCount", 0x0085006b⟩,
  ⟨cstr "BattPackModelLevel", 0x00850080⟩,
  ⟨cstr "InternalChargeController", 0x00850081⟩,
  ⟨cstr "PrimaryBatterySupport", 0x00850082⟩,
  ⟨cstr "DesignCapacity", 0x00850083⟩,
  ⟨cstr "SpecificationInfo", 0x00850084⟩,
  ⟨cstr "ManufacturerDate", 0x00850085⟩,
  ⟨cstr "SerialNumber", 0x00850086⟩,
  ⟨cstr "iManufacturerName", 0x00850087⟩,
  ⟨cstr "iDevicename", 0x00850088⟩,
  ⟨cstr "iDeviceChemistry", 0x00850089⟩,
  ⟨cstr "ManufacturerData", 0x0085008a⟩,
  ⟨cstr "Rechargeable", 0x0085008b⟩,
  ⟨cstr "WarningCapacityLimit", 0x0085008c⟩,
  ⟨cstr "CapacityGranularity1", 0x0085008d⟩,
  ⟨cstr "CapacityGranularity2", 0x0085008e⟩,
  ⟨cstr "iOEMInformation", 0x0085008f⟩,
  ⟨cstr "InhibitCharge", 0x008500c0⟩,
  ⟨cstr "EnablePolling", 0x008500c1⟩,
  ⟨cstr "ResetToZero", 0x008500c2⟩,
  ⟨cstr "ACPresent", 0x008500d0⟩,
  ⟨cstr "BatteryPresent", 0x008500d1⟩,
  ⟨cstr "PowerFail", 0x008500d2⟩,
  ⟨cstr "AlarmInhibited", 0x008500d3⟩,
  ⟨cstr "ThermistorUnderRange", 0x008500d4⟩,
  ⟨cstr "ThermistorHot", 0x008500d5⟩,
  ⟨cstr "ThermistorCold", 0x008500d6⟩,
  ⟨cstr "ThermistorOverRange", 0x008500d7⟩,
  ⟨cstr "VoltageOutOfRange", 0x008500d8⟩,
  ⟨cstr "CurrentOutOfRange", 0x008500d9⟩,
  ⟨cstr "CurrentNotRegulated", 0x008500da⟩,
  ⟨cstr "VoltageNotRegulated", 0x008500db⟩,
  ⟨cstr "MasterMode", 0x008500dc⟩,
  ⟨cstr "ChargerSelectorSupport", 0x008500f0⟩,
  ⟨cstr "ChargerSpec", 0x008500f1⟩,
  ⟨cstr "Level2", 0x008500f2⟩,
  ⟨cstr "Level3", 0x008500f3⟩]

-- `none` for -1.
def hidLookupUsage (name : CString) (utab : UsageTables) : Option UInt32 :=
  (utab.flatten.find? fun entry => strcasecmp entry.usageName name == .eq).map UsageLkp.usageCode

def hidLookupPath (usage : UInt32) (utab : UsageTables) : Option CString :=
  (utab.flatten.find? fun entry => entry.usageCode == usage).map UsageLkp.usageName

def xdigitValue (b : UInt8) : Nat :=
  if isdigit b then b.toNat - 48 else (tolower b).toNat - 87

-- Base 16, of a text that is digits only; out-of-range values saturate.
def strtolHex (s : CString) : Int :=
  min longMax (s.foldl (fun value b => 16 * value + xdigitValue b) 0 : Nat)

def uint32Max : Int := 2 ^ 32 - 1

def isIndexByte (b : UInt8) : Bool :=
  isdigit b || b == 91 || b == 93

def tokenNode (token : CString) (utab : UsageTables) : Option UInt32 :=
  match hidLookupUsage token utab with
  | some usage => some usage
  | none =>
    if token.all isxdigit then
      let l := strtolHex token
      if l < 0 ∨ l > uint32Max then none else some (UInt32.ofInt l)
    else if token.all isIndexByte then
      -- +1: skip the bracket
      let l := atoi (token.drop 1)
      if l < 0 then none else some (0x00ff0000 + l.toUInt32)
    else none

def storeNode (utab : UsageTables) (path : List UInt32 × Nat) (token : CString) : Checked (List UInt32 × Nat) :=
  match tokenNode token utab with
  | some usage => (writeAt path.1 path.2 usage).map fun node => (node, path.2 + 1)
  | none => .ok path

def stringToPath (string : CString) (path : HIDPath) (utab : UsageTables) : Checked (HIDPath × Nat) :=
  ((strtok 46 (snprintf smallbuf string)).foldlM (storeNode utab) (path.node, 0)).map fun (node, i) =>
    ({ size := i % 256, node }, i)

def xdigit (digit : Nat) : UInt8 :=
  UInt8.ofNat (if digit < 10 then 48 + digit else 87 + digit)

def printHex : Nat -> Nat -> CString
  | 0, _ => []
  | width + 1, n => printHex width (n / 16) ++ [xdigit (n % 16)]

def nodeText (utab : Option UsageTables) (node : UInt32) : CString :=
  match utab.bind (hidLookupPath node) with
  | some p => p
  | none =>
    if node &&& 0xffff0000 = 0x00ff0000 then cstr "[" ++ printInt (node &&& 0x0000ffff).toNat ++ cstr "]"
    else printHex 8 node.toNat

def appendNode (size : Nat) (utab : Option UsageTables) (string : CString) (node : UInt32 × Nat) : CString :=
  let string := if node.2 > 0 then snprintfcat string size (cstr ".") else string
  snprintfcat string size (nodeText utab node.1)

def pathToString (size : Nat) (path : HIDPath) (utab : Option UsageTables) : CString × Nat :=
  ((path.node.take path.size).zipIdx.foldl (appendNode size utab) (snprintf size []), path.size)

end Nut
