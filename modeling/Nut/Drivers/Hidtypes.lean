set_option autoImplicit false

namespace Nut

def pathSize : Nat := 10
def usageTabSize : Nat := 50
def maxReport : Nat := 500
def reportDscSize : Nat := 6144

inductive ItemTag where
  | collection
  | endCollection
  -- `ITEM_FEATURE`, `ITEM_INPUT` and `ITEM_OUTPUT`
  | field
  | upage
  | logMin
  | logMax
  | phyMin
  | phyMax
  | unitExp
  | unit
  | repSize
  | repID
  | repCount
  | usage
  | long
  | other
  deriving DecidableEq, Repr

def itemTag (item : UInt8) : ItemTag :=
  match (item &&& 0xfc).toNat with
  | 0xa0 => .collection
  | 0xc0 => .endCollection
  | 0xb0 | 0x80 | 0x90 => .field
  | 0x04 => .upage
  | 0x14 => .logMin
  | 0x24 => .logMax
  | 0x34 => .phyMin
  | 0x44 => .phyMax
  | 0x54 => .unitExp
  | 0x64 => .unit
  | 0x74 => .repSize
  | 0x84 => .repID
  | 0x94 => .repCount
  | 0x08 => .usage
  | 0xfc => .long
  | _ => .other

def itemSize (item : UInt8) : Nat :=
  match (item &&& 0x03).toNat with
  | 0 => 0
  | 1 => 1
  | 2 => 2
  | _ => 4

-- `HIDPath_t`; there is room for `pathSize` nodes, of which `size` are in use.
structure HIDPath where
  size : Nat
  node : List UInt32
  deriving DecidableEq, Repr

-- `HIDData_t`, on a platform with a `long` of 64 bits.
structure HIDData where
  path : HIDPath
  reportID : UInt8
  offset : UInt8
  size : UInt8
  type : UInt8
  dataAttribute : UInt8
  unit : Int64
  unitExp : Int8
  logMin : Int64
  logMax : Int64
  assumedLogMax : Bool
  phyMin : Int64
  phyMax : Int64
  havePhyMin : Bool
  havePhyMax : Bool
  deriving DecidableEq, Repr

def HIDData.zero : HIDData :=
  { path := { size := 0, node := List.replicate pathSize 0 }, reportID := 0, offset := 0, size := 0, type := 0,
    dataAttribute := 0, unit := 0, unitExp := 0, logMin := 0, logMax := 0, assumedLogMax := false, phyMin := 0,
    phyMax := 0, havePhyMin := false, havePhyMax := false }

-- `HIDDesc_t`: `item` has room for `maxReport` items, of which the first `nitems` count.
structure HIDDesc where
  nitems : Nat
  item : List HIDData
  replen : List Nat
  deriving DecidableEq, Repr

end Nut
