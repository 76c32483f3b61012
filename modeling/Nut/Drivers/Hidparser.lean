import Nut.Library.BitField
import Nut.Library.Checked
import Nut.Drivers.Hidtypes

set_option autoImplicit false

namespace Nut

def hibitBits (x : Nat) : Nat :=
  if x = 0 then 0 else hibitBits (x / 2) + 1

def hibit (x : Nat) : Nat :=
  if x > 0xff then hibit (x / 256) + 8 else hibitBits x

def getValueLoop (buf : List UInt8) : Nat -> Nat -> Nat -> BitVec 64 -> Option (BitVec 64)
  | 0, _, _, value => some value
  | count + 1, weight, bit, value =>
    (getBit buf bit).bind fun state =>
      getValueLoop buf count (weight + 1) (bit + 1) (if state then value + (1#64 <<< weight) else value)

-- `magMax` and `magMin`: a limit without its sign bit
def magnitude (limit : Int64) : BitVec 64 :=
  if limit ≥ 0 then limit.toBitVec else (-(limit + 1)).toBitVec

def signbit (pData : HIDData) : BitVec 64 :=
  let magMax := magnitude pData.logMax
  let magMin := magnitude pData.logMin
  1#64 <<< hibit (if magMax > magMin then magMax else magMin).toNat

def adjustValue (pData : HIDData) (value : BitVec 64) : Int64 :=
  let mask := (signbit pData - 1) ||| (if pData.logMin < 0 then signbit pData else 0)
  let value := value &&& mask
  let value := if pData.logMin < 0 ∧ value &&& signbit pData ≠ 0 then value ||| ~~~mask else value
  let value := Int64.ofBitVec value
  -- clamp
  if value < pData.logMin then pData.logMin
  else if value > pData.logMax then pData.logMax
  else value

-- `none` for a read outside the buffer. The first byte of a report is its ID.
def getValue (buf : List UInt8) (pData : HIDData) : Option Int64 :=
  (getValueLoop buf pData.size.toNat 0 (pData.offset.toNat + 8) 0).map (adjustValue pData)

def setValueLoop (value : BitVec 64) : Nat -> Nat -> Nat -> List UInt8 -> Option (List UInt8)
  | 0, _, _, buf => some buf
  | count + 1, weight, bit, buf =>
    (setBit buf bit (value &&& (1#64 <<< weight) != 0)).bind fun buf =>
      setValueLoop value count (weight + 1) (bit + 1) buf

def setValue (pData : HIDData) (buf : List UInt8) (value : Int64) : Option (List UInt8) :=
  setValueLoop value.toBitVec pData.size.toNat 0 (pData.offset.toNat + 8) buf

structure HIDParser where
  reportDesc : List UInt8
  -- a `uint16_t`, far from its end for descriptors of up to `reportDscSize` bytes
  pos : Nat
  item : UInt8
  value : UInt32
  data : HIDData
  reportCount : UInt8
  count : UInt8
  upage : UInt16
  usageTab : List UInt32
  usageSize : Nat
  deriving DecidableEq, Repr

def resetLocalState (parser : HIDParser) : HIDParser :=
  { parser with usageSize := 0, usageTab := List.replicate parser.usageTab.length 0 }

def formatValue32 (value : UInt32) (size : Nat) : Int64 :=
  match size with
  | 1 => value.toUInt8.toInt8.toInt64
  | 2 => value.toUInt16.toInt16.toInt64
  | 4 => value.toInt32.toInt64
  | _ => value.toUInt64.toInt64

def readValueLoop (reportDesc : List UInt8) (pos : Nat) : Nat -> Nat -> UInt32 -> Checked UInt32
  | 0, _, value => .ok value
  | count + 1, i, value => do
    let byte <- readAt reportDesc (pos + i)
    readValueLoop reportDesc pos count (i + 1) (value + (byte.toUInt32 <<< UInt32.ofNat (8 * i)))

def readItem (parser : HIDParser) : Checked (Option HIDParser) := do
  let item <- readAt parser.reportDesc parser.pos
  let pos := parser.pos + 1
  if itemSize item > parser.reportDesc.length - pos then return none
  let value <- readValueLoop parser.reportDesc pos (itemSize item) 0 0
  return some { parser with item, value, pos := pos + itemSize item }

def usageBehind (usageTab : List UInt32) (j : Nat) : Checked UInt32 :=
  if j + 1 < usageTab.length then readAt usageTab (j + 1) else .ok 0

def unstackLoop : Nat -> Nat -> List UInt32 -> Checked (List UInt32)
  | 0, _, usageTab => .ok usageTab
  | count + 1, j, usageTab => do
    let next <- usageBehind usageTab j
    let usageTab <- writeAt usageTab j next
    unstackLoop count (j + 1) usageTab

def unstackUsage (parser : HIDParser) : Checked HIDParser := do
  if parser.usageSize > 0 then
    let usageTab <- unstackLoop parser.usageSize 0 parser.usageTab
    return { parser with usageTab, usageSize := parser.usageSize - 1 }
  else return parser

def pushNode (parser : HIDParser) (node : UInt32) : Checked (Option HIDParser) := do
  let path := parser.data.path
  if path.size ≥ pathSize then return none
  let nodes <- writeAt path.node path.size node
  return some { parser with data := { parser.data with path := { size := path.size + 1, node := nodes } } }

def setPathSize (parser : HIDParser) (size : Nat) : HIDParser :=
  { parser with data := { parser.data with path := { parser.data.path with size } } }

inductive ItemResult where
  | next (parser : HIDParser)
  | over
  | found (parser : HIDParser) (pData : HIDData) (ret : Nat)
  deriving DecidableEq, Repr

def usageItem (parser : HIDParser) : Checked ItemResult := do
  if parser.usageSize ≥ parser.usageTab.length then return .over
  let usage :=
    if (parser.item &&& 0x03) > 2 then parser.value
    else (parser.upage.toUInt32 <<< 16) ||| (parser.value &&& 0xffff)
  let usageTab <- writeAt parser.usageTab parser.usageSize usage
  return .next { parser with usageTab, usageSize := parser.usageSize + 1 }

def collectionItem (parser : HIDParser) : Checked ItemResult := do
  let usage <- readAt parser.usageTab 0
  match <- pushNode parser usage with
  | none => return .over
  | some parser =>
    let parser <- unstackUsage parser
    if parser.value ≥ 0x80 then
      match <- pushNode parser (0x00ff0000 ||| (parser.value &&& 0x7f)) with
      | none => return .over
      | some parser => return .next (resetLocalState parser)
    else return .next (resetLocalState parser)

def endCollectionItem (parser : HIDParser) : Checked ItemResult := do
  if parser.data.path.size = 0 then return .over
  let size := parser.data.path.size - 1
  if size > 0 then
    let node <- readAt parser.data.path.node size
    if node &&& 0xffff0000 = 0x00ff0000 then return .next (resetLocalState (setPathSize parser (size - 1)))
    else return .next (resetLocalState (setPathSize parser size))
  else return .next (resetLocalState (setPathSize parser size))

def endOfField (parser : HIDParser) : HIDParser :=
  if parser.count = 0 then resetLocalState parser else parser

def fieldItem (parser : HIDParser) : Checked ItemResult := do
  let usage <- readAt parser.usageTab 0
  let ret := if usage ≠ 0 then 1 else 0
  let parser := if parser.count = 0 then { parser with count := parser.reportCount } else parser
  match <- pushNode parser usage with
  | none => return .over
  | some parser =>
    let parser <- unstackUsage parser
    let data := { parser.data with type := parser.item &&& 0xfc, dataAttribute := parser.value.toUInt8 }
    let parser := setPathSize { parser with data, count := parser.count - 1 } (data.path.size - 1)
    return .found (endOfField parser) data ret

def globalItem (value : UInt32) (size : Nat) (data : HIDData) : ItemTag -> HIDData
  | .repID => { data with reportID := value.toUInt8 }
  | .repSize => { data with size := value.toUInt8 }
  | .unitExp =>
    let unitExp := value.toUInt8.toInt8
    { data with unitExp := if unitExp > 7 then unitExp ||| (-16) else unitExp }
  | .unit => { data with unit := value.toUInt64.toInt64 }
  | .logMin => { data with logMin := formatValue32 value size }
  | .logMax =>
    let logMax := formatValue32 value size
    -- probably too short for an unsigned number
    if logMax < data.logMin then { data with logMax := value.toUInt64.toInt64, assumedLogMax := true }
    else { data with logMax }
  | .phyMin => { data with phyMin := formatValue32 value size, havePhyMin := true }
  | .phyMax => { data with phyMax := formatValue32 value size, havePhyMax := true }
  | _ => data

def parseItem (parser : HIDParser) : Checked ItemResult :=
  match itemTag parser.item with
  | .upage => .ok (.next { parser with upage := parser.value.toUInt16 })
  | .usage => usageItem parser
  | .collection => collectionItem parser
  | .endCollection => endCollectionItem parser
  | .field => fieldItem parser
  | .repCount => .ok (.next { parser with reportCount := parser.value.toUInt8 })
  | .long => .ok (.next { parser with pos := parser.pos + (parser.value &&& 0xff).toNat })
  | tag => .ok (.next { parser with data := globalItem parser.value (itemSize parser.item) parser.data tag })

def currentItem (parser : HIDParser) : Checked (Option HIDParser) :=
  if parser.count = 0 then readItem parser else .ok (some parser)

def nextField : Nat -> HIDParser -> Checked (Option (HIDParser × HIDData × Nat))
  | 0, _ => .error .unfinished
  | turns + 1, parser => do
    if parser.pos < parser.reportDesc.length then
      match <- currentItem parser with
      | none => return none
      | some parser =>
        match <- parseItem parser with
        | .next parser => nextField turns parser
        | .over => return none
        | .found parser pData ret => return some (parser, pData, ret)
    else return none

structure OffsetRow where
  id : UInt8
  type : UInt8
  offset : UInt8
  deriving DecidableEq, Repr

def getReportOffset (reportID reportType : UInt8) : List OffsetRow -> Option (List OffsetRow × Nat)
  | [] => none
  | row :: rows =>
    let row := if row.id = 0 then { id := reportID, type := reportType, offset := 0 } else row
    if row.id ≠ reportID ∨ row.type ≠ reportType then
      (getReportOffset reportID reportType rows).map fun (rows, index) => (row :: rows, index + 1)
    else some (row :: rows, 0)

def updateReportOffset (offsetTab : List OffsetRow) (reportID reportType : UInt8) (change : UInt8 -> UInt8) :
    Checked (UInt8 × List OffsetRow) :=
  match getReportOffset reportID reportType offsetTab with
  | none => .error .nullPointer
  | some (offsetTab, index) => do
    let row <- readAt offsetTab index
    let offsetTab <- writeAt offsetTab index { row with offset := change row.offset }
    return (row.offset, offsetTab)

def placeField (offsetTab : List OffsetRow) (pData : HIDData) : Checked (HIDData × List OffsetRow) := do
  let (offset, offsetTab) <- updateReportOffset offsetTab pData.reportID pData.type id
  let (_, offsetTab) <- updateReportOffset offsetTab pData.reportID pData.type (· + pData.size)
  return ({ pData with offset }, offsetTab)

def hidParse (parser : HIDParser) (offsetTab : List OffsetRow) :
    Checked (Option (HIDParser × List OffsetRow × HIDData × Nat)) := do
  match <- nextField (parser.reportDesc.length + 1) parser with
  | none => return none
  | some (parser, pData, ret) =>
    let (pData, offsetTab) <- placeField offsetTab pData
    return some (parser, offsetTab, pData, ret)

def raiseLength (replen : List Nat) (id : UInt8) (length : Nat) : Checked (List Nat) := do
  let old <- readAt replen id.toNat
  if length > old then writeAt replen id.toNat length else .ok replen

def storeField (desc : HIDDesc) (pData : HIDData) (ret : Nat) : Checked HIDDesc := do
  let item <- writeAt desc.item desc.nitems pData
  let replen <- raiseLength desc.replen pData.reportID ((pData.offset.toNat + pData.size.toNat + 7) / 8)
  return { nitems := desc.nitems + ret, item, replen }

def parseLoop : Nat -> HIDParser -> List OffsetRow -> HIDDesc -> List HIDData × Checked HIDDesc
  | 0, _, _, _ => ([], .error .unfinished)
  | turns + 1, parser, offsetTab, desc =>
    if desc.nitems < maxReport then
      match hidParse parser offsetTab with
      | .error fault => ([], .error fault)
      | .ok none => ([], .ok desc)
      | .ok (some (parser, offsetTab, pData, ret)) =>
        match storeField desc pData ret with
        | .error fault => ([pData], .error fault)
        | .ok desc =>
          let (fields, result) := parseLoop turns parser offsetTab desc
          (pData :: fields, result)
    else ([], .ok desc)

def HIDParser.start (reportDesc : List UInt8) : HIDParser :=
  { reportDesc, pos := 0, item := 0, value := 0, data := .zero, reportCount := 0, count := 0, upage := 0,
    usageTab := List.replicate (max reportDesc.length usageTabSize) 0, usageSize := 0 }

def HIDDesc.empty : HIDDesc :=
  { nitems := 0, item := List.replicate maxReport .zero, replen := List.replicate 256 0 }

def OffsetRow.free : OffsetRow :=
  { id := 0, type := 0, offset := 0 }

-- Every byte of the descriptor declares 256 fields at most.
def parseTurns (reportDesc : List UInt8) : Nat :=
  256 * reportDesc.length + 1

def parseFields (reportDesc : List UInt8) : List HIDData × Checked HIDDesc :=
  parseLoop (parseTurns reportDesc) (.start reportDesc) (List.replicate maxReport .free) .empty

def parseReportDesc (reportDesc : List UInt8) : Checked (Option HIDDesc) :=
  (parseFields reportDesc).2.map fun desc =>
    if desc.nitems = 0 then none else some { desc with item := desc.item.take desc.nitems }

end Nut
