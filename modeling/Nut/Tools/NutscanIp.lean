import Nut.Common.CString
import Nut.Library.BigEndian

set_option autoImplicit false

namespace Nut.Nutscan

-- `getaddrinfo` for a family and `getnameinfo` with `NI_NUMERICHOST`.
structure Resolver where
  lookup4 : CString -> Option (Address 4)
  lookup6 : CString -> Option (Address 16)
  name4 : Address 4 -> CString
  name6 : Address 16 -> CString

def ntohl (address : Address 4) : UInt32 :=
  UInt32.ofNat address.value

def htonl (number : UInt32) : Address 4 :=
  .ofNat 4 number.toNat

def incrementBefore : Nat -> List UInt8 -> List UInt8
  | 0, bytes => bytes
  | i + 1, bytes =>
    let byte := bytes[i]?.getD 0 + 1
    if byte ≠ 0 then bytes.set i byte else incrementBefore i (bytes.set i byte)

theorem incrementBefore_length (i : Nat) (bytes : List UInt8) : (incrementBefore i bytes).length = bytes.length := by
  induction i generalizing bytes with
  | zero => rfl
  | succ i ih =>
    simp only [incrementBefore]
    split <;> simp [ih]

def incrementIPv6 (address : Address 16) : Address 16 :=
  ⟨incrementBefore 16 address.bytes, (incrementBefore_length _ _).trans address.length⟩

inductive NetworkType where
  | ipv4
  | ipv6
  deriving DecidableEq

structure IpIter where
  type : NetworkType
  start : Address 4
  stop : Address 4
  start6 : Address 16
  stop6 : Address 16

def IpIter.zero : IpIter :=
  { type := .ipv4, start := .ofNat 4 0, stop := .ofNat 4 0, start6 := .ofNat 16 0, stop6 := .ofNat 16 0 }

structure IpRange where
  startIp : CString
  endIp : CString

variable (r : Resolver)

def bracketed (host : CString) : CString :=
  91 :: host ++ [93]

def ipIterInit (ip : IpIter) (startIP stopIP : CString) : Option CString × IpIter :=
  let ip := { ip with type := .ipv4 }
  match r.lookup4 startIP with
  | some start =>
    let ip := { ip with start }
    match r.lookup4 stopIP with
    | none => (none, ip)
    | some stop =>
      let ip := { ip with stop }
      let ip := if ntohl ip.start > ntohl ip.stop then { ip with start := ip.stop, stop := ip.start } else ip
      (some (r.name4 ip.start), ip)
  | none =>
    let ip := { ip with type := .ipv6 }
    match r.lookup6 startIP with
    | none => (none, ip)
    | some start6 =>
      let ip := { ip with start6 }
      match r.lookup6 stopIP with
      | none => (none, ip)
      | some stop6 =>
        let ip := { ip with stop6 }
        let ip :=
          if firstGreater ip.start6.bytes ip.stop6.bytes then { ip with start6 := ip.stop6, stop6 := ip.start6 } else ip
        (some (bracketed (r.name6 ip.start6)), ip)

def ipIterInc (ip : IpIter) : Option CString × IpIter :=
  match ip.type with
  | .ipv4 =>
    if ip.start.bytes = ip.stop.bytes then (none, ip)
    else
      let ip := { ip with start := htonl (ntohl ip.start + 1) }
      (some (r.name4 ip.start), ip)
  | .ipv6 =>
    if ip.start6.bytes = ip.stop6.bytes then (none, ip)
    else
      let ip := { ip with start6 := incrementIPv6 ip.start6 }
      (some (bracketed (r.name6 ip.start6)), ip)

def strcmpLe : CString -> CString -> Bool
  | [], _ => true
  | _ :: _, [] => false
  | a :: as, b :: bs => if a = b then strcmpLe as bs else a < b

def addIpRange (irl : List IpRange) (startIp endIp : Option CString) : List IpRange :=
  match startIp, endIp with
  | none, none => irl
  | some ip, none => irl ++ [{ startIp := ip, endIp := ip }]
  | none, some ip => irl ++ [{ startIp := ip, endIp := ip }]
  | some startIp, some endIp =>
    irl ++ [if strcmpLe startIp endIp then { startIp, endIp } else { startIp := endIp, endIp := startIp }]

-- `ranges` begins with the range that is being gone through.
structure RangesIter where
  irl : List IpRange
  ranges : List IpRange
  curr : IpIter

def rangesIterInit (iter : RangesIter) (irl : List IpRange) : Option CString × RangesIter :=
  match irl with
  | [] => (none, iter)
  | range :: rest =>
    let first := ipIterInit r .zero range.startIp range.endIp
    (first.1, { irl, ranges := range :: rest, curr := first.2 })

def rangesIterInc (iter : RangesIter) : Option CString × RangesIter :=
  match iter.irl, iter.ranges with
  | [], _ => (none, iter)
  | _ :: _, [] => (none, iter)
  | _ :: _, _ :: later =>
    let next := ipIterInc r iter.curr
    match next.1 with
    | some ip => (some ip, { iter with curr := next.2 })
    | none =>
      match later with
      | [] => (none, { iter with ranges := [], curr := next.2 })
      | range :: rest =>
        let first := ipIterInit r .zero range.startIp range.endIp
        (first.1, { iter with ranges := range :: rest, curr := first.2 })

inductive CidrResult where
  | range (startIp stopIp : CString)
  -- 0 is returned
  | failed
  -- `fatalx`
  | badNetmask
  -- `strdup (NULL)`
  | nullPointer

def unbracketed (ip : CString) : CString :=
  if ip.head? = some 91 ∧ ip.getLast? = some 93 then ip.tail.dropLast else ip

def maskBytes (bytes : List UInt8) (maskByte : Nat) (change : UInt8 -> UInt8) (fill : UInt8) : List UInt8 :=
  (bytes.take (maskByte + 1) ++ List.replicate (15 - maskByte) fill).modify maskByte change

theorem maskBytes_length {bytes : List UInt8} {maskByte : Nat} (change : UInt8 -> UInt8) (fill : UInt8)
    (length : bytes.length = 16) (inside : maskByte < 16) : (maskBytes bytes maskByte change fill).length = 16 := by
  simp [maskBytes, length]
  omega

def cidrRange4 (start : Address 4) (maskVal : UInt32) : Address 4 × Address 4 :=
  let maskBit : UInt32 := ((0x80000000 : UInt32) >>> (maskVal - 1)) - 1
  (htonl (ntohl start &&& ~~~maskBit), htonl (ntohl start ||| maskBit))

def cidrRange6 (start : Address 16) (maskVal : Nat) : Address 16 × Address 16 :=
  if inside : maskVal / 8 < 16 then
    let maskBit : UInt8 := UInt8.ofNat ((0x100 >>> (maskVal % 8)) - 1)
    (⟨maskBytes start.bytes (maskVal / 8) (· &&& ~~~maskBit) 0x00, maskBytes_length _ _ start.length inside⟩,
      ⟨maskBytes start.bytes (maskVal / 8) (· ||| maskBit) 0xff, maskBytes_length _ _ start.length inside⟩)
  else (start, start)

def cidrToIp (cidr : CString) : CidrResult :=
  match strtok 47 cidr with
  | [] => .nullPointer
  | [_] => .failed
  | firstIp :: mask :: _ =>
    let firstIp := unbracketed firstIp
    let maskVal := (atoi mask).toInt
    if maskVal < 1 then .badNetmask
    else
      match r.lookup4 firstIp with
      | some start =>
        let range := cidrRange4 start (UInt32.ofNat maskVal.toNat)
        .range (r.name4 range.1) (r.name4 range.2)
      | none =>
        match r.lookup6 firstIp with
        | none => .failed
        | some start6 =>
          let range := cidrRange6 start6 maskVal.toNat
          .range (r.name6 range.1) (r.name6 range.2)

end Nut.Nutscan
