import Nut.Common.Decimal
import Nut.Common.TokenList
import Nut.Library.Cursor
import Nut.Tools.NutscanIp

set_option autoImplicit false

namespace Nut.Nutscan

variable {r : Resolver}

section Increments

theorem ntohl_toNat (address : Address 4) : (ntohl address).toNat = address.value := by
  have small := address.value_lt
  rw [ntohl, UInt32.toNat_ofNat']
  exact Nat.mod_eq_of_lt small

theorem htonl_value (number : UInt32) : (htonl number).value = number.toNat := Address.value_ofNat number.toNat_lt

theorem htonl_next {address : Address 4} {value : Nat} (before : address.value = value) (small : value + 1 < 256 ^ 4) :
    htonl (ntohl address + 1) = .ofNat 4 (value + 1) := by
  rw [<- Address.value_inj, htonl_value, Address.value_ofNat small, UInt32.toNat_add, ntohl_toNat, before]
  exact Nat.mod_eq_of_lt small

theorem incrementBefore_value (front back : List UInt8) :
    ∃ raised, incrementBefore front.length (front ++ back) = raised ++ back ∧ raised.length = front.length ∧
      beValue raised = (beValue front + 1) % 256 ^ front.length := by
  induction front using List.reverseRecOn generalizing back with
  | nil => exact ⟨[], rfl, rfl, rfl⟩
  | append_singleton front byte ih =>
    have low := beValue_lt front
    have here : (front ++ [byte] ++ back)[front.length]? = some byte := by simp
    have changed (other : UInt8) : (front ++ [byte] ++ back).set front.length other = front ++ ([other] ++ back) := by simp
    rw [List.length_append, List.length_singleton, incrementBefore, here, Option.getD_some, changed, Nat.pow_succ,
      beValue_append_single]
    have next : (byte + 1).toNat = (byte.toNat + 1) % 256 := UInt8.toNat_add byte 1
    have small := byte.toNat_lt
    by_cases carry : byte + 1 = 0
    · obtain ⟨raised, result, length, value⟩ := ih ([byte + 1] ++ back)
      have full : byte.toNat = 255 := by
        rw [carry, UInt8.toNat_zero] at next
        omega
      refine ⟨raised ++ [byte + 1], ?_, by simp [length], ?_⟩
      · rw [if_neg (not_not.mpr carry), result, List.append_assoc]
      · have sum : beValue front * 256 + 255 + 1 = (beValue front + 1) * 256 := by omega
        rw [beValue_append_single, value, carry, full, sum, Nat.mul_mod_mul_right, UInt8.toNat_zero, Nat.add_zero]
    · refine ⟨front ++ [byte + 1], by rw [if_pos carry, List.append_assoc], by simp, ?_⟩
      have room : byte.toNat + 1 < 256 := by
        by_contra full
        apply carry
        rw [<- UInt8.toNat_inj, next, UInt8.toNat_zero]
        omega
      rw [beValue_append_single, next, Nat.mod_eq_of_lt room, Nat.mod_eq_of_lt (by omega), Nat.add_assoc]

theorem incrementIPv6_next {address : Address 16} {value : Nat} (before : address.value = value)
    (small : value + 1 < 256 ^ 16) : incrementIPv6 address = .ofNat 16 (value + 1) := by
  obtain ⟨raised, result, length, sum⟩ := incrementBefore_value address.bytes []
  rw [address.length, List.append_nil, List.append_nil] at result
  rw [address.length, <- result, show beValue address.bytes = value from before, Nat.mod_eq_of_lt small] at sum
  rw [<- Address.value_inj, Address.value_ofNat small]
  exact sum

end Increments

section Spans

inductive Span where
  | v4 (lowest highest : Nat)
  | v6 (lowest highest : Nat)
  | nothing

def names4 (r : Resolver) (lowest count : Nat) : List CString :=
  (List.range' lowest count).map fun value => r.name4 (.ofNat 4 value)

def names6 (r : Resolver) (lowest count : Nat) : List CString :=
  (List.range' lowest count).map fun value => bracketed (r.name6 (.ofNat 16 value))

def Span.texts (r : Resolver) : Span -> List CString
  | .v4 lowest highest => names4 r lowest (highest + 1 - lowest)
  | .v6 lowest highest => names6 r lowest (highest + 1 - lowest)
  | .nothing => []

theorem inc4_gives {ip : IpIter} {lowest count : Nat} (type : ip.type = .ipv4) (start : ip.start = .ofNat 4 lowest)
    (stop : ip.stop.value = lowest + count) :
    Gives (ipIterInc r) (some (r.name4 ip.start), ip) (names4 r lowest (count + 1)) := by
  have small := ip.stop.value_lt
  have value : ip.start.value = lowest := by rw [start, Address.value_ofNat (by omega)]
  induction count generalizing ip lowest with
  | zero =>
    have same : ip.start = ip.stop := Address.value_injective (by omega)
    simp [names4, Gives, ipIterInc, type, same, <- start]
  | succ count ih =>
    have apart : ip.start.bytes ≠ ip.stop.bytes := by
      intro same
      have values : ip.start.value = ip.stop.value := congrArg beValue same
      omega
    have next : htonl (ntohl ip.start + 1) = .ofNat 4 (lowest + 1) := htonl_next value (by omega)
    have later := @ih { ip with start := .ofNat 4 (lowest + 1) } (lowest + 1) type rfl (by dsimp only; omega) small
      (Address.value_ofNat (by omega))
    refine ⟨by rw [start], ?_⟩
    rw [names4] at later
    simpa [ipIterInc, type, apart, next] using later

theorem inc6_gives {ip : IpIter} {lowest count : Nat} (type : ip.type = .ipv6) (start : ip.start6 = .ofNat 16 lowest)
    (stop : ip.stop6.value = lowest + count) :
    Gives (ipIterInc r) (some (bracketed (r.name6 ip.start6)), ip) (names6 r lowest (count + 1)) := by
  have small := ip.stop6.value_lt
  have value : ip.start6.value = lowest := by rw [start, Address.value_ofNat (by omega)]
  induction count generalizing ip lowest with
  | zero =>
    have same : ip.start6 = ip.stop6 := Address.value_injective (by omega)
    simp [names6, Gives, ipIterInc, type, same, <- start]
  | succ count ih =>
    have apart : ip.start6.bytes ≠ ip.stop6.bytes := by
      intro same
      have values : ip.start6.value = ip.stop6.value := congrArg beValue same
      omega
    have next : incrementIPv6 ip.start6 = .ofNat 16 (lowest + 1) := incrementIPv6_next value (by omega)
    have later := @ih { ip with start6 := .ofNat 16 (lowest + 1) } (lowest + 1) type rfl (by dsimp only; omega) small
      (Address.value_ofNat (by omega))
    refine ⟨by rw [start], ?_⟩
    rw [names6] at later
    simpa [ipIterInc, type, apart, next] using later

end Spans

section Prefixes

def SharePrefix (bits value lowest highest : Nat) : Prop :=
  ∀ other, lowest ≤ other ∧ other ≤ highest ↔ other / 2 ^ bits = value / 2 ^ bits

variable {bits value lowest highest : Nat}

theorem SharePrefix.ends (share : SharePrefix bits value lowest highest) :
    lowest = value / 2 ^ bits * 2 ^ bits ∧ highest = value / 2 ^ bits * 2 ^ bits + (2 ^ bits - 1) := by
  have some_ := Nat.two_pow_pos bits
  have inside (other : Nat) : other / 2 ^ bits = value / 2 ^ bits ↔
      value / 2 ^ bits * 2 ^ bits ≤ other ∧ other < value / 2 ^ bits * 2 ^ bits + 2 ^ bits := by
    rw [Nat.div_eq_iff some_]
    omega
  have spans (other : Nat) := (share other).trans (inside other)
  have first := (spans (value / 2 ^ bits * 2 ^ bits)).mpr ⟨Nat.le_refl _, by omega⟩
  have last := (spans (value / 2 ^ bits * 2 ^ bits + (2 ^ bits - 1))).mpr ⟨by omega, by omega⟩
  have lowestInside := (spans lowest).mp ⟨Nat.le_refl _, by omega⟩
  have highestInside := (spans highest).mp ⟨by omega, Nat.le_refl _⟩
  omega

theorem cidrRange4_value (start : Address 4) {width : Nat} (low : 1 ≤ width) (high : width ≤ 32) :
    (cidrRange4 start (UInt32.ofNat width)).1.value = start.value / 2 ^ (32 - width) * 2 ^ (32 - width) ∧
      (cidrRange4 start (UInt32.ofNat width)).2.value =
        start.value / 2 ^ (32 - width) * 2 ^ (32 - width) + (2 ^ (32 - width) - 1) := by
  have masks : ∀ width ≤ 32, 1 ≤ width ->
      (((0x80000000 : UInt32) >>> (UInt32.ofNat width - 1)) - 1).toNat = 2 ^ (32 - width) - 1 := by decide
  have mask := masks width high low
  have small : start.value < 2 ^ 32 := start.value_lt
  constructor
  · rw [cidrRange4, htonl_value, UInt32.toNat_and, UInt32.toNat_not, mask, ntohl_toNat]
    exact and_highBits small (Nat.sub_le _ _)
  · rw [cidrRange4, htonl_value, UInt32.toNat_or, mask, ntohl_toNat]
    exact or_lowBits _ _

theorem maskBytes_value {front back : List UInt8} {byte : UInt8} (length : front.length + back.length = 15)
    (change : UInt8 -> UInt8) (fill : UInt8) : beValue (maskBytes (front ++ byte :: back) front.length change fill) =
      (beValue front * 256 + (change byte).toNat) * 256 ^ back.length + beValue (List.replicate back.length fill) := by
  have behind : 15 - front.length = back.length := by omega
  have masked : maskBytes (front ++ byte :: back) front.length change fill =
      front ++ [change byte] ++ List.replicate back.length fill := by
    have kept : (front ++ byte :: back).take (front.length + 1) = front ++ [byte] := by
      rw [List.append_cons]
      exact List.take_left' (List.length_append ..)
    rw [maskBytes, kept, behind, List.append_assoc, List.modify_eq_take_drop, List.take_left, List.drop_left,
      List.append_assoc]
    rfl
  rw [masked, beValue_append, beValue_append_single, List.length_replicate]

theorem cidrRange6_value (start : Address 16) {width : Nat} (high : width ≤ 128) :
    (cidrRange6 start width).1.value = start.value / 2 ^ (128 - width) * 2 ^ (128 - width) ∧
      (cidrRange6 start width).2.value =
        start.value / 2 ^ (128 - width) * 2 ^ (128 - width) + (2 ^ (128 - width) - 1) := by
  by_cases inside : width / 8 < 16
  · have masks : ∀ bit < 8, (UInt8.ofNat ((0x100 >>> bit) - 1)).toNat = 2 ^ (8 - bit) - 1 := by decide
    have mask := masks (width % 8) (Nat.mod_lt _ (by decide))
    obtain ⟨bytes, length⟩ := start
    obtain ⟨front, byte, back, rfl, frontLength⟩ : ∃ front byte back, bytes = front ++ byte :: back ∧
        front.length = width / 8 := by
      exact ⟨bytes.take (width / 8), bytes[width / 8], bytes.drop (width / 8 + 1), by simp, by simp; omega⟩
    have lengths : front.length + back.length = 15 := by
      rw [List.length_append, List.length_cons] at length
      omega
    have shift : 128 - width = 8 * back.length + (8 - width % 8) := by omega
    have masked (change : UInt8 -> UInt8) (fill : UInt8) :
        beValue (maskBytes (front ++ byte :: back) (width / 8) change fill) =
          (beValue front * 256 + (change byte).toNat) * 256 ^ back.length + beValue (List.replicate back.length fill) := by
      rw [<- frontLength]
      exact maskBytes_value lengths change fill
    have lowest : beValue (front ++ byte :: back) / 2 ^ (128 - width) * 2 ^ (128 - width) =
        (beValue front * 256 + byte.toNat / 2 ^ (8 - width % 8) * 2 ^ (8 - width % 8)) * 256 ^ back.length := by
      rw [List.append_cons, beValue_append, beValue_append_single, shift]
      exact high_bytes (beValue_lt back) (Nat.sub_le _ _)
    rw [show Address.value ⟨front ++ byte :: back, length⟩ = beValue (front ++ byte :: back) from rfl, lowest, cidrRange6,
      dif_pos inside]
    constructor
    · have kept : byte.toNat &&& (UInt8.size - 1 - (2 ^ (8 - width % 8) - 1)) = _ :=
        and_highBits byte.toNat_lt (Nat.sub_le _ _)
      rw [Address.value, masked, beValue_replicate_zero, UInt8.toNat_and, UInt8.toNat_not, mask, Nat.add_zero, kept]
    · have some_ : 0 < 256 ^ back.length := Nat.pow_pos (by decide)
      have more : 1 ≤ 2 ^ (8 - width % 8) := Nat.two_pow_pos _
      have scaled := Nat.mul_le_mul_left (256 ^ back.length) more
      rw [Address.value, masked, beValue_replicate_max, UInt8.toNat_or, mask, or_lowBits, shift, Nat.pow_add, Nat.pow_mul,
        <- Nat.add_assoc, Nat.add_mul, Nat.mul_comm (_ - 1), Nat.mul_sub, show (2 : Nat) ^ 8 = 256 from rfl]
      omega
  · have whole : 128 - width = 0 := by omega
    rw [cidrRange6, dif_neg inside, whole]
    simp

end Prefixes

section Entries

inductive Entry where
  | range (startIp endIp : CString)
  | cidr (text : CString)

def addEntry (r : Resolver) (irl : List IpRange) : Entry -> List IpRange
  | .range startIp endIp => addIpRange irl (some startIp) (some endIp)
  | .cidr text =>
    match cidrToIp r text with
    | .range startIp stopIp => addIpRange irl (some startIp) (some stopIp)
    | _ => addIpRange irl none none

inductive Means (r : Resolver) : Entry -> Span -> Prop where
  | range4 {startIp endIp : CString} {first last : Address 4} (start : r.lookup4 startIp = some first)
      (stop : r.lookup4 endIp = some last) :
      Means r (.range startIp endIp) (.v4 (min first.value last.value) (max first.value last.value))
  | range6 {startIp endIp : CString} {first last : Address 16} (start4 : r.lookup4 startIp = none)
      (stop4 : r.lookup4 endIp = none) (start : r.lookup6 startIp = some first) (stop : r.lookup6 endIp = some last) :
      Means r (.range startIp endIp) (.v6 (min first.value last.value) (max first.value last.value))
  | nothing {startIp endIp : CString} (not4 : r.lookup4 startIp = none ∨ r.lookup4 endIp = none)
      (not6 : r.lookup6 startIp = none ∨ r.lookup6 endIp = none) : Means r (.range startIp endIp) .nothing
  | cidr4 {ip mask : CString} {address : Address 4} {lowest highest : Nat} (text : ip ≠ [] ∧ 47 ∉ ip)
      (digits : mask ≠ [] ∧ mask.all isdigit) (low : 1 ≤ digitsValue mask) (high : digitsValue mask ≤ 32)
      (start : r.lookup4 (unbracketed ip) = some address)
      (share : SharePrefix (32 - digitsValue mask) address.value lowest highest)
      (reads : ∀ value ∈ [lowest, highest], r.lookup4 (r.name4 (.ofNat 4 value)) = some (.ofNat 4 value)) :
      Means r (.cidr (ip ++ 47 :: mask)) (.v4 lowest highest)
  | cidr6 {ip mask : CString} {address : Address 16} {lowest highest : Nat} (text : ip ≠ [] ∧ 47 ∉ ip)
      (digits : mask ≠ [] ∧ mask.all isdigit) (low : 1 ≤ digitsValue mask) (high : digitsValue mask ≤ 128)
      (start4 : r.lookup4 (unbracketed ip) = none) (start : r.lookup6 (unbracketed ip) = some address)
      (share : SharePrefix (128 - digitsValue mask) address.value lowest highest)
      (not4 : ∀ value ∈ [lowest, highest], r.lookup4 (r.name6 (.ofNat 16 value)) = none)
      (reads : ∀ value ∈ [lowest, highest], r.lookup6 (r.name6 (.ofNat 16 value)) = some (.ofNat 16 value)) :
      Means r (.cidr (ip ++ 47 :: mask)) (.v6 lowest highest)

variable {startIp endIp : CString}

theorem init_v4 {first last : Address 4} (start : r.lookup4 startIp = some first) (stop : r.lookup4 endIp = some last) :
    Gives (ipIterInc r) (ipIterInit r .zero startIp endIp)
      ((Span.v4 (min first.value last.value) (max first.value last.value)).texts r) := by
  have order : ntohl first > ntohl last ↔ last.value < first.value := by
    rw [gt_iff_lt, UInt32.lt_iff_toNat_lt, ntohl_toNat, ntohl_toNat]
  simp only [ipIterInit, start, stop, order, Span.texts]
  by_cases swapped : last.value < first.value
  · rw [if_pos swapped, Nat.min_eq_right swapped.le, Nat.max_eq_left swapped.le, Nat.sub_add_comm swapped.le]
    exact inc4_gives rfl (Address.ofNat_value last).symm (by dsimp only; omega)
  · have ordered := Nat.not_lt.mp swapped
    rw [if_neg swapped, Nat.min_eq_left ordered, Nat.max_eq_right ordered, Nat.sub_add_comm ordered]
    exact inc4_gives rfl (Address.ofNat_value first).symm (by dsimp only; omega)

theorem init_v6 {first last : Address 16} (not4 : r.lookup4 startIp = none) (start : r.lookup6 startIp = some first)
    (stop : r.lookup6 endIp = some last) : Gives (ipIterInc r) (ipIterInit r .zero startIp endIp)
      ((Span.v6 (min first.value last.value) (max first.value last.value)).texts r) := by
  have order : firstGreater first.bytes last.bytes = true ↔ last.value < first.value :=
    firstGreater_iff (first.length.trans last.length.symm)
  simp only [ipIterInit, not4, start, stop, order, Span.texts]
  by_cases swapped : last.value < first.value
  · rw [if_pos swapped, Nat.min_eq_right swapped.le, Nat.max_eq_left swapped.le, Nat.sub_add_comm swapped.le]
    exact inc6_gives rfl (Address.ofNat_value last).symm (by dsimp only; omega)
  · have ordered := Nat.not_lt.mp swapped
    rw [if_neg swapped, Nat.min_eq_left ordered, Nat.max_eq_right ordered, Nat.sub_add_comm ordered]
    exact inc6_gives rfl (Address.ofNat_value first).symm (by dsimp only; omega)

theorem init_nothing (not4 : r.lookup4 startIp = none ∨ r.lookup4 endIp = none)
    (not6 : r.lookup6 startIp = none ∨ r.lookup6 endIp = none) :
    Gives (ipIterInc r) (ipIterInit r .zero startIp endIp) (Span.nothing.texts r) := by
  change (ipIterInit r .zero startIp endIp).1 = none
  unfold ipIterInit
  cases start : r.lookup4 startIp with
  | some first =>
    have stop : r.lookup4 endIp = none := not4.resolve_left (by simp [start])
    simp [stop]
  | none =>
    cases start6 : r.lookup6 startIp with
    | none => rfl
    | some first =>
      have stop : r.lookup6 endIp = none := not6.resolve_left (by simp [start6])
      simp [stop]

theorem Means.either_order {span : Span} (means : Means r (.range startIp endIp) span) :
    Gives (ipIterInc r) (ipIterInit r .zero startIp endIp) (span.texts r) ∧
      Gives (ipIterInc r) (ipIterInit r .zero endIp startIp) (span.texts r) := by
  cases means with
  | range4 start stop =>
    have other := init_v4 stop start
    rw [Nat.min_comm, Nat.max_comm] at other
    exact ⟨init_v4 start stop, other⟩
  | range6 start4 stop4 start stop =>
    have other := init_v6 stop4 stop start
    rw [Nat.min_comm, Nat.max_comm] at other
    exact ⟨init_v6 start4 start stop, other⟩
  | nothing not4 not6 => exact ⟨init_nothing not4 not6, init_nothing not4.symm not6.symm⟩

theorem addIpRange_gives {span : Span} (means : Means r (.range startIp endIp) span) (irl : List IpRange) :
    ∃ range, addIpRange irl (some startIp) (some endIp) = irl ++ [range] ∧
      Gives (ipIterInc r) (ipIterInit r .zero range.startIp range.endIp) (span.texts r) := by
  obtain ⟨given, swapped⟩ := means.either_order
  refine ⟨_, rfl, ?_⟩
  split
  · exact given
  · exact swapped

theorem atoi_digits {mask : CString} (digits : mask ≠ [] ∧ mask.all isdigit) (high : digitsValue mask ≤ 128) :
    (atoi mask).toInt = digitsValue mask := by
  obtain ⟨some_, all⟩ := digits
  cases mask with
  | nil => exact absurd rfl some_
  | cons b rest =>
    have digit : isdigit b = true := List.all_eq_true.mp all b List.mem_cons_self
    have clamp : max longMin (min longMax (digitsValue (b :: rest) : Int)) = digitsValue (b :: rest) := by
      simp only [longMin, longMax]
      omega
    rw [atoi, strtol_digit digit, clamp, Int64.toInt32_ofInt, Int32.toInt_ofInt]
    apply Int.bmod_eq_of_le <;> simp only [Int32.size] <;> omega

theorem strtok_cidr {ip mask : CString} (text : ip ≠ [] ∧ 47 ∉ ip) (digits : mask ≠ [] ∧ mask.all isdigit) :
    strtok 47 (ip ++ 47 :: mask) = [ip, mask] := by
  have apart : 47 ∉ mask := fun member => absurd (List.all_eq_true.mp digits.2 47 member) (by decide)
  have tokens : ∀ token ∈ [ip, mask], token ≠ [] ∧ (47 : UInt8) ∉ token := by
    simpa using ⟨text, digits.1, apart⟩
  simpa using strtok_intercalate tokens

theorem named4 {lowest highest : Nat} (order : lowest ≤ highest) (small : highest < 256 ^ 4)
    (reads : ∀ value ∈ [lowest, highest], r.lookup4 (r.name4 (.ofNat 4 value)) = some (.ofNat 4 value)) :
    Means r (.range (r.name4 (.ofNat 4 lowest)) (r.name4 (.ofNat 4 highest))) (.v4 lowest highest) := by
  have means := Means.range4 (reads lowest (by simp)) (reads highest (by simp))
  rwa [Address.value_ofNat (Nat.lt_of_le_of_lt order small), Address.value_ofNat small, Nat.min_eq_left order,
    Nat.max_eq_right order] at means

theorem named6 {lowest highest : Nat} (order : lowest ≤ highest) (small : highest < 256 ^ 16)
    (not4 : ∀ value ∈ [lowest, highest], r.lookup4 (r.name6 (.ofNat 16 value)) = none)
    (reads : ∀ value ∈ [lowest, highest], r.lookup6 (r.name6 (.ofNat 16 value)) = some (.ofNat 16 value)) :
    Means r (.range (r.name6 (.ofNat 16 lowest)) (r.name6 (.ofNat 16 highest))) (.v6 lowest highest) := by
  have means := Means.range6 (not4 lowest (by simp)) (not4 highest (by simp)) (reads lowest (by simp))
    (reads highest (by simp))
  rwa [Address.value_ofNat (Nat.lt_of_le_of_lt order small), Address.value_ofNat small, Nat.min_eq_left order,
    Nat.max_eq_right order] at means

theorem addEntry_gives {entry : Entry} {span : Span} (means : Means r entry span) (irl : List IpRange) :
    ∃ range, addEntry r irl entry = irl ++ [range] ∧
      Gives (ipIterInc r) (ipIterInit r .zero range.startIp range.endIp) (span.texts r) := by
  cases entry with
  | range startIp endIp => exact addIpRange_gives means irl
  | cidr text =>
    cases means with
    | @cidr4 ip mask address lowest highest text digits low high start share reads =>
      obtain ⟨first, last⟩ := share.ends
      obtain ⟨lower, upper⟩ := cidrRange4_value address low high
      rw [<- first] at lower last upper
      rw [<- last] at upper
      have small := (cidrRange4 address (UInt32.ofNat (digitsValue mask))).2.value_lt
      rw [upper] at small
      have range : cidrToIp r (ip ++ 47 :: mask) = .range (r.name4 (.ofNat 4 lowest)) (r.name4 (.ofNat 4 highest)) := by
        have positive : ¬ (digitsValue mask : Int) < 1 := by omega
        simp only [cidrToIp, strtok_cidr text digits, atoi_digits digits (by omega), positive, if_false, start,
          Int.toNat_natCast]
        rw [<- lower, <- upper, Address.ofNat_value, Address.ofNat_value]
      rw [addEntry, range]
      exact addIpRange_gives (named4 (by omega) small reads) irl
    | @cidr6 ip mask address lowest highest text digits low high start4 start share not4 reads =>
      obtain ⟨first, last⟩ := share.ends
      obtain ⟨lower, upper⟩ := cidrRange6_value address high
      rw [<- first] at lower last upper
      rw [<- last] at upper
      have small := (cidrRange6 address (digitsValue mask)).2.value_lt
      rw [upper] at small
      have range : cidrToIp r (ip ++ 47 :: mask) = .range (r.name6 (.ofNat 16 lowest)) (r.name6 (.ofNat 16 highest)) := by
        have positive : ¬ (digitsValue mask : Int) < 1 := by omega
        simp only [cidrToIp, strtok_cidr text digits, atoi_digits digits high, positive, if_false, start4, start,
          Int.toNat_natCast]
        rw [<- lower, <- upper, Address.ofNat_value, Address.ofNat_value]
      rw [addEntry, range]
      exact addIpRange_gives (named6 (by omega) small not4 reads) irl

end Entries

section Ranges

variable {irl later : List IpRange}

def entered (r : Resolver) (irl : List IpRange) (curr : IpIter) : List IpRange -> Option CString × RangesIter
  | [] => (none, { irl, ranges := [], curr })
  | range :: rest =>
    let first := ipIterInit r .zero range.startIp range.endIp
    (first.1, { irl, ranges := range :: rest, curr := first.2 })

theorem rangesIterInc_ended (some_ : irl ≠ []) {curr : IpIter} (ended : (ipIterInc r curr).1 = none) (range : IpRange) :
    rangesIterInc r { irl, ranges := range :: later, curr } = entered r irl (ipIterInc r curr).2 later := by
  cases irl with
  | nil => exact absurd rfl some_
  | cons first others => cases later <;> simp [rangesIterInc, ended, entered]

theorem rangesIterInc_within (some_ : irl ≠ []) {curr : IpIter} {text : CString}
    (more : (ipIterInc r curr).1 = some text) (range : IpRange) :
    rangesIterInc r { irl, ranges := range :: later, curr } =
      ((ipIterInc r curr).1, { irl, ranges := range :: later, curr := (ipIterInc r curr).2 }) := by
  cases irl with
  | nil => exact absurd rfl some_
  | cons first others => simp [rangesIterInc, more]

theorem handOver (some_ : irl ≠ []) {rest : List CString}
    (after : ∀ curr, Gives (rangesIterInc r) (entered r irl curr later) rest) (range : IpRange)
    {call : Option CString × IpIter} {text : CString} {texts : List CString}
    (gives : Gives (ipIterInc r) call (text :: texts)) :
    Gives (rangesIterInc r) (call.1, { irl, ranges := range :: later, curr := call.2 }) (text :: texts ++ rest) := by
  induction texts generalizing call text with
  | nil =>
    refine ⟨gives.1, ?_⟩
    rw [rangesIterInc_ended some_ gives.2]
    exact after _
  | cons second texts ih =>
    refine ⟨gives.1, ?_⟩
    rw [rangesIterInc_within some_ gives.2.1]
    exact ih gives.2

theorem entered_gives (some_ : irl ≠ []) {ranges : List IpRange} {texts : List (List CString)}
    (each : List.Forall₂ (fun range own => Gives (ipIterInc r) (ipIterInit r .zero range.startIp range.endIp) own)
      ranges texts) (curr : IpIter) :
    Gives (rangesIterInc r) (entered r irl curr ranges) (texts.takeWhile (· ≠ [])).flatten := by
  induction each generalizing curr with
  | nil => rfl
  | @cons range own ranges texts gives _ ih =>
    cases own with
    | nil => exact gives
    | cons text own => exact handOver some_ ih range gives

theorem addEntries_gives {entries : List Entry} {spans : List Span} (means : List.Forall₂ (Means r) entries spans) :
    ∃ ranges, entries.foldl (addEntry r) irl = irl ++ ranges ∧
      List.Forall₂ (fun range own => Gives (ipIterInc r) (ipIterInit r .zero range.startIp range.endIp) own)
        ranges (spans.map (Span.texts r)) := by
  induction means generalizing irl with
  | nil => exact ⟨[], by simp, .nil⟩
  | @cons entry span entries spans here _ ih =>
    obtain ⟨range, added, gives⟩ := addEntry_gives here irl
    obtain ⟨ranges, rest, each⟩ := @ih (irl ++ [range])
    exact ⟨range :: ranges, by rw [List.foldl_cons, added, rest, List.append_assoc]; rfl, .cons gives each⟩

def Covered (r : Resolver) (iter : RangesIter) (irl : List IpRange) (spans : List Span) : Prop :=
  ∀ n ≤ (spans.flatMap (Span.texts r)).length,
    (calls (rangesIterInc r) (rangesIterInit r iter irl) n).1 = (spans.flatMap (Span.texts r))[n]?

theorem texts_nil {entry : Entry} {span : Span} (means : Means r entry span) : span.texts r = [] ↔ span = .nothing := by
  cases means with
  | range4 => simp [Span.texts, names4]; omega
  | range6 => simp [Span.texts, names6]; omega
  | nothing => simp [Span.texts]
  | cidr4 _ _ _ _ _ share =>
    obtain ⟨first, last⟩ := share.ends
    simp [Span.texts, names4]
    omega
  | cidr6 _ _ _ _ _ _ share =>
    obtain ⟨first, last⟩ := share.ends
    simp [Span.texts, names6]
    omega

theorem all_texts_nil {entries : List Entry} {spans : List Span} (means : List.Forall₂ (Means r) entries spans) :
    ∀ span ∈ spans, (span.texts r = [] ↔ span = .nothing) := by
  induction means with
  | nil => simp
  | cons here _ ih => exact List.forall_mem_cons.mpr ⟨texts_nil here, ih⟩

theorem flatten_takeWhile {texts : List (List CString)} :
    (texts.takeWhile (· ≠ [])).flatten = texts.flatten ↔ texts.Pairwise fun own behind => own = [] -> behind = [] := by
  induction texts with
  | nil => simp
  | cons own texts ih =>
    by_cases empty : own = []
    · have rest : (∀ behind ∈ texts, behind = []) -> texts.Pairwise fun own behind => own = [] -> behind = [] :=
        fun all => (List.pairwise_of_forall_mem_list fun _ _ behind member _ => all behind member)
      simp only [empty, List.takeWhile_cons, ne_eq, not_true_eq_false, decide_false, Bool.false_eq_true, if_false,
        List.flatten_nil, List.flatten_cons, List.nil_append, List.pairwise_cons, forall_const, eq_comm,
        List.flatten_eq_nil_iff]
      exact ⟨fun all => ⟨all, rest all⟩, And.left⟩
    · rw [List.takeWhile_cons_of_pos (by simpa using empty), List.flatten_cons, List.flatten_cons, List.append_cancel_left_eq,
        ih, List.pairwise_cons]
      simp [empty]

theorem ranges_covered_iff {entries : List Entry} {spans : List Span} (means : List.Forall₂ (Means r) entries spans)
    (iter : RangesIter) : Covered r iter (entries.foldl (addEntry r) []) spans ↔
      spans.Pairwise fun span behind => span = .nothing -> behind = .nothing := by
  obtain ⟨ranges, added, each⟩ := @addEntries_gives r [] entries spans means
  rw [List.nil_append] at added
  have given : Gives (rangesIterInc r) (rangesIterInit r iter ranges)
      ((spans.map (Span.texts r)).takeWhile (· ≠ [])).flatten := by
    cases each_ : ranges with
    | nil =>
      rw [each_, List.forall₂_nil_left_iff] at each
      rw [each]
      rfl
    | cons range rest =>
      rw [each_] at each
      exact entered_gives (List.cons_ne_nil _ _) each .zero
  have empty := all_texts_nil means
  calc Covered r iter (entries.foldl (addEntry r) []) spans
      ↔ Gives (rangesIterInc r) (rangesIterInit r iter ranges) (spans.map (Span.texts r)).flatten := by
        rw [Covered, added, <- gives_iff, List.flatMap_def]
    _ ↔ ((spans.map (Span.texts r)).takeWhile (· ≠ [])).flatten = (spans.map (Span.texts r)).flatten :=
        ⟨gives_unique given, fun same => same ▸ given⟩
    _ ↔ spans.Pairwise fun span behind => span = .nothing -> behind = .nothing := by
        rw [flatten_takeWhile, List.pairwise_map]
        apply List.Pairwise.iff_of_mem
        intro span behind member other
        rw [empty span member, empty behind other]

def dotted : Resolver where
  lookup4 text :=
    let parts := text.splitOn 46
    if numbers : parts.length = 4 ∧ ∀ part ∈ parts, part ≠ [] ∧ part.all isdigit ∧ digitsValue part < 256 then
      some ⟨parts.map fun part => UInt8.ofNat (digitsValue part), by simpa using numbers.1⟩
    else none
  lookup6 _ := none
  name4 address := ([46] : CString).intercalate (address.bytes.map fun byte => printInt byte.toNat)
  name6 _ := []

-- 10.0.0.10 to 10.0.0.9, 10.0.0.5/30, and then an address that is none
theorem ranges_covered_lan : Covered dotted { irl := [], ranges := [], curr := .zero }
      ([.range [49, 48, 46, 48, 46, 48, 46, 49, 48] [49, 48, 46, 48, 46, 48, 46, 57],
        .cidr ([49, 48, 46, 48, 46, 48, 46, 53] ++ 47 :: [51, 48]), .range [120] [120]].foldl (addEntry dotted) [])
      [.v4 167772169 167772170, .v4 167772164 167772167, .nothing] := by
  have means : List.Forall₂ (Means dotted)
      [.range [49, 48, 46, 48, 46, 48, 46, 49, 48] [49, 48, 46, 48, 46, 48, 46, 57],
        .cidr ([49, 48, 46, 48, 46, 48, 46, 53] ++ 47 :: [51, 48]), .range [120] [120]]
      [.v4 167772169 167772170, .v4 167772164 167772167, .nothing] := by
    have range := @Means.range4 dotted [49, 48, 46, 48, 46, 48, 46, 49, 48] [49, 48, 46, 48, 46, 48, 46, 57]
      ⟨[10, 0, 0, 10], rfl⟩ ⟨[10, 0, 0, 9], rfl⟩ rfl rfl
    have first : Address.value (⟨[10, 0, 0, 10], rfl⟩ : Address 4) = 167772170 := by decide
    have last : Address.value (⟨[10, 0, 0, 9], rfl⟩ : Address 4) = 167772169 := by decide
    rw [first, last] at range
    have block : SharePrefix (32 - digitsValue [51, 48]) 167772165 167772164 167772167 := by
      intro other
      change _ ↔ other / 4 = 167772165 / 4
      omega
    have cidr := @Means.cidr4 dotted [49, 48, 46, 48, 46, 48, 46, 53] [51, 48] ⟨[10, 0, 0, 5], rfl⟩ 167772164 167772167
      (by decide) (by decide) (by decide) (by decide) rfl block (by simp; exact ⟨rfl, rfl⟩)
    exact .cons range (.cons cidr (.cons (.nothing (.inl rfl) (.inl rfl)) .nil))
  exact (ranges_covered_iff means _).mpr (by simp)

-- An address that is none, and then 10.0.0.1
theorem none_hides_ranges : ∃ entries spans, List.Forall₂ (Means dotted) entries spans ∧
      ¬ ∀ iter, Covered dotted iter (entries.foldl (addEntry dotted) []) spans := by
  have range := @Means.range4 dotted [49, 48, 46, 48, 46, 48, 46, 49] [49, 48, 46, 48, 46, 48, 46, 49]
    ⟨[10, 0, 0, 1], rfl⟩ ⟨[10, 0, 0, 1], rfl⟩ rfl rfl
  have nowhere := @Means.nothing dotted [120] [120] (.inl rfl) (.inl rfl)
  refine ⟨_, _, .cons nowhere (.cons range .nil), fun covered => ?_⟩
  have first := covered { irl := [], ranges := [], curr := .zero } 0 (Nat.zero_le _)
  have returned : (rangesIterInit dotted { irl := [], ranges := [], curr := .zero }
      ([.range [120] [120], .range [49, 48, 46, 48, 46, 48, 46, 49] [49, 48, 46, 48, 46, 48, 46, 49]].foldl
        (addEntry dotted) [])).1 = none := rfl
  rw [calls, returned] at first
  simp [Span.texts, names4] at first

end Ranges

end Nut.Nutscan
