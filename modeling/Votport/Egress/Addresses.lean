import Mathlib.Data.List.DropRight
import Votport.Delivery.Jobs
import Votport.Foundation.Fallible
import Votport.Foundation.Leading

/-!
# Addresses and blocks of them

An address of IPv6 may embed one of IPv4.  A block is a network with a number of leading bits; one
that holds mapped addresses only is a block of IPv4, and mapped addresses are compared as what they
embed.
-/

namespace Votport.Egress

/-- An address of IPv4, by its octets. -/
structure Ipv4Addr where
  a : UInt8
  b : UInt8
  c : UInt8
  d : UInt8
deriving DecidableEq, Repr

/-- An address of IPv6, by its segments. -/
structure Ipv6Addr where
  s0 : UInt16
  s1 : UInt16
  s2 : UInt16
  s3 : UInt16
  s4 : UInt16
  s5 : UInt16
  s6 : UInt16
  s7 : UInt16
deriving DecidableEq, Repr

/-- An address. -/
inductive IpAddr
  | v4 (addr : Ipv4Addr)
  | v6 (addr : Ipv6Addr)
deriving DecidableEq, Repr

/-- The octets of a segment. -/
def segmentOctets (s : UInt16) : List UInt8 := [(s >>> 8).toUInt8, s.toUInt8]

/-- The address of IPv4 that two segments hold. -/
def Ipv4Addr.ofSegments (high low : UInt16) : Ipv4Addr :=
  ⟨(high >>> 8).toUInt8, high.toUInt8, (low >>> 8).toUInt8, low.toUInt8⟩

/-- `octets`. -/
def Ipv4Addr.octets (addr : Ipv4Addr) : List UInt8 := [addr.a, addr.b, addr.c, addr.d]

/-- `segments`. -/
def Ipv6Addr.segments (addr : Ipv6Addr) : List UInt16 :=
  [addr.s0, addr.s1, addr.s2, addr.s3, addr.s4, addr.s5, addr.s6, addr.s7]

/-- `octets`. -/
def Ipv6Addr.octets (addr : Ipv6Addr) : List UInt8 := addr.segments.flatMap segmentOctets

/-- The octets of an address. -/
def IpAddr.octets : IpAddr → List UInt8
  | .v4 addr => addr.octets
  | .v6 addr => addr.octets

/-- The bits of an address. -/
def IpAddr.width : IpAddr → ℕ
  | .v4 _ => 32
  | .v6 _ => 128

/-- `to_ipv4_mapped`. -/
def Ipv6Addr.toIpv4Mapped (addr : Ipv6Addr) : Option Ipv4Addr :=
  if addr.segments.take 6 = [0, 0, 0, 0, 0, 0xffff] then some (.ofSegments addr.s6 addr.s7) else none

/-- `to_ipv4`. -/
def Ipv6Addr.toIpv4 (addr : Ipv6Addr) : Option Ipv4Addr :=
  if addr.segments.take 5 = [0, 0, 0, 0, 0] ∧ (addr.s5 = 0 ∨ addr.s5 = 0xffff) then
    some (.ofSegments addr.s6 addr.s7)
  else none

/-! ### Blocks -/

/-- `IpCidr`. -/
structure IpCidr where
  network : IpAddr
  bits : ℕ
  le : bits ≤ network.width
deriving DecidableEq

/-- `u8::from_str`. -/
def parseU8 (text : List Char) : Option ℕ :=
  let digits := if text.head? = some '+' then text.drop 1 else text
  let value := digits.foldl (fun n c => 10 * n + (c.toNat - '0'.toNat)) 0
  if digits ≠ [] ∧ digits.all Char.isDigit = true ∧ value ≤ 255 then some value else none

/-- A mapped network with enough bits is a network of IPv4. -/
def IpCidr.ofNetwork (network : IpAddr) (bits : ℕ) (h : bits ≤ network.width) : IpCidr :=
  match network with
  | .v4 addr => ⟨.v4 addr, bits, h⟩
  | .v6 addr =>
      match addr.toIpv4Mapped with
      | some embedded =>
          if 96 ≤ bits then
            ⟨.v4 embedded, bits - 96, by
              change bits ≤ 128 at h
              change bits - 96 ≤ 32
              omega⟩
          else ⟨.v6 addr, bits, h⟩
      | none => ⟨.v6 addr, bits, h⟩

/-- The address of a trimmed text, and the number of bits if one is given. -/
def splitBits (text : List Char) : Except String (List Char × Option ℕ) :=
  let address := text.takeWhile (· ≠ '/')
  if '/' ∈ text then
    (Fallible.present (parseU8 (text.drop (address.length + 1)))
      "prefix length is not a number").map fun bits => (address, some bits)
  else .ok (text, none)

/-- `IpCidr::parse`, with how an address is parsed. -/
def IpCidr.parse (parseIp : List Char → Option IpAddr) (text : List Char) :
    Except String IpCidr := do
  let (address, bits) ← splitBits (trim text)
  let network ← Fallible.present (parseIp address) "not an IP address"
  let bits := bits.getD network.width
  if h : bits ≤ network.width then return .ofNetwork network bits h
  else throw "prefix longer than the address family"

/-- A text is an address, with a number of bits after it unless these are all. -/
def Spells (parseIp : List Char → Option IpAddr) (text : List Char) (network : IpAddr)
    (bits : ℕ) : Prop :=
  ∃ address, parseIp address = some network ∧ '/' ∉ address ∧
    (text = address ∧ bits = network.width ∨
      ∃ number, text = address ++ '/' :: number ∧ parseU8 number = some bits)

/-- `prefix_matches`. -/
def prefixMatches (network ip : List UInt8) (bits : ℕ) : Bool :=
  let whole := bits / 8
  let remainder := bits % 8
  if network.take whole ≠ ip.take whole then false
  else if remainder = 0 then true
  else
    let mask : UInt8 := 0xff <<< (8 - remainder).toUInt8
    decide (network.getD whole 0 &&& mask = ip.getD whole 0 &&& mask)

/-- A mapped address is taken for what it embeds. -/
def IpAddr.unwrapped : IpAddr → IpAddr
  | .v4 addr => .v4 addr
  | .v6 addr =>
      match addr.toIpv4Mapped with
      | some embedded => .v4 embedded
      | none => .v6 addr

/-- `contains`. -/
def IpCidr.contains (block : IpCidr) (ip : IpAddr) : Bool :=
  match block.network, ip.unwrapped with
  | .v4 network, .v4 ip => prefixMatches network.octets ip.octets block.bits
  | .v6 network, .v6 ip => prefixMatches network.octets ip.octets block.bits
  | _, _ => false

/-- The address of IPv6 that is mapped to one of IPv4. -/
def Ipv4Addr.mapped (addr : Ipv4Addr) : List UInt8 :=
  [0, 0, 0, 0, 0, 0, 0, 0, 0, 0, 0xff, 0xff] ++ addr.octets

/-- An address is in a block when it has the leading bits of the network.  An address of IPv4 is in
a block of IPv6 that fixes the bits before the embedded address, when the mapped one is. -/
def IpAddr.Member (network : IpAddr) (bits : ℕ) : IpAddr → Prop
  | .v4 addr =>
      match network with
      | .v4 network => Leading.leading network.octets bits = Leading.leading addr.octets bits
      | .v6 network =>
          96 ≤ bits ∧ Leading.leading network.octets bits = Leading.leading addr.mapped bits
  | .v6 addr =>
      match network with
      | .v4 _ => False
      | .v6 network => Leading.leading network.octets bits = Leading.leading addr.octets bits

/-! ### Leading bits -/

/-- A property of bytes is one of the numbers below 256. -/
theorem forall_byte {P : UInt8 → Prop} (h : ∀ n : Fin 256, P (UInt8.ofNat n)) (b : UInt8) :
  P b
  := by
  have hb := h ⟨b.toNat, b.toNat_lt⟩
  rwa [UInt8.ofNat_toNat] at hb

/-- A mask keeps the upper part of a byte. -/
theorem and_mask (b : UInt8) :
  ∀ k : Fin 8, (b &&& (0xff <<< k.1.toUInt8)).toNat = b.toNat / 2 ^ k.1 * 2 ^ k.1
  := by
  revert b
  apply forall_byte
  decide +kernel

theorem mask_eq_iff {b c : UInt8} {k : ℕ} (hk : k < 8) :
  (b &&& (0xff <<< k.toUInt8) = c &&& (0xff <<< k.toUInt8)) ↔ b.toNat / 2 ^ k = c.toNat / 2 ^ k
  := by
  rw [← UInt8.toNat_inj, and_mask b ⟨k, hk⟩, and_mask c ⟨k, hk⟩]
  exact Nat.mul_left_inj (Nat.two_pow_pos k).ne'

/-- Blocks are compared by their leading bits. -/
theorem prefixMatches_iff
    {network ip : List UInt8} {bits : ℕ} (hlength : network.length = ip.length)
    (hbits : bits ≤ 8 * network.length) :
  prefixMatches network ip bits = true
    ↔ Leading.leading network bits = Leading.leading ip bits
  := by
  induction network generalizing ip bits with
  | nil =>
      have hzero : bits = 0 := by simpa using hbits
      rw [List.length_nil] at hlength
      rw [List.eq_nil_of_length_eq_zero hlength.symm, hzero]
      exact iff_of_true rfl rfl
  | cons b network ih =>
      cases ip with
      | nil => cases hlength
      | cons c ip =>
          rw [List.length_cons] at hbits hlength
          have hsame : network.length = ip.length := Nat.succ.inj hlength
          by_cases hle : 8 ≤ bits
          · -- the first byte is compared as it is
            have hwhole : bits / 8 = (bits - 8) / 8 + 1 := by omega
            have hremainder : bits % 8 = (bits - 8) % 8 := by omega
            rw [Leading.leading_cons_inj hle hbits (by omega), ← ih hsame (by omega)]
            unfold prefixMatches
            dsimp only
            rw [hwhole, hremainder, List.take_succ_cons, List.take_succ_cons, List.getD_cons_succ,
              List.getD_cons_succ]
            by_cases hbc : b = c
            · subst hbc
              simp only [ne_eq, List.cons.injEq, true_and]
            · rw [if_pos (fun h => hbc (List.cons.inj h).1)]
              exact iff_of_false (by decide) (fun h => hbc h.1)
          · have hwhole : bits / 8 = 0 := by omega
            have hremainder : bits % 8 = bits := by omega
            rw [Leading.leading_cons_of_lt (by omega), Leading.leading_cons_of_lt (by omega)]
            unfold prefixMatches
            dsimp only
            rw [hwhole, hremainder, List.take_zero, List.take_zero, if_neg (fun h => h rfl),
              List.getD_cons_zero, List.getD_cons_zero]
            by_cases hzero : bits = 0
            · rw [if_pos hzero, hzero]
              refine iff_of_true rfl ?_
              rw [Nat.div_eq_of_lt b.toNat_lt, Nat.div_eq_of_lt c.toNat_lt]
            · rw [if_neg hzero, decide_eq_true_eq, mask_eq_iff (by omega)]

/-! ### What is parsed -/

theorem splitOnce {text : List Char} (h : '/' ∈ text) :
  text = text.takeWhile (· ≠ '/')
    ++ '/' :: text.drop ((text.takeWhile (· ≠ '/')).length + 1)
  := by
  induction text with
  | nil => cases h
  | cons c text ih =>
      by_cases hc : c = '/'
      · subst hc
        rfl
      · have htake : (c :: text).takeWhile (· ≠ '/') = c :: text.takeWhile (· ≠ '/') :=
          List.takeWhile_cons_of_pos (decide_eq_true hc)
        rw [htake, List.length_cons, List.drop_succ_cons, List.cons_append,
          ← ih ((List.mem_cons.mp h).resolve_left (Ne.symm hc))]

theorem splitBits_eq_ok
    {text address : List Char} {bits : Option ℕ} (h : splitBits text = .ok (address, bits)) :
  '/' ∉ address ∧ (text = address ∧ bits = none ∨
    ∃ number value, text = address ++ '/' :: number ∧ parseU8 number = some value
      ∧ bits = some value)
  := by
  unfold splitBits at h
  split at h
  case isTrue hslash =>
    obtain ⟨number, hnumber, h⟩ := Fallible.map_eq_ok.mp h
    rw [Fallible.present_eq_ok] at hnumber
    cases h
    refine ⟨fun hmem => ?_, .inr ⟨_, number, splitOnce hslash, hnumber, rfl⟩⟩
    have hne := List.mem_takeWhile_imp hmem
    exact of_decide_eq_true hne rfl
  case isFalse hslash =>
    cases h
    exact ⟨hslash, .inl ⟨rfl, rfl⟩⟩

/-- The text of a block is a network with its bits. -/
theorem IpCidr.parse_eq_ok
    {parseIp : List Char → Option IpAddr} {text : List Char} {block : IpCidr}
    (h : parse parseIp text = .ok block) :
  ∃ network bits hbits, Spells parseIp (trim text) network bits
    ∧ block = .ofNetwork network bits hbits
  := by
  unfold parse at h
  obtain ⟨⟨address, given⟩, hsplit, h⟩ := Fallible.bind_eq_ok.mp h
  obtain ⟨network, hnetwork, h⟩ := Fallible.bind_eq_ok.mp h
  rw [Fallible.present_eq_ok] at hnetwork
  obtain ⟨hslash, hgiven⟩ := splitBits_eq_ok hsplit
  dsimp only at h
  split at h
  case isFalse => cases h
  case isTrue hle =>
    cases h
    refine ⟨network, _, hle, ⟨address, hnetwork, hslash, ?_⟩, rfl⟩
    rcases hgiven with ⟨htext, rfl⟩ | ⟨number, value, htext, hvalue, rfl⟩
    · exact .inl ⟨htext, rfl⟩
    · exact .inr ⟨number, htext, hvalue⟩

/-! ### Blocks and their members -/

theorem segmentOctets_inj {s t : UInt16} :
  segmentOctets s = segmentOctets t ↔ s = t
  := by
  refine ⟨fun h => ?_, congrArg _⟩
  simp only [segmentOctets, List.cons.injEq, and_true] at h
  have hhigh := congrArg UInt8.toNat h.1
  have hlow := congrArg UInt8.toNat h.2
  rw [UInt16.toNat_toUInt8, UInt16.toNat_toUInt8, UInt16.toNat_shiftRight,
    UInt16.toNat_shiftRight] at hhigh
  rw [UInt16.toNat_toUInt8, UInt16.toNat_toUInt8] at hlow
  have hs := s.toNat_lt
  have ht := t.toNat_lt
  have height : (8 : UInt16).toNat % 16 = 8 := rfl
  rw [height, Nat.shiftRight_eq_div_pow, Nat.shiftRight_eq_div_pow] at hhigh
  apply UInt16.toNat_inj.mp
  omega

/-- The octets before an embedded address. -/
def Ipv6Addr.upper (addr : Ipv6Addr) : List UInt8 := (addr.segments.take 6).flatMap segmentOctets

theorem Ipv6Addr.octets_eq (addr : Ipv6Addr) :
  addr.octets = addr.upper ++ (Ipv4Addr.ofSegments addr.s6 addr.s7).octets
  := rfl

theorem Ipv6Addr.length_upper (addr : Ipv6Addr) :
  addr.upper.length = 12
  := rfl

theorem Ipv6Addr.upper_eq {addr : Ipv6Addr} :
  addr.upper = [0, 0, 0, 0, 0, 0, 0, 0, 0, 0, 0xff, 0xff]
    ↔ addr.segments.take 6 = [0, 0, 0, 0, 0, 0xffff]
  := by
  have happend : ∀ {s t : UInt16} {rest others : List UInt8},
      segmentOctets s ++ rest = segmentOctets t ++ others ↔ s = t ∧ rest = others := by
    intro s t rest others
    have hlength : (segmentOctets s).length = (segmentOctets t).length := rfl
    rw [List.append_eq_append_iff_of_size_eq_left hlength, segmentOctets_inj]
  have hmapped : [0, 0, 0, 0, 0, 0, 0, 0, 0, 0, 0xff, 0xff]
      = ([0, 0, 0, 0, 0, 0xffff] : List UInt16).flatMap segmentOctets := by
    decide
  rw [upper, hmapped]
  simp only [segments, List.take_succ_cons, List.take_zero, List.flatMap_cons, List.flatMap_nil,
    happend, List.cons.injEq, and_true]

/-- The bits before an embedded address are compared as they are. -/
theorem Ipv4Addr.leading_mapped
    {addr : Ipv6Addr} {embedded : Ipv4Addr} {bits : ℕ} (hle : 96 ≤ bits) (hbits : bits ≤ 128) :
  Leading.leading addr.octets bits = Leading.leading embedded.mapped bits
    ↔ ∃ network, addr.toIpv4Mapped = some network
      ∧ Leading.leading network.octets (bits - 96) = Leading.leading embedded.octets (bits - 96)
  := by
  rw [Ipv6Addr.octets_eq, mapped,
    Leading.leading_append_inj addr.length_upper (by rwa [addr.length_upper])
      (by rwa [addr.length_upper]) hbits,
    Ipv6Addr.upper_eq]
  constructor
  · rintro ⟨hmapped, h⟩
    exact ⟨_, if_pos hmapped, h⟩
  · rintro ⟨network, hnetwork, h⟩
    obtain ⟨hmapped, hsome⟩ := Option.ite_none_right_eq_some.mp hnetwork
    rw [← Option.some.inj hsome] at h
    exact ⟨hmapped, h⟩

/-- An address that shares the bits before an embedded one is mapped as well. -/
theorem Ipv6Addr.mapped_of_leading
    {network addr : Ipv6Addr} {bits : ℕ} (hle : 96 ≤ bits) (hbits : bits ≤ 128)
    (hnetwork : network.toIpv4Mapped ≠ none)
    (h : Leading.leading network.octets bits = Leading.leading addr.octets bits) :
  addr.toIpv4Mapped ≠ none
  := by
  rw [octets_eq, octets_eq,
    Leading.leading_append_inj (network.length_upper.trans addr.length_upper.symm)
      (by rwa [network.length_upper]) (by rwa [network.length_upper])
      (by rwa [addr.length_upper])] at h
  obtain ⟨embedded, hembedded⟩ := Option.ne_none_iff_exists'.mp hnetwork
  have hmapped := (Option.ite_none_right_eq_some.mp hembedded).1
  rw [← upper_eq, h.1, upper_eq] at hmapped
  unfold toIpv4Mapped
  rw [if_pos hmapped]
  exact Option.some_ne_none _

/-- A block contains exactly the addresses that have its leading bits, in their own family. -/
theorem contains_iff (block : IpCidr) (ip : IpAddr) :
  block.contains ip = true ↔ ip.unwrapped.width = block.network.width
    ∧ Leading.leading block.network.octets block.bits
      = Leading.leading ip.unwrapped.octets block.bits
  := by
  obtain ⟨network, bits, hbits⟩ := block
  unfold IpCidr.contains
  cases network with
  | v4 network =>
      have hwidth : bits ≤ 8 * network.octets.length := hbits
      cases ip.unwrapped with
      | v4 ip =>
          have hlength : network.octets.length = ip.octets.length := rfl
          exact (prefixMatches_iff hlength hwidth).trans (and_iff_right rfl).symm
      | v6 ip => exact iff_of_false (fun h => by cases h) (fun h => by cases h.1)
  | v6 network =>
      have hwidth : bits ≤ 8 * network.octets.length := hbits
      cases ip.unwrapped with
      | v4 ip => exact iff_of_false (fun h => by cases h) (fun h => by cases h.1)
      | v6 ip =>
          have hlength : network.octets.length = ip.octets.length := rfl
          exact (prefixMatches_iff hlength hwidth).trans (and_iff_right rfl).symm

theorem IpAddr.unwrapped_v6 {ip : IpAddr} {addr : Ipv6Addr} (h : ip.unwrapped = .v6 addr) :
  addr.toIpv4Mapped = none
  := by
  cases ip with
  | v4 ip => cases h
  | v6 ip =>
      unfold unwrapped at h
      cases hmapped : ip.toIpv4Mapped with
      | none =>
          simp only [hmapped] at h
          cases h
          exact hmapped
      | some embedded =>
          simp only [hmapped] at h
          cases h

/-- The block of a network holds the members of the network. -/
theorem ofNetwork_contains_iff
    {network : IpAddr} {bits : ℕ} (hbits : bits ≤ network.width) (ip : IpAddr) :
  (IpCidr.ofNetwork network bits hbits).contains ip = true ↔ network.Member bits ip.unwrapped
  := by
  rw [contains_iff]
  cases network with
  | v4 network =>
      change _ = 32 ∧ _ ↔ _
      cases ip.unwrapped with
      | v4 addr => exact and_iff_right rfl
      | v6 addr => exact iff_of_false (fun h => by cases h.1) id
  | v6 network =>
      change bits ≤ 128 at hbits
      by_cases hblock : 96 ≤ bits ∧ network.toIpv4Mapped ≠ none
      · obtain ⟨embedded, hembedded⟩ := Option.ne_none_iff_exists'.mp hblock.2
        have hnetwork : IpCidr.ofNetwork (.v6 network) bits hbits
            = ⟨.v4 embedded, bits - 96, by change bits - 96 ≤ 32; omega⟩ := by
          unfold IpCidr.ofNetwork
          simp only [hembedded, if_pos hblock.1]
        rw [hnetwork]
        cases hip : ip.unwrapped with
        | v4 addr =>
            refine (and_iff_right rfl).trans (Iff.trans ?_ (and_iff_right hblock.1).symm)
            rw [Ipv4Addr.leading_mapped hblock.1 hbits]
            refine ⟨fun h => ⟨embedded, hembedded, h⟩, ?_⟩
            rintro ⟨other, hother, h⟩
            cases hembedded.symm.trans hother
            exact h
        | v6 addr =>
            refine iff_of_false (fun h => by cases h.1) (fun h => ?_)
            exact Ipv6Addr.mapped_of_leading hblock.1 hbits hblock.2 h (IpAddr.unwrapped_v6 hip)
      · have hnetwork : IpCidr.ofNetwork (.v6 network) bits hbits = ⟨.v6 network, bits, hbits⟩ := by
          unfold IpCidr.ofNetwork
          cases hmapped : network.toIpv4Mapped with
          | none => simp only [hmapped]
          | some embedded =>
              have hlt : ¬96 ≤ bits := fun h => hblock ⟨h, hmapped ▸ Option.some_ne_none _⟩
              simp only [hmapped, if_neg hlt]
        rw [hnetwork]
        cases ip.unwrapped with
        | v4 addr =>
            refine iff_of_false (fun h => by cases h.1) (fun h => ?_)
            obtain ⟨embedded, hembedded, -⟩ := (Ipv4Addr.leading_mapped h.1 hbits).mp h.2
            exact hblock ⟨h.1, hembedded ▸ Option.some_ne_none _⟩
        | v6 addr => exact and_iff_right rfl

end Votport.Egress
