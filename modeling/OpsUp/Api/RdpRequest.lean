import OpsUp.Go.Asn1
import Mathlib.Data.Nat.Bitwise

/-!
# RDCleanPath requests

`parseRDPRequest` decodes a request, encodes it again and compares, so that what a
lenient decoder lets through is refused; then it looks at fixed places of the X.224
packet inside.  An index that is out of range would end the handler.
-/

namespace OpsUp.Api

open OpsUp.Go

/-- `rdpRequest` -/
structure RdpRequest where
  version : Int64
  destination : String
  proxyAuth : String
  x224 : Bytes
  deriving DecidableEq

/-- `encoding/asn1` for requests: `Marshal` and `Unmarshal`. -/
structure Asn1 where
  marshal : RdpRequest → Option Bytes
  unmarshal : Bytes → Option (RdpRequest × Bytes)

/-! ## The parser -/

/-- A chain of `||`: each condition is looked at when those before it are false, and
`none` is an index out of range. -/
def anyOf : List (Option Bool) → Option Bool
  | [] => some false
  | none :: _ => none
  | some true :: _ => some true
  | some false :: rest => anyOf rest

/-- `p[from:to]` -/
def slice (p : Bytes) (start stop : Nat) : Option Bytes :=
  if start ≤ stop ∧ stop ≤ p.length then some ((p.take stop).drop start) else none

/-- `p[len(p)-n:]` -/
def lastBytes (p : Bytes) (n : Nat) : Option Bytes :=
  if n ≤ p.length then some (p.drop (p.length - n)) else none

/-- `binary.BigEndian.Uint16` -/
def bigEndianUint16 : Bytes → Option Nat
  | hi :: lo :: _ => some (256 * hi.toNat + lo.toNat)
  | _ => none

/-- `binary.LittleEndian.Uint16` -/
def littleEndianUint16 : Bytes → Option Nat
  | lo :: hi :: _ => some (lo.toNat + 256 * hi.toNat)
  | _ => none

/-- `binary.LittleEndian.Uint32` -/
def littleEndianUint32 : Bytes → Option Nat
  | b0 :: b1 :: b2 :: b3 :: _ =>
      some (b0.toNat + 256 * b1.toNat + 65536 * b2.toNat + 16777216 * b3.toNat)
  | _ => none

/-- The condition of "invalid X.224 request". -/
def invalidX224 (p : Bytes) : Option Bool :=
  anyOf [
    some (decide (p.length < 19)),
    some (decide (p.length > 4096)),
    p[0]?.map fun b => decide (b ≠ 3),
    p[1]?.map fun b => decide (b ≠ 0),
    ((slice p 2 4).bind bigEndianUint16).map fun n => decide (n ≠ p.length),
    p[4]?.map fun b => decide (b.toNat + 5 ≠ p.length),
    p[5]?.map fun b => decide (b ≠ 0xe0)]

/-- The condition of "RDP V1 requires NLA". -/
def withoutNLA (n : Bytes) : Option Bool :=
  anyOf [
    n[0]?.map fun b => decide (b ≠ 1),
    ((slice n 2 4).bind littleEndianUint16).map fun protocol => decide (protocol ≠ 8),
    ((slice n 4 n.length).bind littleEndianUint32).map fun flags => decide (flags &&& 2 = 0)]

inductive RdpParse where
  | accepted (request : RdpRequest)
  | refused (error : String)
  /-- an index or a slice is out of range -/
  | panics

def parseRDPRequest (asn1 : Asn1) (data : Bytes) : RdpParse :=
  match asn1.unmarshal data with
  | none => .refused "invalid RDCleanPath request"
  | some (request, rest) =>
      if rest.length ≠ 0 ∨ request.version ≠ 3390 ∨ request.proxyAuth = "" then
        .refused "invalid RDCleanPath request"
      else if asn1.marshal request ≠ some data then .refused "unsupported RDCleanPath fields"
      else
        match invalidX224 request.x224 with
        | none => .panics
        | some true => .refused "invalid X.224 request"
        | some false =>
            match (lastBytes request.x224 8).bind withoutNLA with
            | none => .panics
            | some true => .refused "RDP V1 requires NLA"
            | some false => .accepted request

/-! ## The grammar -/

/-- The DER encoding of a request. -/
def requestDer (r : RdpRequest) : Bytes :=
  derElement sequenceTag
    (derElement (explicitTag 0) (derElement integerTag (twosComplement 7 r.version.toInt)) ++
      derElement (explicitTag 2) (derElement utf8StringTag (bytesOf r.destination)) ++
      derElement (explicitTag 3) (derElement utf8StringTag (bytesOf r.proxyAuth)) ++
      derElement (explicitTag 6) (derElement octetStringTag r.x224))

/-- A connection request that ends with a negotiation request for NLA. -/
def ConnectionRequest (p : Bytes) : Prop :=
  19 ≤ p.length ∧ p.length ≤ 4096 ∧
    ∃ (hi lo size any b0 b1 b2 b3 : UInt8) (middle : Bytes),
      p = [0x03, 0x00, hi, lo, size, 0xe0] ++ middle ++ [0x01, any, 0x08, 0x00, b0, b1, b2, b3] ∧
      256 * hi.toNat + lo.toNat = p.length ∧ size.toNat = p.length - 5 ∧
      (b0.toNat + 256 * b1.toNat + 65536 * b2.toNat + 16777216 * b3.toNat).testBit 1 = true

/-- What is known of `encoding/asn1`; a Go slice has fewer than `1 << 63` bytes. -/
structure Asn1.Lawful (asn1 : Asn1) : Prop where
  marshal : ∀ r, asn1.marshal r = some (requestDer r)
  unmarshal : ∀ r, (requestDer r).length < int64Cutoff →
    asn1.unmarshal (requestDer r) = some (r, [])

/-! ## Chains of conditions -/

@[simp]
theorem anyOf_nil : anyOf [] = some false := rfl

theorem anyOf_cons_eq_some_false_iff {condition : Option Bool} {rest : List (Option Bool)} :
    anyOf (condition :: rest) = some false ↔
      condition = some false ∧ anyOf rest = some false := by
  rcases condition with _ | _ | _
  · simp [anyOf]
  · simp [anyOf]
  · simp [anyOf]

/-- Conditions that are all in range. -/
theorem anyOf_ne_none {conditions : List (Option Bool)}
    (inRange : ∀ condition ∈ conditions, condition ≠ none) : anyOf conditions ≠ none := by
  induction conditions with
  | nil => simp
  | cons condition rest ih =>
      have hrest : anyOf rest ≠ none := by
        apply ih
        intro other hother
        exact inRange other (List.mem_cons_of_mem _ hother)
      rcases condition with _ | _ | _
      · exact absurd rfl (inRange none (by simp))
      · exact hrest
      · simp [anyOf]

/-! ## The places of a packet -/

/-- A packet by its first six and its last eight bytes. -/
structure Packet where
  b0 : UInt8
  b1 : UInt8
  hi : UInt8
  lo : UInt8
  size : UInt8
  kind : UInt8
  middle : Bytes
  n0 : UInt8
  n1 : UInt8
  n2 : UInt8
  n3 : UInt8
  f0 : UInt8
  f1 : UInt8
  f2 : UInt8
  f3 : UInt8

def Packet.head (p : Packet) : Bytes := [p.b0, p.b1, p.hi, p.lo, p.size, p.kind]

def Packet.negotiation (p : Packet) : Bytes :=
  [p.n0, p.n1, p.n2, p.n3, p.f0, p.f1, p.f2, p.f3]

def Packet.bytes (p : Packet) : Bytes := p.head ++ p.middle ++ p.negotiation

def Packet.flags (p : Packet) : Nat :=
  p.f0.toNat + 256 * p.f1.toNat + 65536 * p.f2.toNat + 16777216 * p.f3.toNat

theorem eq_of_length_six {q : Bytes} (six : q.length = 6) :
    ∃ a0 a1 a2 a3 a4 a5, q = [a0, a1, a2, a3, a4, a5] := by
  rcases q with _ | ⟨a0, _ | ⟨a1, _ | ⟨a2, _ | ⟨a3, _ | ⟨a4, _ | ⟨a5, rest⟩⟩⟩⟩⟩⟩
  case cons.cons.cons.cons.cons.cons =>
    have hrest : rest = [] := List.eq_nil_of_length_eq_zero (by simpa using six)
    exact ⟨a0, a1, a2, a3, a4, a5, by rw [hrest]⟩
  all_goals simp at six

theorem eq_of_length_eight {q : Bytes} (eight : q.length = 8) :
    ∃ a0 a1 a2 a3 a4 a5 a6 a7, q = [a0, a1, a2, a3, a4, a5, a6, a7] := by
  rcases q with _ | ⟨a0, _ | ⟨a1, rest⟩⟩
  case cons.cons =>
    obtain ⟨a2, a3, a4, a5, a6, a7, rfl⟩ := eq_of_length_six (q := rest) (by simpa using eight)
    exact ⟨a0, a1, a2, a3, a4, a5, a6, a7, rfl⟩
  all_goals simp at eight

theorem exists_packet {p : Bytes} (long : 14 ≤ p.length) : ∃ packet : Packet, p = packet.bytes := by
  obtain ⟨b0, b1, hi, lo, size, kind, hhead⟩ :=
    eq_of_length_six (q := p.take 6) (by rw [List.length_take]; omega)
  obtain ⟨n0, n1, n2, n3, f0, f1, f2, f3, hlast⟩ :=
    eq_of_length_eight (q := p.drop (p.length - 8)) (by rw [List.length_drop]; omega)
  refine ⟨⟨b0, b1, hi, lo, size, kind, (p.take (p.length - 8)).drop 6,
    n0, n1, n2, n3, f0, f1, f2, f3⟩, ?_⟩
  have hfront : p.take 6 ++ (p.take (p.length - 8)).drop 6 = p.take (p.length - 8) := by
    have htake : p.take 6 = (p.take (p.length - 8)).take 6 := by
      rw [List.take_take]
      congr 1
      omega
    rw [htake, List.take_append_drop]
  change p = [b0, b1, hi, lo, size, kind] ++ (p.take (p.length - 8)).drop 6 ++
    [n0, n1, n2, n3, f0, f1, f2, f3]
  rw [← hhead, ← hlast, hfront, List.take_append_drop]

theorem Packet.length_bytes (p : Packet) : p.bytes.length = p.middle.length + 14 := by
  simp [bytes, head, negotiation]

/-- The first condition, on a packet that is long enough for it. -/
theorem invalidX224_bytes_iff (p : Packet) :
    invalidX224 p.bytes = some false ↔
      19 ≤ p.bytes.length ∧ p.bytes.length ≤ 4096 ∧ p.b0 = 3 ∧ p.b1 = 0 ∧
        256 * p.hi.toNat + p.lo.toNat = p.bytes.length ∧
        p.size.toNat + 5 = p.bytes.length ∧ p.kind = 0xe0 := by
  have hword : (slice p.bytes 2 4).bind bigEndianUint16 = some (256 * p.hi.toNat + p.lo.toNat) := by
    have hrange : 2 ≤ 4 ∧ 4 ≤ p.bytes.length := by
      rw [p.length_bytes]
      omega
    rw [slice, if_pos hrange]
    rfl
  have hb0 : p.bytes[0]? = some p.b0 := rfl
  have hb1 : p.bytes[1]? = some p.b1 := rfl
  have hsize : p.bytes[4]? = some p.size := rfl
  have hkind : p.bytes[5]? = some p.kind := rfl
  unfold invalidX224
  rw [hword, hb0, hb1, hsize, hkind]
  simp only [anyOf_cons_eq_some_false_iff, anyOf_nil, Option.map_some, Option.some.injEq,
    decide_eq_false_iff_not, not_lt, not_not, ne_eq, and_true, gt_iff_lt]

theorem land_two_eq_zero_iff (n : Nat) : n &&& 2 = 0 ↔ n.testBit 1 = false := by
  have hland := Nat.and_two_pow n 1
  simp only [Nat.pow_one] at hland
  rw [hland]
  cases n.testBit 1 <;> simp

/-- The second condition, on the last eight bytes. -/
theorem withoutNLA_negotiation_iff (p : Packet) :
    withoutNLA p.negotiation = some false ↔
      p.n0 = 1 ∧ p.n2.toNat + 256 * p.n3.toNat = 8 ∧ p.flags.testBit 1 = true := by
  have hprotocol : (slice p.negotiation 2 4).bind littleEndianUint16 =
      some (p.n2.toNat + 256 * p.n3.toNat) := rfl
  have hflags : (slice p.negotiation 4 p.negotiation.length).bind littleEndianUint32 =
      some p.flags := rfl
  unfold withoutNLA
  rw [hprotocol, hflags]
  simp [anyOf_cons_eq_some_false_iff, Packet.negotiation, land_two_eq_zero_iff]

theorem lastBytes_bytes (p : Packet) : lastBytes p.bytes 8 = some p.negotiation := by
  have hlong : 8 ≤ p.bytes.length := by
    rw [p.length_bytes]
    omega
  have hfront : p.bytes.length - 8 = (p.head ++ p.middle).length := by
    rw [p.length_bytes, List.length_append]
    change _ = 6 + p.middle.length
    omega
  rw [lastBytes, if_pos hlong, hfront, Packet.bytes, List.drop_left]

/-! ## The accepted requests -/

theorem length_of_invalidX224 {p : Bytes} (valid : invalidX224 p = some false) :
    19 ≤ p.length := by
  unfold invalidX224 at valid
  have hfirst := (anyOf_cons_eq_some_false_iff.mp valid).1
  simpa using hfirst

/-- Both conditions are false exactly on a connection request. -/
theorem connectionRequest_iff (p : Bytes) :
    ConnectionRequest p ↔
      invalidX224 p = some false ∧ (lastBytes p 8).bind withoutNLA = some false := by
  constructor
  · rintro ⟨hmin, hmax, hi, lo, size, any, b0, b1, b2, b3, middle, hp, hword, hsize, hflags⟩
    let packet : Packet :=
      ⟨0x03, 0x00, hi, lo, size, 0xe0, middle, 0x01, any, 0x08, 0x00, b0, b1, b2, b3⟩
    obtain rfl : p = packet.bytes := hp
    constructor
    · apply (invalidX224_bytes_iff packet).mpr
      refine ⟨hmin, hmax, rfl, rfl, hword, ?_, rfl⟩
      change size.toNat + 5 = packet.bytes.length
      omega
    · rw [lastBytes_bytes]
      apply (withoutNLA_negotiation_iff packet).mpr
      exact ⟨rfl, rfl, hflags⟩
  · rintro ⟨hvalid, hnla⟩
    obtain ⟨packet, rfl⟩ := exists_packet (Nat.le_trans (by decide) (length_of_invalidX224 hvalid))
    rw [lastBytes_bytes] at hnla
    obtain ⟨hmin, hmax, hb0, hb1, hword, hsize, hkind⟩ := (invalidX224_bytes_iff packet).mp hvalid
    obtain ⟨hn0, hprotocol, hflags⟩ := (withoutNLA_negotiation_iff packet).mp hnla
    have hn2 : packet.n2 = 0x08 := by
      apply UInt8.toNat_inj.mp
      change packet.n2.toNat = 8
      omega
    have hn3 : packet.n3 = 0x00 := by
      apply UInt8.toNat_inj.mp
      change packet.n3.toNat = 0
      omega
    refine ⟨hmin, hmax, packet.hi, packet.lo, packet.size, packet.n1, packet.f0, packet.f1,
      packet.f2, packet.f3, packet.middle, ?_, hword, by omega, hflags⟩
    rw [Packet.bytes, Packet.head, Packet.negotiation, hb0, hb1, hkind, hn0, hn2, hn3]

/-- No index of the first condition is out of range. -/
theorem invalidX224_ne_none (p : Bytes) : invalidX224 p ≠ none := by
  by_cases hshort : p.length < 19
  · unfold invalidX224
    rw [decide_eq_true hshort]
    nofun
  · obtain ⟨packet, rfl⟩ := exists_packet (p := p) (by omega)
    apply anyOf_ne_none
    have hrange : 2 ≤ 4 ∧ 4 ≤ packet.bytes.length := by omega
    simp only [slice, if_pos hrange]
    simp [Packet.bytes, Packet.head, bigEndianUint16]

/-- The last eight bytes are there, and no index into them is out of range. -/
theorem withoutNLA_ne_none {p : Bytes} (valid : invalidX224 p = some false) :
    (lastBytes p 8).bind withoutNLA ≠ none := by
  obtain ⟨packet, rfl⟩ := exists_packet (Nat.le_trans (by decide) (length_of_invalidX224 valid))
  rw [lastBytes_bytes]
  apply anyOf_ne_none
  simp [Packet.negotiation, slice, littleEndianUint16, littleEndianUint32]

/-- A packet whose length is in one of its bytes is short. -/
theorem ConnectionRequest.length_le {p : Bytes} (valid : ConnectionRequest p) : p.length ≤ 260 := by
  obtain ⟨-, -, hi, lo, size, any, b0, b1, b2, b3, middle, -, -, hsize, -⟩ := valid
  have hbyte := size.toNat_lt
  omega

section Parser

variable {asn1 : Asn1}

/-- What an accepted request has passed. -/
theorem checks_of_accepted {data : Bytes} {r : RdpRequest}
    (accepted : parseRDPRequest asn1 data = .accepted r) :
    r.version = 3390 ∧ r.proxyAuth ≠ "" ∧ asn1.marshal r = some data ∧
      invalidX224 r.x224 = some false ∧ (lastBytes r.x224 8).bind withoutNLA = some false := by
  unfold parseRDPRequest at accepted
  split at accepted
  · cases accepted
  · split at accepted
    · cases accepted
    · next request rest _ hfields =>
        split at accepted
        · cases accepted
        · next hcanonical =>
            split at accepted
            · cases accepted
            · cases accepted
            · next hvalid =>
                split at accepted
                · cases accepted
                · cases accepted
                · next hnla =>
                    obtain rfl : request = r := by injection accepted
                    rw [not_or, not_or] at hfields
                    exact ⟨not_not.mp hfields.2.1, hfields.2.2, not_not.mp hcanonical, hvalid, hnla⟩

/-- The parser accepts the encodings of its requests and nothing else. -/
theorem parseRDPRequest_accepted_iff (lawful : asn1.Lawful) {data : Bytes}
    (fits : data.length < int64Cutoff) (r : RdpRequest) :
    parseRDPRequest asn1 data = .accepted r ↔
      data = requestDer r ∧ r.version = 3390 ∧ r.proxyAuth ≠ "" ∧ ConnectionRequest r.x224 := by
  rw [connectionRequest_iff]
  constructor
  · intro haccepted
    obtain ⟨hversion, hproxyAuth, hcanonical, hvalid⟩ := checks_of_accepted haccepted
    rw [lawful.marshal r] at hcanonical
    exact ⟨(Option.some.inj hcanonical).symm, hversion, hproxyAuth, hvalid⟩
  · rintro ⟨rfl, hversion, hproxyAuth, hvalid, hnla⟩
    have hfields : ¬ (([] : Bytes).length ≠ 0 ∨ r.version ≠ 3390 ∨ r.proxyAuth = "") := by
      rintro (hrest | hother | hempty)
      · exact hrest rfl
      · exact hother hversion
      · exact hproxyAuth hempty
    rw [parseRDPRequest, lawful.unmarshal r fits]
    dsimp only
    rw [if_neg hfields, if_neg (not_not.mpr (lawful.marshal r)), hvalid]
    dsimp only
    rw [hnla]

/-- Whatever the decoder returns, no index is out of range. -/
theorem parseRDPRequest_ne_panics (data : Bytes) : parseRDPRequest asn1 data ≠ .panics := by
  intro hpanics
  unfold parseRDPRequest at hpanics
  split at hpanics
  · cases hpanics
  · split at hpanics
    · cases hpanics
    · split at hpanics
      · cases hpanics
      · split at hpanics
        · next hnone => exact invalidX224_ne_none _ hnone
        · cases hpanics
        · next hvalid =>
            split at hpanics
            · next hnone => exact withoutNLA_ne_none hvalid hnone
            · cases hpanics
            · cases hpanics

end Parser

/-! ## A strict decoder -/

/-- The content of an explicit field: one element with the given tag. -/
def readField (field : UInt8) (tag : UInt8) (bytes : Bytes) : Option (Bytes × Bytes) :=
  match readElement (explicitTag field) bytes with
  | none => none
  | some (inner, rest) =>
      match readElement tag inner with
      | some (content, []) => some (content, rest)
      | _ => none

theorem readField_derElement {content : Bytes} (field tag : UInt8) (tail : Bytes)
    (fits : (derElement tag content).length < int64Cutoff) :
    readField field tag (derElement (explicitTag field) (derElement tag content) ++ tail) =
      some (content, tail) := by
  have hcontent : content.length < int64Cutoff :=
    Nat.lt_trans (length_lt_derElement tag content) fits
  have hinner := readElement_derElement hcontent tag []
  rw [List.append_nil] at hinner
  rw [readField, readElement_derElement fits]
  dsimp only
  rw [hinner]

/-- Decodes exactly the four fields. -/
def strictUnmarshal (data : Bytes) : Option (RdpRequest × Bytes) := do
  let (fields, rest) ← readElement sequenceTag data
  let (version, fields) ← readField 0 integerTag fields
  let (destination, fields) ← readField 2 utf8StringTag fields
  let (proxyAuth, fields) ← readField 3 utf8StringTag fields
  let (x224, fields) ← readField 6 octetStringTag fields
  let destination ← textOf destination
  let proxyAuth ← textOf proxyAuth
  if fields = [] then
    some (⟨Int64.ofInt (twosComplementValue version), destination, proxyAuth, x224⟩, rest)
  else none

def strictAsn1 : Asn1 where
  marshal := fun r => some (requestDer r)
  unmarshal := strictUnmarshal

theorem int64_twosComplement (v : Int64) :
    Int64.ofInt (twosComplementValue (twosComplement 7 v.toInt)) = v := by
  have hspan : signedSpan 7 = 9223372036854775808 := by decide
  have hlow := v.le_toInt
  have hhigh := v.toInt_lt
  rw [twosComplementValue_twosComplement (by omega) (by omega), Int64.ofInt_toInt]

theorem strictAsn1_lawful : strictAsn1.Lawful := by
  constructor
  · exact fun _ => rfl
  · intro r hfits
    change strictUnmarshal (requestDer r) = some (r, [])
    generalize hversion : derElement integerTag (twosComplement 7 r.version.toInt) = version
    generalize hdestination : derElement utf8StringTag (bytesOf r.destination) = destination
    generalize hproxyAuth : derElement utf8StringTag (bytesOf r.proxyAuth) = proxyAuth
    generalize hx224 : derElement octetStringTag r.x224 = x224
    have hrequest : requestDer r = derElement sequenceTag
        (derElement (explicitTag 0) version ++ (derElement (explicitTag 2) destination ++
          (derElement (explicitTag 3) proxyAuth ++ (derElement (explicitTag 6) x224 ++ [])))) := by
      rw [← hversion, ← hdestination, ← hproxyAuth, ← hx224, requestDer]
      simp only [List.append_assoc, List.append_nil]
    rw [hrequest] at hfits
    have hcontent := Nat.lt_trans (length_lt_derElement _ _) hfits
    have hlengths := hcontent
    simp only [List.length_append, List.length_nil] at hlengths
    have hversionFits := length_lt_derElement (explicitTag 0) version
    have hdestinationFits := length_lt_derElement (explicitTag 2) destination
    have hproxyAuthFits := length_lt_derElement (explicitTag 3) proxyAuth
    have hx224Fits := length_lt_derElement (explicitTag 6) x224
    have hsequence := readElement_derElement hcontent sequenceTag []
    rw [List.append_nil] at hsequence
    rw [strictUnmarshal, hrequest, hsequence]
    simp only [Option.bind_eq_bind, Option.bind_some]
    rw [← hversion, readField_derElement _ _ _ (by rw [hversion]; omega)]
    simp only [Option.bind_some]
    rw [← hdestination, readField_derElement _ _ _ (by rw [hdestination]; omega)]
    simp only [Option.bind_some]
    rw [← hproxyAuth, readField_derElement _ _ _ (by rw [hproxyAuth]; omega)]
    simp only [Option.bind_some]
    rw [← hx224, readField_derElement _ _ _ (by rw [hx224]; omega)]
    simp only [Option.bind_some, textOf_bytesOf, int64_twosComplement, if_true]

/-! ## Exactness -/

/--
The parser accepts a request exactly when the data is its encoding and the request is a
connection request with NLA; so there is one encoding for each request, an accepted
X.224 packet is short, and no data makes an index go out of range.
-/
theorem parseRDPRequest_exact (asn1 : Asn1) (lawful : asn1.Lawful) :
    (∀ (data : Bytes) (r : RdpRequest), data.length < int64Cutoff →
      (parseRDPRequest asn1 data = .accepted r ↔
        data = requestDer r ∧ r.version = 3390 ∧ r.proxyAuth ≠ "" ∧ ConnectionRequest r.x224)) ∧
    (∀ (data other : Bytes) (r : RdpRequest), parseRDPRequest asn1 data = .accepted r →
      parseRDPRequest asn1 other = .accepted r → data = other) ∧
    (∀ (data : Bytes) (r : RdpRequest), parseRDPRequest asn1 data = .accepted r →
      r.x224.length ≤ 260) ∧
    ∀ data : Bytes, parseRDPRequest asn1 data ≠ .panics := by
  refine ⟨?_, ?_, ?_, parseRDPRequest_ne_panics⟩
  · intro data r hfits
    exact parseRDPRequest_accepted_iff lawful hfits r
  · intro data other r haccepted haccepted'
    obtain ⟨-, -, hcanonical, -⟩ := checks_of_accepted haccepted
    obtain ⟨-, -, hcanonical', -⟩ := checks_of_accepted haccepted'
    exact Option.some.inj (hcanonical.symm.trans hcanonical')
  · intro data r haccepted
    obtain ⟨-, -, -, hvalid⟩ := checks_of_accepted haccepted
    exact ((connectionRequest_iff r.x224).mpr hvalid).length_le

/-- The request of the gateway's own tests. -/
def testRequest : RdpRequest where
  version := 3390
  destination := "ignored:3389"
  proxyAuth := "token"
  x224 := [3, 0, 0, 19, 14, 0xe0, 0, 0, 0, 0, 0, 1, 0, 8, 0, 3, 0, 0, 0]

theorem parseRDPRequest_exact_test :
    strictAsn1.Lawful ∧ (requestDer testRequest).length < int64Cutoff ∧
      parseRDPRequest strictAsn1 (requestDer testRequest) = .accepted testRequest := by
  have hfits : (requestDer testRequest).length < int64Cutoff := by decide
  refine ⟨strictAsn1_lawful, hfits, ?_⟩
  apply ((parseRDPRequest_exact strictAsn1 strictAsn1_lawful).1 _ _ hfits).mpr
  refine ⟨rfl, rfl, by decide, by decide, by decide, 0, 19, 14, 0, 3, 0, 0, 0, [0, 0, 0, 0, 0],
    rfl, rfl, rfl, rfl⟩

end OpsUp.Api
