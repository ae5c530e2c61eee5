import NetworkLabs.Foundations.NetworkOrder

/-!
# Binding responses

What a STUN server answers, as the cheat sheet in the `README.md` of lab4 describes it.
Values whose constructor asks for a proof are well formed.
-/

namespace NetworkLabs.Stun

open Foundations

/-- `STUN_HEADER_SIZE`: the type, the length, the magic cookie and the transaction ID. -/
def stunHeaderSize : ℕ := 20

/-- `STUN_BUFFER_SIZE`, the bytes of `response_buffer`. -/
def stunBufferSize : ℕ := stunHeaderSize + 1000

/-- The magic cookie, which is in every header and encodes the `XOR-MAPPED-ADDRESS`. -/
def stunMagicCookie : ℕ := 0x2112A442

/-- The translated address of a client, as the server sees it behind the NAT. -/
structure Address where
  ip : BitVec 32
  port : BitVec 16
  deriving DecidableEq

/-- An attribute of a response; only the first two kinds carry an address. -/
inductive Attribute where
  | mappedAddress (address : Address)
  | xorMappedAddress (address : Address)
  | other (type : BitVec 16) (value : List Byte) (irrelevant : type ≠ 0x0001 ∧ type ≠ 0x0020)
    (padded : 4 ∣ value.length)

/-- The type field. The one of `XOR-MAPPED-ADDRESS` is 0x0020. -/
def Attribute.type : Attribute → ℕ
  | .mappedAddress _ => 0x0001
  | .xorMappedAddress _ => 0x0020
  | .other type _ _ _ => type.toNat

/-- The value: for an address a zero, the IPv4 family, the port and the IP. -/
def Attribute.value : Attribute → List Byte
  | .mappedAddress address =>
    [0x00, 0x01] ++ bigEndian 2 address.port.toNat ++ bigEndian 4 address.ip.toNat
  | .xorMappedAddress address =>
    [0x00, 0x01] ++ xorBytes (bigEndian 2 address.port.toNat) (bigEndian 4 stunMagicCookie) ++
      xorBytes (bigEndian 4 address.ip.toNat) (bigEndian 4 stunMagicCookie)
  | .other _ value _ _ => value

/-- An attribute as it is sent: its type, the length of its value and the value, in network
order. -/
def Attribute.encode (a : Attribute) : List Byte :=
  bigEndian 2 a.type ++ bigEndian 2 a.value.length ++ a.value

/-- The address that an attribute carries, plain or encoded. -/
def Attribute.address : Attribute → Option Address
  | .mappedAddress address => some address
  | .xorMappedAddress address => some address
  | .other _ _ _ _ => none

/-- Attributes as they are sent, without anything between them. -/
def encodeAttributes (attributes : List Attribute) : List Byte :=
  attributes.flatMap Attribute.encode

/-- A `Binding Response` that fits the buffer, and the IP of the server that sent it. -/
structure Response where
  source : BitVec 32
  transactionId : List Byte
  attributes : List Attribute
  length_transactionId : transactionId.length = 12
  fits : stunHeaderSize + (encodeAttributes attributes).length ≤ stunBufferSize

/-- The header of a response: the type of a success response, the length of all attributes, the
magic cookie and the transaction ID. -/
def Response.header (r : Response) : List Byte :=
  bigEndian 2 0x0101 ++ bigEndian 2 (encodeAttributes r.attributes).length ++
    bigEndian 4 stunMagicCookie ++ r.transactionId

/-- A response as it is sent, with its attributes behind its header. -/
def Response.encode (r : Response) : List Byte := r.header ++ encodeAttributes r.attributes

/-- The mapped addresses that a response carries, in order, encoded or not. -/
def Response.addresses (r : Response) : List Address := r.attributes.filterMap Attribute.address

/-- No attributes are sent as no bytes, so that a response without them ends with its header. -/
@[simp] theorem encodeAttributes_nil : encodeAttributes [] = [] := rfl

/-- The first attribute is sent first, and the others follow it. -/
@[simp] theorem encodeAttributes_cons (a : Attribute) (attributes : List Attribute) :
    encodeAttributes (a :: attributes) = a.encode ++ encodeAttributes attributes := rfl

/-- An attribute has a header of four bytes, its type and its length, and its value
behind them. -/
theorem Attribute.length_encode (a : Attribute) : a.encode.length = a.value.length + 4 := by
  simp only [Attribute.encode, List.length_append, length_bigEndian]
  omega

/-- The type of an attribute is a number of two bytes. -/
theorem Attribute.type_lt (a : Attribute) : a.type < 256 ^ 2 := by
  cases a with
  | mappedAddress address => exact (by decide : 0x0001 < 256 ^ 2)
  | xorMappedAddress address => exact (by decide : 0x0020 < 256 ^ 2)
  | other type value irrelevant padded => exact type.isLt

/-- The header of a response has the size that the handlers skip before the first attribute. -/
theorem Response.length_header (r : Response) : r.header.length = stunHeaderSize := by
  simp [Response.header, r.length_transactionId, stunHeaderSize]

end NetworkLabs.Stun
