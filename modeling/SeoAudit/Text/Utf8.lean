/-! Strict decoding of UTF-8. An octet sequence that no character has is refused
at its first octet, with the octets that already belonged to it. Decoded text has
its line ends made uniform: a carriage return, alone or before a line feed,
becomes a line feed. -/
namespace SeoAudit

namespace Utf8

inductive Fault where
  | invalidStart
  | invalidContinuation
  | truncated
deriving DecidableEq, Repr

def Fault.reason : Fault → String
  | .invalidStart => "invalid start byte"
  | .invalidContinuation => "invalid continuation byte"
  | .truncated => "unexpected end of data"

structure Error where
  first : UInt8
  position : Nat
  length : Nat
  fault : Fault
deriving DecidableEq, Repr

def hexDigit (n : Nat) : Char :=
  if n < 10 then Char.ofNat (48 + n) else Char.ofNat (87 + n)

def Error.message (e : Error) : String :=
  let b := e.first.toNat
  let octet := "0x" ++ String.ofList [hexDigit (b / 16), hexDigit (b % 16)]
  let place :=
    if e.length = 1 then s!"byte {octet} in position {e.position}"
    else s!"bytes in position {e.position}-{e.position + e.length - 1}"
  s!"'utf-8' codec can't decode {place}: {e.fault.reason}"

/-- A character under way: its first octet and position, the octets taken so far,
the value they give, the octets still owed and the range of the next one. -/
structure Pending where
  first : UInt8
  position : Nat
  taken : Nat
  value : Nat
  owed : Nat
  least : Nat
  greatest : Nat

def start (b : UInt8) (position : Nat) : Option Pending :=
  let n := b.toNat
  let open' (value owed least greatest : Nat) : Option Pending :=
    some ⟨b, position, 1, value, owed, least, greatest⟩
  if 0xC2 ≤ n && n ≤ 0xDF then open' (n - 0xC0) 1 0x80 0xBF
  else if n = 0xE0 then open' 0 2 0xA0 0xBF
  else if n = 0xED then open' 13 2 0x80 0x9F
  else if 0xE1 ≤ n && n ≤ 0xEF then open' (n - 0xE0) 2 0x80 0xBF
  else if n = 0xF0 then open' 0 3 0x90 0xBF
  else if 0xF1 ≤ n && n ≤ 0xF3 then open' (n - 0xF0) 3 0x80 0xBF
  else if n = 0xF4 then open' 4 3 0x80 0x8F
  else none

def Pending.refuse (p : Pending) (fault : Fault) : Error :=
  ⟨p.first, p.position, p.taken, fault⟩

/-- Decodes the octets from `position` on, with the decoded characters reversed in `done`. -/
def decodeFrom (position : Nat) (pending : Option Pending) (done : List Char) :
    List UInt8 → Except Error (List Char)
  | [] =>
    match pending with
    | none => .ok done.reverse
    | some p => .error (p.refuse .truncated)
  | b :: bs =>
    let n := b.toNat
    match pending with
    | none =>
      if n < 0x80 then decodeFrom (position + 1) none (Char.ofNat n :: done) bs
      else match start b position with
        | some p => decodeFrom (position + 1) (some p) done bs
        | none => .error ⟨b, position, 1, .invalidStart⟩
    | some p =>
      if p.least ≤ n && n ≤ p.greatest then
        let value := p.value * 64 + (n - 0x80)
        if p.owed = 1 then decodeFrom (position + 1) none (Char.ofNat value :: done) bs
        else decodeFrom (position + 1)
          (some { p with
            taken := p.taken + 1, value := value, owed := p.owed - 1
            least := 0x80, greatest := 0xBF })
          done bs
      else .error (p.refuse .invalidContinuation)

def decode (octets : List UInt8) : Except Error (List Char) := decodeFrom 0 none [] octets

def encodeChar (c : Char) : List UInt8 :=
  let n := c.toNat
  if n < 0x80 then [n.toUInt8]
  else if n < 0x800 then [(0xC0 + n / 64).toUInt8, (0x80 + n % 64).toUInt8]
  else if n < 0x10000 then
    [(0xE0 + n / 4096).toUInt8, (0x80 + n / 64 % 64).toUInt8, (0x80 + n % 64).toUInt8]
  else
    [(0xF0 + n / 262144).toUInt8, (0x80 + n / 4096 % 64).toUInt8, (0x80 + n / 64 % 64).toUInt8,
      (0x80 + n % 64).toUInt8]

def encode (text : List Char) : List UInt8 := text.flatMap encodeChar

def uniformLines : List Char → List Char
  | [] => []
  | '\r' :: '\n' :: cs => '\n' :: uniformLines cs
  | '\r' :: cs => '\n' :: uniformLines cs
  | c :: cs => c :: uniformLines cs

def readText (octets : List UInt8) : Except Error String :=
  (decode octets).map fun cs => String.ofList (uniformLines cs)

end Utf8
end SeoAudit
