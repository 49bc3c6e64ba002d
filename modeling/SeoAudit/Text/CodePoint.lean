/-! Code points: the characters, and the halves of surrogate pairs. A half that stands
alone is no character, but a text may hold it. In UTF-16 a code point has one unit, or
two halves as units when its code is beyond four digits; `joined` undoes that. -/
namespace SeoAudit

structure Half where
  code : Nat
  isHalf : 0xD800 ≤ code ∧ code < 0xE000
deriving DecidableEq, Repr

inductive CodePoint where
  | char (c : Char)
  | half (h : Half)
deriving DecidableEq, Repr

instance : Coe Char CodePoint := ⟨.char⟩

instance : Inhabited CodePoint := ⟨.char ' '⟩

namespace CodePoint

def code : CodePoint → Nat
  | char c => c.toNat
  | half h => h.code

def ofCode (n : Nat) : CodePoint :=
  if h : 0xD800 ≤ n ∧ n < 0xE000 then half ⟨n, h⟩ else char (Char.ofNat n)

theorem ofCode_code (c : CodePoint) : ofCode c.code = c := by
  cases c with
  | half h => simp [ofCode, code, h.isHalf]
  | char c =>
    have valid := c.valid
    have apart : ¬(0xD800 ≤ c.toNat ∧ c.toNat < 0xE000) := by
      rcases valid with low | ⟨high, _⟩ <;> simp only [Char.toNat] <;> omega
    simp [ofCode, code, apart]

def satisfies (p : Char → Bool) : CodePoint → Bool
  | char c => p c
  | half _ => false

def mapChar (f : Char → Char) : CodePoint → CodePoint
  | char c => char (f c)
  | half h => half h

def isDigit (c : CodePoint) : Bool := c.satisfies Char.isDigit

instance : LT CodePoint := ⟨fun a b => a.code < b.code⟩

instance (a b : CodePoint) : Decidable (a < b) := inferInstanceAs (Decidable (a.code < b.code))

end CodePoint

namespace Utf16

def isHigh (unit : Nat) : Bool := 0xD800 ≤ unit && unit < 0xDC00

def isLow (unit : Nat) : Bool := 0xDC00 ≤ unit && unit < 0xE000

def joined (high low : Nat) : Nat := 0x10000 + (high - 0xD800) * 0x400 + (low - 0xDC00)

def units (code : Nat) : List Nat :=
  if code < 0x10000 then [code]
  else [0xD800 + (code - 0x10000) / 0x400, 0xDC00 + (code - 0x10000) % 0x400]

end Utf16
end SeoAudit
