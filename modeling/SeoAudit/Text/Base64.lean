import SeoAudit.Text.Basic

/-! Octets written as base 64 text. Characters outside the alphabet are skipped; four
characters, padded with equal signs if need be, hold three octets. -/
namespace SeoAudit
namespace Base64

def letterValue? (c : Char) : Option Nat :=
  let n := c.toNat
  if 'A' ≤ c && c ≤ 'Z' then some (n - 65)
  else if 'a' ≤ c && c ≤ 'z' then some (n - 71)
  else if '0' ≤ c && c ≤ '9' then some (n + 4)
  else if c = '+' then some 62
  else if c = '/' then some 63
  else none

def sextet? : CodePoint → Option Nat
  | .char c => letterValue? c
  | .half _ => none

def octets : List Nat → List UInt8
  | [a, b] => [(a * 4 + b / 16).toUInt8]
  | [a, b, c] => [(a * 4 + b / 16).toUInt8, (b % 16 * 16 + c / 4).toUInt8]
  | [a, b, c, d] =>
    [(a * 4 + b / 16).toUInt8, (b % 16 * 16 + c / 4).toUInt8, (c % 4 * 64 + d).toUInt8]
  | _ => []

def decodeFrom (group : List Nat) : Text → Option (List UInt8)
  | [] => if group.isEmpty then some [] else none
  | c :: cs =>
    match sextet? c with
    | some s =>
      if group.length = 3 then (decodeFrom [] cs).map (octets (group ++ [s]) ++ ·)
      else decodeFrom (group ++ [s]) cs
    | none =>
      if c = '=' then
        if group.length = 3 then some (octets group)
        else if group.length = 2 then
          if (cs.dropWhile fun d => d ≠ .char '=' && (sextet? d).isNone).head? = some (.char '=')
            then some (octets group)
          else decodeFrom group cs
        else decodeFrom group cs
      else decodeFrom group cs

def decode? (text : Text) : Option (List UInt8) := decodeFrom [] text

end Base64
end SeoAudit
