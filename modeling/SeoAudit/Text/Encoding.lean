import SeoAudit.Text.Quoted

/-! Encodings of streams of text. A stream has octets for all of ASCII. A text with a code
point that it has none for is refused as a whole, at the first such place. -/
namespace SeoAudit

/-- `reason` is what is said of code points that are not taken. -/
structure Encoding where
  name : Text
  takes : CodePoint → Bool
  reason : Text
  ascii (c : CodePoint) : c.code < 0x80 → takes c

structure EncodingError where
  encoding : Text
  position : Nat
  refused : Text
  reason : Text
deriving DecidableEq, Repr

namespace EncodingError

def place (position : Nat) : (refused : Text) → Text
  | [c] => "character '" ++ Quoted.coded c.code ++ s!"' in position {position}"
  | refused => s!"characters in position {position}-{position + refused.length - 1}"

def message (e : EncodingError) : Text :=
  "'" ++ e.encoding ++ "' codec can't encode " ++ place e.position e.refused ++ ": " ++ e.reason

end EncodingError

namespace Encoding

def utf8 : Encoding where
  name := "utf-8"
  takes
    | .char _ => true
    | .half _ => false
  reason := "surrogates not allowed"
  ascii
    | .char _, _ => rfl
    | .half h, small => by
      have := h.isHalf
      simp only [CodePoint.code] at small
      omega

def verbatim : Encoding where
  name := ""
  takes _ := true
  reason := ""
  ascii _ _ := rfl

def fault? (e : Encoding) (text : Text) : Option EncodingError :=
  match text.dropWhile e.takes with
  | [] => none
  | rest => some ⟨e.name, text.length - rest.length, rest.takeWhile (!e.takes ·), e.reason⟩

def Takes (e : Encoding) (text : Text) : Prop := ∀ c ∈ text, e.takes c

end Encoding
end SeoAudit
