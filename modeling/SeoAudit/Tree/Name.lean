import SeoAudit.Text.Basic
import SeoAudit.Text.Utf8
import SeoAudit.Total

/-! Names of files and directories. A name is made of octets, and an octet that is no
part of a character stands in it as a half of a surrogate pair. So a text may spell the
octets of a character in halves and name the same file as the character; `stored` is the
spelling that a directory gives back. -/
namespace SeoAudit
namespace Name

def isHalf : CodePoint → Bool
  | .char _ => false
  | .half _ => true

/-- The octet that a half stands for: those from 0x80 on are added to 0xDC00. -/
def octet? : CodePoint → Option UInt8
  | .char _ => none
  | .half h =>
    if 0xDC80 ≤ h.code && h.code < 0xDD00 then some (h.code - 0xDC00).toUInt8 else none

def isUnwritable (c : CodePoint) : Bool := isHalf c && (octet? c).isNone

def octetCount : CodePoint → Nat
  | .char c => c.utf8Size
  | .half _ => 1

def octetTotal (text : Text) : Nat := totalOf octetCount text

def spelled? (halves : Text) : Option Char :=
  match (halves.mapM octet?).map Utf8.decode with
  | some (.ok [c]) => some c
  | _ => none

def leading? (text : Text) : Option (Char × Nat) :=
  [2, 3, 4].findSome? fun n => (spelled? (text.take n)).map (·, n)

/-- A name with each character that is spelled in halves put in their place; the first
code points are left out. -/
def storedFrom : (leftOut : Nat) → Text → Text
  | _, [] => []
  | leftOut + 1, _ :: rest => storedFrom leftOut rest
  | 0, c :: rest =>
    match leading? (c :: rest) with
    | some (spelled, n) => .char spelled :: storedFrom (n - 1) rest
    | none => c :: storedFrom 0 rest

def stored (name : Text) : Text := storedFrom 0 name

end Name
end SeoAudit
