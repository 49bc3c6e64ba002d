import SeoAudit.Text.Basic

/-! Searching text. A recogniser takes a text and gives what it found at its very
start together with the text behind it. `findFirst` applies one at the leftmost
place where it succeeds, `findAll` at all leftmost places that do not overlap,
and `upTo` stops at the first place, keeping the text before it. -/
namespace SeoAudit

abbrev Recogniser (α : Type) := Text → Option (α × Text)

namespace Text

def after? : (literal text : Text) → Option Text
  | [], s => some s
  | _ :: _, [] => none
  | a :: as, c :: cs => if a = c then after? as cs else none

theorem after?_eq_some {literal text rest : Text} :
    after? literal text = some rest ↔ text = literal ++ rest := by
  induction literal generalizing text with
  | nil => simp [after?, eq_comm]
  | cons a as ih =>
    cases text with
    | nil => simp [after?]
    | cons c cs =>
      by_cases h : a = c
      · simp [after?, h, ih]
      · simp [after?, h, Ne.symm h]

def occursIn (literal : Text) : Text → Bool
  | [] => literal.isEmpty
  | c :: cs => (after? literal (c :: cs)).isSome || occursIn literal cs

theorem occursIn_iff {literal text : Text} :
    occursIn literal text = true ↔ literal <:+: text := by
  induction text with
  | nil => simp [occursIn]
  | cons c cs ih =>
    simp only [occursIn, Bool.or_eq_true, ih, Option.isSome_iff_exists, after?_eq_some,
      List.infix_cons_iff]
    constructor
    · rintro (⟨rest, h⟩ | h)
      · exact .inl ⟨rest, h.symm⟩
      · exact .inr h
    · rintro (⟨rest, h⟩ | h)
      · exact .inl ⟨rest, h.symm⟩
      · exact .inr h

/-- The text before the first place where the recogniser succeeds, with what it
gives there. -/
def upTo {α : Type} (r : Text → Option α) : Text → Option (Text × α)
  | [] => (r []).map ([], ·)
  | c :: cs =>
    match r (c :: cs) with
    | some a => some ([], a)
    | none => (upTo r cs).map fun (before, a) => (c :: before, a)

def findFirst {α : Type} (r : Text → Option α) (s : Text) : Option α :=
  (upTo r s).map (·.2)

/-- The finds at successive leftmost places; `inside` counts the code points still
covered by the find before. -/
def findAllFrom {α : Type} (r : Recogniser α) : (inside : Nat) → Text → List α
  | _, [] => []
  | inside + 1, _ :: cs => findAllFrom r inside cs
  | 0, c :: cs =>
    match r (c :: cs) with
    | some (a, rest) => a :: findAllFrom r (cs.length - rest.length) cs
    | none => findAllFrom r 0 cs

def findAll {α : Type} (r : Recogniser α) (s : Text) : List α := findAllFrom r 0 s

def anyOf (literals : List Text) (text : Text) : Bool := literals.any (occursIn · text)

def mentions (text literal : Text) : Bool := occursIn literal text

end Text
end SeoAudit
